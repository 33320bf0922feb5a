/- # Stitchwork.Proofs.Command.Status — what the status of a run tells.

A run ends in one of three ways.  It may be refused, for one of a few reasons that can be told from the input, the
arguments and the pattern; it may fail, wherever something goes wrong; or it comes to its end, and then everything that
the arguments ask for is there.  The status tells the first from the other two and does not tell these apart.
-/
import Stitchwork.Proofs.Command.Extraction

namespace Stitchwork.Command

open Stitchwork.Files Stitchwork.Files.Tree Stitchwork.Pattern Stitchwork.Project Stitchwork.Text

variable {d : Document} {a : Arguments} {w w' : World} {reason input : String}

/-! ## Steps that work on files -/

section

variable {α β : Type}

/-- The step changes files at most, and it is not a reason to refuse the run. -/
def OnFiles (x : Run α) : Prop :=
  ∀ w r w', x.run.run w = (r, w') →
    (∀ reason, r ≠ .error (.refused reason)) ∧ w'.printed = w.printed ∧ w'.drawn = w.drawn

theorem onFiles_pure (a : α) : OnFiles (pure a) := by
  rintro w r w' ⟨⟩
  exact ⟨fun _ => by rintro ⟨⟩, rfl, rfl⟩

theorem onFiles_fail (e : Error) : OnFiles (throw (.failed e) : Run α) := by
  rintro w r w' ⟨⟩
  exact ⟨fun _ => by rintro ⟨⟩, rfl, rfl⟩

theorem onFiles_attempt (r : Except Error α) : OnFiles (attempt r) := by
  cases r with
  | error e => exact onFiles_fail e
  | ok a => exact onFiles_pure a

theorem OnFiles.bind {x : Run α} {f : α → Run β} (hx : OnFiles x) (hf : ∀ a, OnFiles (f a)) : OnFiles (x >>= f) := by
  intro w r w' h
  obtain ⟨e, hfirst, rfl⟩ | ⟨a, v, hfirst, hrest⟩ := run_bind_cases h
  · obtain ⟨hrefused, hkept⟩ := hx w _ w' hfirst
    refine ⟨fun reason hreason => hrefused reason ?_, hkept⟩
    cases hreason
    rfl
  · obtain ⟨-, hprinted, hdrawn⟩ := hx w _ v hfirst
    obtain ⟨hrefused, hprinted', hdrawn'⟩ := hf a v r w' hrest
    exact ⟨hrefused, hprinted'.trans hprinted, hdrawn'.trans hdrawn⟩

end

theorem onFiles_writeFile (path : String) (c : Content) : OnFiles (writeFile path c) := by
  intro w r w' h
  rw [run_writeFile] at h
  split at h
  · cases h
    exact ⟨fun _ => by rintro ⟨⟩, rfl, rfl⟩
  · cases h
    exact ⟨fun _ => by rintro ⟨⟩, rfl, rfl⟩

theorem onFiles_writeText (path text : String) : OnFiles (writeText path text) := by
  rw [writeText]
  split
  · exact (onFiles_writeFile path _).bind fun _ => onFiles_fail _
  · exact onFiles_writeFile path _

theorem onFiles_makeDirectory (path : String) : OnFiles (makeDirectory path) := by
  intro w r w' h
  rw [run_makeDirectory] at h
  cases h
  refine ⟨fun reason => ?_, rfl, rfl⟩
  split
  · rintro ⟨⟩
  · rintro ⟨⟩

theorem onFiles_extractEach (output : String) (images : List Image) : OnFiles (extractEach output images) := by
  induction images with
  | nil => exact onFiles_pure ()
  | cons i rest ih =>
    refine OnFiles.bind ((onFiles_writeFile _ _).bind fun _ => ?_) fun _ => ih
    split
    · exact onFiles_writeFile _ _
    · exact onFiles_fail _

/-! ## Files that are there -/

/-- The path leads to a file, which holds this. -/
def Holds (t : Tree) (path : String) (c : Content) : Prop :=
  ∃ place, t.file? path = some place ∧ t.at? place = some (.file c)

theorem holds_of_writeFile {path : String} {c : Content} (h : (writeFile path c).run.run w = (.ok (), w')) :
    Holds w'.files path c := by
  rw [run_writeFile] at h
  split at h
  · next place hplace =>
    cases h
    have hthere : (w.files.set place (.file c)).at? place = some (.file c) := by
      rw [at?_set _ (at?_of_target hplace), if_pos rfl]
    exact ⟨place, file?_of_target ((changesOnly_set hplace c).target.2 hplace) hthere, hthere⟩
  · cases h

theorem holds_of_writeText {path text : String} (h : (writeText path text).run.run w = (.ok (), w')) :
    Holds w'.files path (.text text) := by
  rw [writeText] at h
  split at h
  · obtain ⟨e, -, he⟩ | ⟨_, v, -, hfail⟩ := run_bind_cases h
    · cases he
    · cases hfail
  · exact holds_of_writeFile h

/-! ## Packaging -/

/-- The path of a package: beside the input, with the version of the pattern in its name. -/
def packagePath (input : String) (left : Document) : String :=
  (splitExtension input).1 ++ "_" ++ versionText left.version ++ ".opafpkg"

/-- A pattern that is a package is not packaged. -/
theorem run_packageStep_packaged (h : d.pkgVersion.isSome = true) (input : String) (w : World) :
    (packageStep input d).run.run w = (.error (.refused "Input file is already packaged"), w) := by
  rw [packageStep, if_pos h]
  rfl

/-- Packaging a pattern that is no package: an identifier may be drawn, and what comes then is work on files. -/
theorem packageStep_of_none (h : d.pkgVersion = none) (input : String) (w : World) :
    let drawn := (package false d).run w.drawn
    (packageStep input d).run.run w =
      (attempt drawn.1.1 >>= fun text => writeText (packagePath input drawn.1.2) text >>= fun _ =>
        pure drawn.1.2 : Run Document).run.run { w with drawn := drawn.2 } := by
  rw [packageStep, h]
  rfl

theorem refusal_of_packageStep (h : (packageStep input d).run.run w = (.error (.refused reason), w')) :
    d.pkgVersion.isSome = true ∧ reason = "Input file is already packaged" := by
  cases hpackaged : d.pkgVersion with
  | some v =>
    rw [run_packageStep_packaged (by rw [hpackaged, Option.isSome_some])] at h
    cases h
    exact ⟨rfl, rfl⟩
  | none =>
    rw [packageStep_of_none hpackaged] at h
    refine absurd rfl ((OnFiles.bind (onFiles_attempt _) (fun text => ?_) _ _ _ h).1 reason)
    exact (onFiles_writeText _ _).bind fun _ => onFiles_pure _

/-- A pattern that has been packaged: its package is in a file, and what is left of the pattern is no package. -/
theorem packageStep_eq_ok {left : Document} (h : (packageStep input d).run.run w = (.ok left, w')) :
    d.pkgVersion = none ∧ left.pkgVersion = none ∧
      ∃ text n, (package false d).run w.drawn = ((.ok text, left), n) ∧
        Holds w'.files (packagePath input left) (.text text) := by
  obtain ⟨-, ⟨e, he⟩, -⟩ | ⟨hnone, hleft, -⟩ := packageStep_cases h
  · cases he
  refine ⟨hnone, hleft left rfl, ?_⟩
  rw [packageStep_of_none hnone] at h
  rcases hpackage : (package false d).run w.drawn with ⟨⟨text, rest⟩, n⟩
  rw [hpackage] at h
  cases text with
  | error e => cases h
  | ok text =>
    rw [run_bind, run_attempt] at h
    obtain ⟨e, -, he⟩ | ⟨_, v, hwrite, hlast⟩ := run_bind_cases h
    · cases he
    · cases hlast
      exact ⟨text, n, rfl, holds_of_writeText hwrite⟩

/-! ## Images and projects -/

/-- Compiles the pattern, if a project is asked for. -/
def compileAsked (a : Arguments) (d : Document) : Run Unit :=
  if given a.compile then compileStep a (a.compile.getD "") d else pure ()

/-- What a run does with a pattern when it has packaged it, or has not been asked to. -/
def serve (a : Arguments) (d : Document) : Run Unit :=
  (if a.extractImages then extractStep a.output d else pure ()) >>= fun _ => compileAsked a d

theorem finish_eq (a : Arguments) (input : String) (d : Document) :
    finish a input d = (if a.package then packageStep input d else pure d) >>= serve a := by
  have hserve : ∀ d, (do
      if a.extractImages then extractStep a.output d
      if given a.compile then compileStep a (a.compile.getD "") d : Run Unit) = serve a d := by
    intro d
    rw [serve]
    cases a.extractImages <;> rfl
  rw [finish]
  simp only [hserve]
  cases a.package <;> rfl

/-- Why neither images nor a project can be asked of a pattern. -/
def outputRefusal? (a : Arguments) (d : Document) : Option String :=
  if a.extractImages && !given d.pkgVersion then some "Input file is not an OPAF package file."
  else if a.extractImages && !given a.output then some "Output path is not specified."
  else if given a.compile && !given d.pkgVersion then
    some "Input file is not an OPAF package file. Compilation is not possible."
  else none

theorem outputRefusal?_eq_none :
    outputRefusal? a d = none ↔ (a.extractImages = true → given d.pkgVersion = true ∧ given a.output = true) ∧
      (given a.compile = true → given d.pkgVersion = true) := by
  rw [outputRefusal?]
  cases a.extractImages <;> cases given d.pkgVersion <;> cases given a.output <;> cases given a.compile <;> simp

/-- A run that is refused here has done nothing here before. -/
theorem run_serve_of_refusal (h : outputRefusal? a d = some reason) (w : World) :
    (serve a d).run.run w = (.error (.refused reason), w) := by
  rw [outputRefusal?] at h
  rw [serve, extractStep, compileAsked, compileStep, run_bind]
  cases hextract : a.extractImages with
  | true =>
    cases hpackaged : given d.pkgVersion with
    | false =>
      rw [hextract, hpackaged] at h
      cases h
      rfl
    | true =>
      cases houtput : given a.output with
      | false =>
        rw [hextract, hpackaged, houtput] at h
        cases h
        rfl
      | true =>
        rw [hextract, hpackaged, houtput] at h
        simp at h
  | false =>
    cases hpackaged : given d.pkgVersion with
    | true =>
      rw [hextract, hpackaged] at h
      simp at h
    | false =>
      cases hcompile : given a.compile with
      | false =>
        rw [hextract, hpackaged, hcompile] at h
        cases h
      | true =>
        rw [hextract, hpackaged, hcompile] at h
        cases h
        rfl

theorem onFiles_extractStep {output : Option String} (hpackaged : given d.pkgVersion = true)
    (houtput : given output = true) : OnFiles (extractStep output d) := by
  rw [extractStep, hpackaged, houtput]
  exact (onFiles_makeDirectory _).bind fun _ => onFiles_extractEach _ _

/-- The images that have been extracted are in their files, and nothing but files has changed. -/
theorem extractStep_eq_ok {output : Option String} (h : (extractStep output d).run.run w = (.ok (), w')) :
    given output = true ∧ w'.printed = w.printed ∧ w'.drawn = w.drawn ∧
      ∀ i ∈ d.images, ∃ place bs, w'.files.target (imagePath (output.getD "") i) = .ok place ∧
        w'.files.at? place = some (.file (.bytes bs)) := by
  obtain ⟨⟨e, he⟩, -⟩ | ⟨hpackaged, houtput, v, -, heach⟩ := extractStep_cases h
  · cases he
  obtain ⟨-, hprinted, hdrawn⟩ := onFiles_extractStep hpackaged houtput w _ w' h
  refine ⟨houtput, hprinted, hdrawn, ?_⟩
  obtain ⟨hall, hlast⟩ := extractEach_eq_ok heach
  intro i hi
  obtain ⟨place, hplace⟩ := hall i hi
  obtain ⟨-, bs, -, -, hat⟩ := hlast i hi place hplace
  exact ⟨place, bs, (changesOnly_extractEach heach).target.2 hplace, hat⟩

/-- What is chosen for a project by the arguments. -/
def choicesOf (a : Arguments) : Choices := ⟨readSettings (a.config.getD ""), readSettings (a.colors.getD "")⟩

/-- Puts a project into its file, or prints it. -/
def deliver (a : Arguments) (name text : String) : Run Unit :=
  if given a.output then
    makeDirectory (a.output.getD "") >>= fun _ => writeText (projectFile (a.output.getD "") name) text
  else modifyThe World fun w => { w with printed := w.printed ++ text ++ "\n" }

/-- Compiling a package: identifiers are drawn, and then the project is delivered. -/
theorem compileStep_of_given (h : given d.pkgVersion = true) (a : Arguments) (name : String) (w : World) :
    let drawn := (compile .fresh (choicesOf a) name d).run w.drawn
    (compileStep a name d).run.run w =
      (attempt drawn.1.text >>= deliver a name).run.run { w with drawn := drawn.2 } := by
  rw [compileStep, h]
  rfl

theorem compileStep_not_refused (h : given d.pkgVersion = true) {name : String} :
    (compileStep a name d).run.run w ≠ (.error (.refused reason), w') := by
  rw [compileStep_of_given h]
  intro hrun
  obtain ⟨e, hfirst, he⟩ | ⟨text, v, -, hrest⟩ := run_bind_cases hrun
  · cases he
    exact (onFiles_attempt _ _ _ _ hfirst).1 reason rfl
  · rw [deliver] at hrest
    split at hrest
    · exact (((onFiles_makeDirectory _).bind fun _ => onFiles_writeText _ _) _ _ _ hrest).1 reason rfl
    · cases hrest

/-- A project that has been compiled is in its file, or printed. -/
theorem compileStep_eq_ok {name : String} (h : (compileStep a name d).run.run w = (.ok (), w')) :
    ∃ text, ((compile .fresh (choicesOf a) name d).run w.drawn).1.text = .ok text ∧
      if given a.output then Holds w'.files (projectFile (a.output.getD "") name) (.text text)
      else w'.printed = w.printed ++ text ++ "\n" := by
  cases hpackaged : given d.pkgVersion with
  | false =>
    rw [compileStep, hpackaged] at h
    cases h
  | true =>
    rw [compileStep_of_given hpackaged] at h
    cases htext : ((compile .fresh (choicesOf a) name d).run w.drawn).1.text with
    | error e =>
      rw [htext] at h
      cases h
    | ok text =>
      rw [htext, run_bind, run_attempt] at h
      refine ⟨text, rfl, ?_⟩
      change (deliver a name text).run.run _ = _ at h
      rw [deliver] at h
      split at h
      · next houtput =>
        rw [if_pos houtput]
        obtain ⟨e, -, he⟩ | ⟨_, v, -, hwrite⟩ := run_bind_cases h
        · cases he
        · exact holds_of_writeText hwrite
      · next houtput =>
        rw [if_neg houtput]
        cases h
        rfl

/-- The file of an image stays as it is when a project is put beside it. -/
theorem holds_of_compileAsked {r : Except Stop Unit} (h : (compileAsked a d).run.run w = (r, w'))
    (houtput : given a.output = true) {i : Image} {place : List String} {c : Content}
    (hplace : w.files.target (imagePath (a.output.getD "") i) = .ok place) (hat : w.files.at? place = some (.file c)) :
    Holds w'.files (imagePath (a.output.getD "") i) c := by
  have hchanges : ChangesOnly (fun q => ∃ stem, q.getLast? = some (stem ++ ".opafproj")) w.files w'.files := by
    rw [compileAsked] at h
    split at h
    · -- the directory is there, since the image is
      refine changesOnly_compileStep h ?_
      rw [imagePath_eq] at hplace
      obtain ⟨dir, hdir, -⟩ := target_behind (by simpa [given] using houtput) hplace
      rw [has, hdir]
      rfl
    · cases h
      exact .refl _ _
  rw [← hchanges.elsewhere place (getLast?_ne_of_target hplace)] at hat
  exact ⟨place, file?_of_target (hchanges.target.2 hplace) hat, hat⟩

/-- Only what cannot be asked of the pattern is a reason to refuse a run here. -/
theorem refusal_of_serve (h : (serve a d).run.run w = (.error (.refused reason), w')) :
    outputRefusal? a d = some reason := by
  cases hrefusal : outputRefusal? a d with
  | some other =>
    rw [run_serve_of_refusal hrefusal] at h
    cases h
    rfl
  | none =>
    obtain ⟨hextract, hcompile⟩ := outputRefusal?_eq_none.1 hrefusal
    obtain ⟨e, hfirst, he⟩ | ⟨_, v, -, hrest⟩ := run_bind_cases h
    · cases he
      split at hfirst
      · next hasked =>
        obtain ⟨hpackaged, houtput⟩ := hextract hasked
        exact absurd rfl ((onFiles_extractStep hpackaged houtput w _ w' hfirst).1 reason)
      · cases hfirst
    · rw [compileAsked] at hrest
      split at hrest
      · next hasked => exact absurd hrest (compileStep_not_refused (hcompile hasked))
      · cases hrest

/-- The images and the project that are asked for are there when a run has come to its end. -/
theorem serve_eq_ok (h : (serve a d).run.run w = (.ok (), w')) :
    (a.extractImages = true → ∀ i ∈ d.images, ∃ bs, Holds w'.files (imagePath (a.output.getD "") i) (.bytes bs)) ∧
      (given a.compile = true → ∃ text,
        ((compile .fresh (choicesOf a) (a.compile.getD "") d).run w.drawn).1.text = .ok text ∧
          if given a.output then Holds w'.files (projectFile (a.output.getD "") (a.compile.getD "")) (.text text)
          else w'.printed = w.printed ++ text ++ "\n") := by
  obtain ⟨e, -, he⟩ | ⟨_, v, hfirst, hrest⟩ := run_bind_cases h
  · cases he
  -- extraction neither prints nor draws, so the project is the one that is compiled from the start
  have hkept : v.printed = w.printed ∧ v.drawn = w.drawn := by
    split at hfirst
    · obtain ⟨-, hprinted, hdrawn, -⟩ := extractStep_eq_ok hfirst
      exact ⟨hprinted, hdrawn⟩
    · cases hfirst
      exact ⟨rfl, rfl⟩
  constructor
  · intro hasked i hi
    rw [if_pos hasked] at hfirst
    obtain ⟨houtput, -, -, himages⟩ := extractStep_eq_ok hfirst
    obtain ⟨place, bs, hplace, hat⟩ := himages i hi
    exact ⟨bs, holds_of_compileAsked hrest houtput hplace hat⟩
  · intro hasked
    rw [compileAsked, if_pos hasked] at hrest
    rw [← hkept.1, ← hkept.2]
    exact compileStep_eq_ok hrest

/-! ## Runs that are refused, and runs that come to their end -/

/-- Why a run is refused before its input is read. -/
def inputRefusal? (t : Tree) (input : String) : Option String :=
  if (t.file? input).isNone then some ("File not found '" ++ input ++ "'")
  else if !startsWith (splitExtension input).2 ".opaf" then
    some "Input file is not an OPAF file or has the wrong extension"
  else none

/-- Why a run is refused with the pattern that it has read. -/
def refusal? (a : Arguments) (d : Document) : Option String :=
  if a.package && d.pkgVersion.isSome then some "Input file is already packaged" else outputRefusal? a d

/-- The pattern is to be packaged, and this fails. -/
def PackagingFails (a : Arguments) (input : String) (d : Document) (w : World) : Prop :=
  a.package = true ∧ ∃ e w', (packageStep input d).run.run w = (.error (.failed e), w')

/-- Everything that the arguments ask for is there: the package in its file, a file for each image, and the project in
its file or printed.  The pattern is `d`, and `n` identifiers have been drawn before it is worked on. -/
structure Delivered (a : Arguments) (input : String) (d : Document) (n : Nat) (w : World) : Prop where
  package : a.package = true → ∃ text left m, (package false d).run n = ((.ok text, left), m) ∧
    Holds w.files (packagePath input left) (.text text)
  images : a.extractImages = true → ∀ i ∈ d.images, ∃ bs, Holds w.files (imagePath (a.output.getD "") i) (.bytes bs)
  project : given a.compile = true → ∃ text,
    ((compile .fresh (choicesOf a) (a.compile.getD "") d).run n).1.text = .ok text ∧
      if given a.output then Holds w.files (projectFile (a.output.getD "") (a.compile.getD "")) (.text text)
      else w.printed = text ++ "\n"

theorem outputRefusal?_congr (a : Arguments) {d' : Document} (h : d.pkgVersion = d'.pkgVersion) :
    outputRefusal? a d = outputRefusal? a d' := by
  rw [outputRefusal?, outputRefusal?, h]

theorem not_packagingFails {r : Except Stop Document} (h : (packageStep input d).run.run w = (r, w'))
    (hr : ∀ e, r ≠ .error (.failed e)) : ¬PackagingFails a input d w := by
  rintro ⟨-, e, v, hfailed⟩
  rw [h] at hfailed
  exact hr e (congrArg Prod.fst hfailed)

/-- A run is refused with its pattern for a reason, unless packaging fails first. -/
theorem finish_refused_iff :
    (∃ w', (finish a input d).run.run w = (.error (.refused reason), w')) ↔
      refusal? a d = some reason ∧ ¬PackagingFails a input d w := by
  rw [finish_eq, refusal?]
  cases hasked : a.package with
  | false =>
    have hfails : ¬PackagingFails a input d w := fun h => absurd (hasked.symm.trans h.1) Bool.false_ne_true
    rw [and_iff_left hfails]
    change (∃ w', (serve a d).run.run w = (.error (.refused reason), w')) ↔ outputRefusal? a d = some reason
    exact ⟨fun ⟨w', h⟩ => refusal_of_serve h, fun h => ⟨w, run_serve_of_refusal h w⟩⟩
  | true =>
    rw [run_bind, if_pos rfl, Bool.true_and]
    rcases hpackage : (packageStep input d).run.run w with ⟨r, v⟩
    match r with
    | .ok left =>
      -- neither `d` nor what is left of it is a package, so both are refused for the same reason
      obtain ⟨hnone, hleft, -⟩ := packageStep_eq_ok hpackage
      have hfails : ¬PackagingFails a input d w := not_packagingFails hpackage fun e => by rintro ⟨⟩
      rw [and_iff_left hfails, hnone, Option.isSome_none, if_neg Bool.false_ne_true,
        outputRefusal?_congr a (hnone.trans hleft.symm)]
      change (∃ w', (serve a left).run.run v = (.error (.refused reason), w')) ↔ _
      exact ⟨fun ⟨w', h⟩ => refusal_of_serve h, fun h => ⟨v, run_serve_of_refusal h v⟩⟩
    | .error (.failed e) =>
      refine iff_of_false ?_ fun h => h.2 ⟨hasked, e, v, hpackage⟩
      rintro ⟨w', ⟨⟩⟩
    | .error (.refused other) =>
      obtain ⟨hsome, rfl⟩ := refusal_of_packageStep hpackage
      have hfails : ¬PackagingFails a input d w := not_packagingFails hpackage fun e => by rintro ⟨⟩
      rw [and_iff_left hfails, if_pos hsome, Option.some.injEq]
      constructor
      · rintro ⟨w', ⟨⟩⟩
        rfl
      · rintro rfl
        exact ⟨v, rfl⟩

/-- A run that comes to its end has done everything that it was asked for. -/
theorem delivered_of_finish (h : (finish a input d).run.run w = (.ok (), w')) (hprinted : w.printed = "") :
    Delivered a input d w.drawn w' := by
  rw [finish_eq] at h
  obtain ⟨e, -, he⟩ | ⟨left, v, hfirst, hserve⟩ := run_bind_cases h
  · cases he
  cases hasked : a.package with
  | false =>
    rw [hasked] at hfirst
    cases hfirst
    obtain ⟨himages, hproject⟩ := serve_eq_ok hserve
    simp only [hprinted, String.empty_append] at hproject
    exact ⟨fun h => (by rw [hasked] at h; cases h), himages, hproject⟩
  | true =>
    -- what has just been packaged is no package, so nothing else has been asked for
    rw [hasked] at hfirst
    obtain ⟨-, hleft, text, m, hpackage, hholds⟩ := packageStep_eq_ok hfirst
    have hno : outputRefusal? a left = none := by
      cases hrefusal : outputRefusal? a left with
      | none => rfl
      | some reason =>
        rw [run_serve_of_refusal hrefusal] at hserve
        cases hserve
    rw [outputRefusal?_eq_none, hleft] at hno
    have himages : a.extractImages = false := by
      rw [Bool.eq_false_iff]
      exact fun h => absurd (hno.1 h).1 (by decide)
    have hcompile : given a.compile = false := by
      rw [Bool.eq_false_iff]
      exact fun h => absurd (hno.2 h) (by decide)
    rw [serve, compileAsked, himages, hcompile] at hserve
    cases hserve
    exact ⟨fun _ => ⟨text, left, m, hpackage, hholds⟩, fun h => (by rw [himages] at h; cases h),
      fun h => (by rw [hcompile] at h; cases h)⟩

/-- The steps of a run, by what becomes of its input. -/
theorem run_steps (encode : Encoder) (a : Arguments) (input : String) (w : World) :
    (steps encode a input).run.run w =
      match inputRefusal? w.files input with
      | some reason => (.error (.refused reason), w)
      | none =>
        match (readPattern ⟨w.files, encode⟩ input).run.run w.drawn with
        | (.error e, n) => (.error (.failed e), { w with drawn := n })
        | (.ok d, n) => (finish a input d).run.run { w with drawn := n } := by
  rw [steps, run_bind, run_get, inputRefusal?]
  simp only
  split
  · rfl
  split
  · rfl
  rw [run_bind, run_draw]
  simp only
  rcases (readPattern ⟨w.files, encode⟩ input).run.run w.drawn with ⟨read, n⟩
  cases read with
  | error e => rfl
  | ok d => rfl

/-! ## The status -/

/-- What is logged when something is reported, by the level of the log. -/
def Arguments.logged (a : Arguments) (r : Report) : List Report := if a.logsErrors then [r] else []

/-- The run is refused: because of its input, or with the pattern that it has read. -/
def Refused (a : Arguments) (sources : Sources) (drawn : Nat) (reason : String) : Prop :=
  let input := a.input.getD ""
  inputRefusal? sources.files input = some reason ∨
    inputRefusal? sources.files input = none ∧ ∃ d n, (readPattern sources input).run.run drawn = (.ok d, n) ∧
      refusal? a d = some reason ∧ ¬PackagingFails a input d ⟨sources.files, "", n⟩

/-- Something goes wrong in the run: in reading, packaging, extracting, compiling or writing. -/
def Fails (a : Arguments) (sources : Sources) (drawn : Nat) (e : Error) : Prop :=
  ∃ w, (steps sources.encode a (a.input.getD "")).run.run ⟨sources.files, "", drawn⟩ = (.error (.failed e), w)

/-- The reasons of a refusal are those for which the steps of the run end with one. -/
theorem refused_iff {sources : Sources} {drawn : Nat} :
    Refused a sources drawn reason ↔
      ∃ w, (steps sources.encode a (a.input.getD "")).run.run ⟨sources.files, "", drawn⟩ =
        (.error (.refused reason), w) := by
  rw [Refused, run_steps]
  cases inputRefusal? sources.files (a.input.getD "") with
  | some other =>
    constructor
    · rintro (hreason | ⟨hno, -⟩)
      · cases hreason
        exact ⟨_, rfl⟩
      · cases hno
    · rintro ⟨w, ⟨⟩⟩
      exact .inl rfl
  | none =>
    rcases (readPattern sources (a.input.getD "")).run.run drawn with ⟨r, n⟩
    cases r with
    | error e =>
      constructor
      · rintro (hreason | ⟨-, d, n, hread, -⟩)
        · cases hreason
        · cases hread
      · rintro ⟨w, ⟨⟩⟩
    | ok d =>
      dsimp only
      rw [finish_refused_iff]
      constructor
      · rintro (hreason | ⟨-, d, n, hread, hrefused⟩)
        · cases hreason
        · cases hread
          exact hrefused
      · exact fun h => .inr ⟨rfl, d, n, rfl, h⟩

/-- Steps that come to their end have read a pattern and have delivered what is asked for. -/
theorem delivered_of_steps {sources : Sources} {drawn : Nat}
    (h : (steps sources.encode a (a.input.getD "")).run.run ⟨sources.files, "", drawn⟩ = (.ok (), w)) :
    ∃ d n, (readPattern sources (a.input.getD "")).run.run drawn = (.ok d, n) ∧
      Delivered a (a.input.getD "") d n w := by
  obtain ⟨⟨e, he⟩, -⟩ | ⟨d, n, hread, hfinish⟩ := steps_cases h
  · cases he
  · exact ⟨d, n, hread, delivered_of_finish hfinish rfl⟩

section

variable {a : Arguments} {sources : Sources} {drawn : Nat} {w : World}

theorem run_of_ok
    (h : (steps sources.encode a (a.input.getD "")).run.run ⟨sources.files, "", drawn⟩ = (.ok (), w)) :
    run a sources drawn = ⟨0, [], w⟩ := by
  rw [run, h]

theorem run_of_refused
    (h : (steps sources.encode a (a.input.getD "")).run.run ⟨sources.files, "", drawn⟩ =
      (.error (.refused reason), w)) :
    run a sources drawn = ⟨-2, a.logged (.text reason), w⟩ := by
  rw [run, h]
  rfl

theorem run_of_failed {e : Error}
    (h : (steps sources.encode a (a.input.getD "")).run.run ⟨sources.files, "", drawn⟩ = (.error (.failed e), w)) :
    run a sources drawn = ⟨0, a.logged (.error e), w⟩ := by
  rw [run, h]
  rfl

end

/-- A file that holds no pattern. -/
def notAPattern : Sources := oneFile "p.opaf" "<x/>"

/-- The arguments of a run that packages it. -/
def packageArguments : Arguments := { Arguments.none with input := some "p.opaf", package := true }

end Stitchwork.Command
