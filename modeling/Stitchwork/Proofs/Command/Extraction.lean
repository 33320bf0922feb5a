/- # Stitchwork.Proofs.Command.Extraction — what extracting images writes, and where.

Every step of a run changes files at few places, and no step removes a directory.  Extraction goes image by image: the
file of an image is written at the place that its name leads to, seen from the output directory, and holds what the data
of the image say when they are read as Base64 once more.
-/
import Mathlib.Data.List.Find
import Stitchwork.Command.Run
import Stitchwork.Proofs.Files.Places
import Stitchwork.Proofs.Pattern.Reading
import Stitchwork.Proofs.Text.Base64
import Stitchwork.Proofs.Work

namespace Stitchwork.Command

open Stitchwork.Files Stitchwork.Files.Tree Stitchwork.Pattern Stitchwork.Project Stitchwork.Text

variable {r : Except Stop Unit} {w' w : World} {output : String} {place : List String} {d : Document} {t : Tree}
  {a : Arguments} {images : List Image}

/-! ## Steps -/

section

variable {α β : Type}

/-- A step behind another. -/
theorem run_bind (x : Run α) (f : α → Run β) (w : World) :
    (x >>= f).run.run w =
      match x.run.run w with
      | (.ok a, w') => (f a).run.run w'
      | (.error e, w') => (.error e, w') := by
  simp only [ExceptT.run_bind, StateT.run_bind]
  rcases x.run.run w with ⟨r, w'⟩
  cases r with
  | error e => rfl
  | ok a => rfl

/-- Two steps: the first ends the run, or the second goes on from there. -/
theorem run_bind_cases {x : Run α} {f : α → Run β} {r : Except Stop β} (h : (x >>= f).run.run w = (r, w')) :
    (∃ e, x.run.run w = (.error e, w') ∧ r = .error e) ∨
      ∃ a v, x.run.run w = (.ok a, v) ∧ (f a).run.run v = (r, w') := by
  rw [run_bind] at h
  rcases hx : x.run.run w with ⟨s, v⟩
  rw [hx] at h
  cases s with
  | error e =>
    cases h
    exact .inl ⟨e, rfl, rfl⟩
  | ok a => exact .inr ⟨a, v, rfl, h⟩

theorem run_get (w : World) : (getThe World : Run World).run.run w = (.ok w, w) := rfl

theorem run_attempt (r : Except Error α) (w : World) : (attempt r).run.run w = (r.mapError .failed, w) := rfl

theorem run_draw (x : StateM Nat α) (w : World) :
    (draw x).run.run w = (.ok (x.run w.drawn).1, { w with drawn := (x.run w.drawn).2 }) := rfl

end

/-- Writing a file, by where its path leads. -/
theorem run_writeFile (path : String) (c : Content) (w : World) :
    (writeFile path c).run.run w =
      match w.files.target path with
      | .ok place => (.ok (), { w with files := w.files.set place (.file c) })
      | .error f => (.error (.failed (.file f)), w) := by
  rw [writeFile, run_bind, run_get]
  simp only [run_bind, run_attempt, Tree.write]
  cases w.files.target path with
  | error f => rfl
  | ok place => rfl

theorem changesOnly_writeFile {path : String} {c : Content} (h : (writeFile path c).run.run w = (r, w')) :
    ChangesOnly (fun q => w.files.target path = .ok q) w.files w'.files := by
  rw [run_writeFile] at h
  split at h
  · next place hplace =>
    cases h
    exact changesOnly_set hplace c
  · cases h
    exact .refl _ _

theorem changesOnly_writeText {path text : String} (h : (writeText path text).run.run w = (r, w')) :
    ChangesOnly (fun q => w.files.target path = .ok q) w.files w'.files := by
  rw [writeText] at h
  split at h
  · rcases run_bind_cases h with ⟨e, hfirst, -⟩ | ⟨_, v, hfirst, hrest⟩
    · exact changesOnly_writeFile hfirst
    · cases hrest
      exact changesOnly_writeFile hfirst
  · exact changesOnly_writeFile h

theorem run_makeDirectory (path : String) (w : World) :
    (makeDirectory path).run.run w =
      (match (w.files.makeDirectories path).2 with
        | some f => .error (.failed (.file f))
        | none => .ok (), { w with files := (w.files.makeDirectories path).1 }) := by
  rw [makeDirectory, run_bind, run_get]
  simp only
  rcases w.files.makeDirectories path with ⟨files, fault⟩
  cases fault with
  | none => rfl
  | some f => rfl

/-! ## Extraction -/

/-- The path of the file of an image. -/
def imagePath (output : String) (i : Image) : String := output ++ "/" ++ i.name ++ ".webp"

/-- Extracting an image, by where its path leads and what its data say. -/
theorem run_extractImage (output : String) (i : Image) (w : World) :
    (extractImage output i).run.run w =
      match w.files.target (imagePath output i) with
      | .error f => (.error (.failed (.file f)), w)
      | .ok place =>
        match Base64.decodeBytes? i.data.toBytes with
        | some bs => (.ok (), { w with files := w.files.set place (.file (.bytes bs)) })
        | none => (.error (.failed .invalidData), { w with files := w.files.set place (.file (.bytes [])) }) := by
  show (writeFile (imagePath output i) (.bytes []) >>= fun _ => _ : Run Unit).run.run w = _
  rw [run_bind, run_writeFile]
  cases htarget : w.files.target (imagePath output i) with
  | error f => rfl
  | ok place =>
    have hagain : (w.files.set place (.file (.bytes []))).target (imagePath output i) = .ok place :=
      (sameDirectories_set _ (at?_of_target htarget) _).target.2 htarget
    cases Base64.decodeBytes? i.data.toBytes with
    | none => rfl
    | some bs =>
      show (writeFile (imagePath output i) (.bytes bs)).run.run _ = _
      rw [run_writeFile]
      simp only [hagain, set_set]

theorem changesOnly_extractImage {i : Image} (h : (extractImage output i).run.run w = (r, w')) :
    ChangesOnly (fun q => w.files.target (imagePath output i) = .ok q) w.files w'.files := by
  rw [run_extractImage] at h
  split at h
  · cases h
    exact .refl _ _
  · next place hplace =>
    split at h
    · cases h
      exact changesOnly_set hplace _
    · cases h
      exact changesOnly_set hplace _

/-- Images change the files at their places only, also when the extraction fails. -/
theorem changesOnly_extractEach (h : (extractEach output images).run.run w = (r, w')) :
    ChangesOnly (fun q => ∃ i ∈ images, w.files.target (imagePath output i) = .ok q) w.files w'.files := by
  induction images generalizing w with
  | nil =>
    cases h
    exact .refl _ _
  | cons i rest ih =>
    rw [extractEach] at h
    rcases run_bind_cases h with ⟨e, hfirst, -⟩ | ⟨_, v, hfirst, hrest⟩
    · exact (changesOnly_extractImage hfirst).mono fun q hq => ⟨i, by simp, hq⟩
    · have hone := changesOnly_extractImage hfirst
      refine (hone.mono fun q hq => ⟨i, by simp, hq⟩).trans ((ih hrest).mono ?_)
      rintro q ⟨j, hj, hq⟩
      exact ⟨j, by simp [hj], hone.target.1 hq⟩

/-- The last of the images whose file is at a place. -/
def lastAt? (t : Tree) (output : String) (images : List Image) (place : List String) : Option Image :=
  images.reverse.find? fun i => (t.target (imagePath output i)).toOption == some place

theorem toOption_beq_iff {path : String} :
    ((t.target path).toOption == some place) = true ↔ t.target path = .ok place := by
  cases t.target path with
  | error f => simp [Except.toOption]
  | ok p => simp [Except.toOption]

/-- Which image is the last one at a place depends on the directories only. -/
theorem lastAt?_congr {u : Tree} (h : SameDirectories t u) (output : String) (images : List Image)
    (place : List String) : lastAt? u output images place = lastAt? t output images place := by
  have htest : ∀ i, ((u.target (imagePath output i)).toOption == some place) =
      ((t.target (imagePath output i)).toOption == some place) := by
    intro i
    rw [Bool.eq_iff_iff, toOption_beq_iff, toOption_beq_iff, h.target]
  simp only [lastAt?, htest]

theorem lastAt?_cons (t : Tree) (output : String) (k : Image) (rest : List Image) (place : List String) :
    lastAt? t output (k :: rest) place = (lastAt? t output rest place).or (lastAt? t output [k] place) := by
  rw [lastAt?, List.reverse_cons, List.find?_append]
  rfl

theorem lastAt?_singleton {k : Image} (h : t.target (imagePath output k) = .ok place) :
    lastAt? t output [k] place = some k := by
  simp [lastAt?, toOption_beq_iff.2 h]

theorem lastAt?_eq_none (h : ∀ i ∈ images, t.target (imagePath output i) ≠ .ok place) :
    lastAt? t output images place = none := by
  rw [lastAt?, List.find?_eq_none]
  intro i hi
  rw [toOption_beq_iff]
  exact h i (List.mem_reverse.1 hi)

/-- Images that have all been extracted: the file at the place of each holds what the data of the last one there say. -/
theorem extractEach_eq_ok (h : (extractEach output images).run.run w = (.ok (), w')) :
    (∀ i ∈ images, ∃ place, w.files.target (imagePath output i) = .ok place) ∧
      ∀ i ∈ images, ∀ place, w.files.target (imagePath output i) = .ok place →
        ∃ j bs, lastAt? w.files output images place = some j ∧ Base64.decodeBytes? j.data.toBytes = some bs ∧
          w'.files.at? place = some (.file (.bytes bs)) := by
  induction images generalizing w with
  | nil => simp
  | cons k rest ih =>
    rw [extractEach] at h
    obtain ⟨e, -, herror⟩ | ⟨_, v, hfirst, hrest⟩ := run_bind_cases h
    · cases herror
    have hsame := (changesOnly_extractImage hfirst).toSameDirectories
    have hframe := changesOnly_extractEach hrest
    obtain ⟨hall, hlast⟩ := ih hrest
    rw [run_extractImage] at hfirst
    split at hfirst
    · cases hfirst
    next own hown =>
    split at hfirst
    · next bs hbs =>
      cases hfirst
      simp only [hsame.target] at hall hlast hframe
      refine ⟨List.forall_mem_cons.2 ⟨⟨own, hown⟩, hall⟩, ?_⟩
      intro i hi place hplace
      rw [lastAt?_cons]
      by_cases hlater : ∃ j ∈ rest, w.files.target (imagePath output j) = .ok place
      · -- a later image is written over this one
        obtain ⟨j, hj, hjplace⟩ := hlater
        obtain ⟨l, cs, hl, hcs, hat⟩ := hlast j hj place hjplace
        rw [lastAt?_congr hsame] at hl
        exact ⟨l, cs, by rw [hl, Option.some_or], hcs, hat⟩
      · have hk : w.files.target (imagePath output k) = .ok place := by
          rcases List.mem_cons.1 hi with rfl | hi
          · exact hplace
          · exact absurd ⟨i, hi, hplace⟩ hlater
        obtain rfl : own = place := Except.ok.inj (hown.symm.trans hk)
        have hnone : lastAt? w.files output rest own = none :=
          lastAt?_eq_none fun j hj hjplace => hlater ⟨j, hj, hjplace⟩
        refine ⟨k, bs, by rw [hnone, Option.none_or, lastAt?_singleton hk], hbs, ?_⟩
        rw [hframe.elsewhere own hlater, at?_set _ (at?_of_target hk), if_pos rfl]
    · cases hfirst

/-- The images of a package are extracted into a directory that is made first, or the run ends. -/
theorem extractStep_cases {output : Option String} (h : (extractStep output d).run.run w = (r, w')) :
    ((∃ e, r = .error e) ∧ ∀ q c, w'.files.at? q = some (.file c) ↔ w.files.at? q = some (.file c)) ∨
      given d.pkgVersion = true ∧ given output = true ∧ ∃ v : World,
        (∀ q c, v.files.at? q = some (.file c) ↔ w.files.at? q = some (.file c)) ∧
          (extractEach (output.getD "") d.images).run.run v = (r, w') := by
  rw [extractStep] at h
  split at h
  · cases h
    exact .inl ⟨⟨_, rfl⟩, fun _ _ => Iff.rfl⟩
  next hpackaged =>
  split at h
  · cases h
    exact .inl ⟨⟨_, rfl⟩, fun _ _ => Iff.rfl⟩
  next houtput =>
  obtain ⟨e, hmake, rfl⟩ | ⟨_, v, hmake, hrest⟩ := run_bind_cases h
  · rw [run_makeDirectory] at hmake
    obtain ⟨-, rfl⟩ := Prod.mk.inj hmake
    exact .inl ⟨⟨_, rfl⟩, at?_makeDirectories_file w.files _⟩
  · rw [run_makeDirectory] at hmake
    obtain ⟨-, rfl⟩ := Prod.mk.inj hmake
    refine .inr ⟨by simpa using hpackaged, by simpa using houtput, _, ?_, hrest⟩
    exact at?_makeDirectories_file w.files _

/-! ## Packaging and compiling -/

theorem pkgVersion_packageTree (d : Document) : d.packageTree.2.pkgVersion = d.pkgVersion := by
  rw [Document.packageTree]
  split
  · rfl
  · simp only
    split <;> rfl

/-- Packaging leaves what a pattern says about its packager. -/
theorem pkgVersion_package (d : Document) (n : Nat) : ((package false d).run n).1.2.pkgVersion = d.pkgVersion := by
  have hunique : ((d.withUniqueId).run n).1.pkgVersion = d.pkgVersion := by
    rw [Document.withUniqueId]
    split <;> rfl
  show (((d.withUniqueId).run n).1.withVersion.packageTree).2.pkgVersion = _
  rw [pkgVersion_packageTree, ← hunique]
  rfl

/-- Packaging writes one file beside the input, and leaves a pattern that is no package. -/
theorem packageStep_cases {input : String} {r : Except Stop Document} (h : (packageStep input d).run.run w = (r, w')) :
    (d.pkgVersion.isSome = true ∧ (∃ e, r = .error e) ∧ w'.files = w.files) ∨
      d.pkgVersion = none ∧ (∀ left, r = .ok left → left.pkgVersion = none) ∧
        ChangesOnly (fun q => ∃ v, w.files.target ((splitExtension input).1 ++ "_" ++ v ++ ".opafpkg") = .ok q)
          w.files w'.files := by
  rw [packageStep] at h
  split at h
  · next hsome =>
    cases h
    exact .inl ⟨hsome, ⟨_, rfl⟩, rfl⟩
  next hnone =>
  replace hnone : d.pkgVersion = none := by simpa using hnone
  refine .inr ⟨hnone, ?_⟩
  rw [run_bind, run_draw] at h
  simp only at h
  have hleft := pkgVersion_package d w.drawn
  rcases hpackage : (package false d).run w.drawn with ⟨⟨text, left⟩, n⟩
  rw [hpackage] at h hleft
  cases text with
  | error e =>
    cases h
    exact ⟨fun _ hok => (by cases hok), .refl _ _⟩
  | ok text =>
    rw [run_bind, run_attempt] at h
    obtain ⟨e, hfirst, rfl⟩ | ⟨_, v, hfirst, hrest⟩ := run_bind_cases h
    · exact ⟨fun _ hok => (by cases hok), (changesOnly_writeText hfirst).mono fun q hq => ⟨_, hq⟩⟩
    · cases hrest
      refine ⟨?_, (changesOnly_writeText hfirst).mono fun q hq => ⟨_, hq⟩⟩
      rintro _ ⟨⟩
      exact hleft.trans hnone

/-- Compiling into a directory that is there writes one file, whose name tells what it is. -/
theorem changesOnly_compileStep {name : String} (h : (compileStep a name d).run.run w = (r, w'))
    (houtput : w.files.has (a.output.getD "") = true) :
    ChangesOnly (fun q => ∃ stem, q.getLast? = some (stem ++ ".opafproj")) w.files w'.files := by
  rw [compileStep] at h
  split at h
  · cases h
    exact .refl _ _
  rw [run_bind, run_draw] at h
  simp only at h
  rcases hcompile : (compile .fresh ⟨readSettings (a.config.getD ""), readSettings (a.colors.getD "")⟩ name d).run
    w.drawn with ⟨compiled, n⟩
  rw [hcompile] at h
  cases htext : compiled.text with
  | error e =>
    rw [htext] at h
    cases h
    exact .refl _ _
  | ok text =>
    rw [htext, run_bind, run_attempt] at h
    simp only [Except.mapError] at h
    split at h
    · -- the directory is there, so the file is all that is made
      have hmake : w.files.makeDirectories (a.output.getD "") = (w.files, none) := by
        rw [makeDirectories, if_pos houtput]
      rw [run_bind, run_makeDirectory] at h
      simp only [hmake] at h
      refine (changesOnly_writeText h).mono fun q hq => ?_
      rw [projectFile] at hq
      exact ⟨_, by rw [getLast?_of_target hq, lastPart_append _ (by decide)]⟩
    · cases h
      exact .refl _ _

/-! ## Runs -/

/-- What a run does with the pattern that it has read. -/
def finish (a : Arguments) (input : String) (d : Document) : Run Unit := do
  let d ← if a.package then packageStep input d else pure d
  if a.extractImages then extractStep a.output d
  if given a.compile then compileStep a (a.compile.getD "") d

/-- A run ends before it has changed a file, or it has read a pattern and goes on with it. -/
theorem steps_cases {encode : Encoder} {input : String} (h : (steps encode a input).run.run w = (r, w')) :
    ((∃ e, r = .error e) ∧ w'.files = w.files) ∨
      ∃ d n, (readPattern ⟨w.files, encode⟩ input).run.run w.drawn = (.ok d, n) ∧
        (finish a input d).run.run { w with drawn := n } = (r, w') := by
  rw [steps, run_bind, run_get] at h
  simp only at h
  split at h
  · cases h
    exact .inl ⟨⟨_, rfl⟩, rfl⟩
  split at h
  · cases h
    exact .inl ⟨⟨_, rfl⟩, rfl⟩
  rw [run_bind, run_draw] at h
  simp only at h
  rcases hread : (readPattern ⟨w.files, encode⟩ input).run.run w.drawn with ⟨read, n⟩
  rw [hread] at h
  cases read with
  | error e =>
    cases h
    exact .inl ⟨⟨_, rfl⟩, rfl⟩
  | ok d => exact .inr ⟨d, n, rfl, h⟩

/-- What a run that extracts images does with its pattern.  If the pattern is to be packaged as well, the run ends when
it comes to the images: a package is not packaged, and nothing else has its images extracted. -/
theorem finish_cases {input : String} (hextract : a.extractImages = true) (h : (finish a input d).run.run w = (r, w')) :
    (a.package = true ∧ (∃ e, r = .error e) ∧
        ChangesOnly (fun q => d.pkgVersion = none ∧
          ∃ v, w.files.target ((splitExtension input).1 ++ "_" ++ v ++ ".opafpkg") = .ok q) w.files w'.files) ∨
      a.package = false ∧ (extractStep a.output d >>= fun _ =>
        if given a.compile then compileStep a (a.compile.getD "") d else pure ()).run.run w = (r, w') := by
  rw [finish, hextract] at h
  cases hpackage : a.package with
  | false =>
    rw [hpackage] at h
    exact .inr ⟨rfl, h⟩
  | true =>
    rw [hpackage] at h
    refine .inl ⟨rfl, ?_⟩
    obtain ⟨e, hfirst, rfl⟩ | ⟨left, v, hfirst, hrest⟩ := run_bind_cases h
    · obtain ⟨-, -, hfiles⟩ | ⟨hnone, -, hchanges⟩ := packageStep_cases hfirst
      · rw [hfiles]
        exact ⟨⟨e, rfl⟩, .refl _ _⟩
      · exact ⟨⟨e, rfl⟩, hchanges.mono fun q hq => ⟨hnone, hq⟩⟩
    · obtain ⟨-, ⟨e, he⟩, -⟩ | ⟨hnone, hleft, hchanges⟩ := packageStep_cases hfirst
      · cases he
      -- what has just been packaged is no package itself
      have hrefused : (extractStep a.output left).run.run v =
          (.error (.refused "Input file is not an OPAF package file."), v) := by
        rw [extractStep, hleft left rfl]
        rfl
      obtain ⟨e, hlast, rfl⟩ | ⟨_, u, hlast, -⟩ := run_bind_cases (x := extractStep a.output left) hrest
      · rw [hrefused] at hlast
        cases hlast
        exact ⟨⟨_, rfl⟩, hchanges.mono fun q hq => ⟨hnone, hq⟩⟩
      · rw [hrefused] at hlast
        cases hlast

theorem world_run (a : Arguments) (sources : Sources) (drawn : Nat) :
    (run a sources drawn).world =
      ((steps sources.encode a (a.input.getD "")).run.run ⟨sources.files, "", drawn⟩).2 := by
  rw [run]
  split
  · next hrun => rw [hrun]
  · next hrun => rw [hrun]
  · next hrun => rw [hrun]

/-- A run that could log an error and has logged none has come to its end. -/
theorem run_eq_ok {sources : Sources} {drawn : Nat} (hlogs : a.logsErrors = true)
    (hlog : (run a sources drawn).log = []) :
    (steps sources.encode a (a.input.getD "")).run.run ⟨sources.files, "", drawn⟩ =
      (.ok (), (run a sources drawn).world) := by
  rw [run] at hlog ⊢
  simp only [hlogs, if_true] at hlog ⊢
  rcases hsteps : (steps sources.encode a (a.input.getD "")).run.run ⟨sources.files, "", drawn⟩ with ⟨r, w⟩
  rw [hsteps] at hlog
  match r with
  | .ok () => rfl
  | .error (.refused reason) => cases hlog
  | .error (.failed e) => cases hlog

/-! ### A package with an image whose name leads up -/

/-- The text of the package. -/
def climbingText : String :=
  "<pattern xmlns:opaf=\"u\" pkg_version=\"1\"><opaf:define_image name=\"../x\" data=\"/wD+\"/></pattern>"

/-- The package in a file. -/
def climbing : Sources := oneFile "p.opaf" climbingText

/-- The arguments of a run that extracts its image. -/
def climbingArguments : Arguments :=
  { Arguments.none with input := some "p.opaf", output := some "o", extractImages := true }

/-- The image. -/
def climbingImage : Image := ⟨"../x", .bytes [255, 0, 254]⟩

theorem run_climbing : (run climbingArguments climbing 0).log = [] ∧
    (run climbingArguments climbing 0).world.files =
      ⟨[], [(["p.opaf"], .file (.text climbingText)), (["o"], .directory), (["x.webp"], .file (.bytes []))]⟩ := by
  decide +kernel

theorem images_climbing {n : Nat} (h : (readPattern climbing "p.opaf").run.run 0 = (.ok d, n)) :
    d.images = [climbingImage] := by
  have himages : ((readPattern climbing "p.opaf").run.run 0).1.toOption.map (·.images) = some [climbingImage] := by
    decide +kernel
  rw [h] at himages
  exact Option.some.inj himages

/-! ### What the files of images hold -/

theorem imagePath_eq (output : String) (i : Image) : imagePath output i = output ++ "/" ++ (i.name ++ ".webp") := by
  rw [imagePath, String.append_assoc]

/-- The file of an image is not that of a project. -/
theorem getLast?_ne_of_target {i : Image} (h : t.target (imagePath output i) = .ok place) :
    ¬ ∃ stem, place.getLast? = some (stem ++ ".opafproj") := by
  rintro ⟨stem, hstem⟩
  rw [getLast?_of_target h, imagePath, lastPart_append _ (by decide), Option.some.injEq] at hstem
  have hlast := congrArg (fun s : String => s.toList.getLast?) hstem
  have himage : (".webp" : String).toList.getLast? = some 'p' := by decide
  have hproject : (".opafproj" : String).toList.getLast? = some 'j' := by decide
  simp only [String.toList_append, List.getLast?_append, himage, hproject, Option.some_or, Option.some.injEq] at hlast
  exact absurd hlast (by decide)

/-- Whenever images have been extracted without an error, there is a file for each of them, and it holds what the bytes
of the image, or of the last one with this file, say when they are read as Base64.  These are not the bytes of the image
unless it has none. -/
theorem extracted_images_decoded_again (a : Arguments) (sources : Sources) (drawn : Nat)
    (hextract : a.extractImages = true) (hlogs : a.logsErrors = true) (hlog : (run a sources drawn).log = []) :
    let final := (run a sources drawn).world.files
    ∃ d n, (readPattern sources (a.input.getD "")).run.run drawn = (.ok d, n) ∧
      ∀ i ∈ d.images, ∃ place j bs,
        final.file? (imagePath (a.output.getD "") i) = some place ∧
        (d.images.reverse.find? fun k => final.file? (imagePath (a.output.getD "") k) == some place) = some j ∧
        final.at? place = some (.file (.bytes bs)) ∧
        Base64.decodeBytes? j.data.toBytes = some bs ∧ (bs = j.data.toBytes ↔ j.data.toBytes = []) := by
  intro final
  obtain ⟨⟨e, he⟩, -⟩ | ⟨d, n, hread, hfinish⟩ := steps_cases (run_eq_ok hlogs hlog)
  · cases he
  refine ⟨d, n, hread, ?_⟩
  obtain ⟨-, ⟨e, he⟩, -⟩ | ⟨-, hsteps⟩ := finish_cases hextract hfinish
  · cases he
  obtain ⟨e, -, he⟩ | ⟨_, u, hextraction, hcompile⟩ := run_bind_cases hsteps
  · cases he
  obtain ⟨⟨e, he⟩, -⟩ | ⟨-, houtput, v, -, heach⟩ := extractStep_cases hextraction
  · cases he
  -- nothing that comes behind the extraction touches the file of an image
  obtain ⟨hall, hlast⟩ := extractEach_eq_ok heach
  have hsame := (changesOnly_extractEach heach).toSameDirectories
  intro i hi
  obtain ⟨own, hown⟩ := hall i hi
  have hchanges : ChangesOnly (fun q => ∃ stem, q.getLast? = some (stem ++ ".opafproj")) u.files final := by
    split at hcompile
    · refine changesOnly_compileStep hcompile ?_
      have htarget := hsame.target.2 hown
      rw [imagePath_eq] at htarget
      obtain ⟨dir, hdir, -⟩ := target_behind (by simpa [given] using houtput) htarget
      rw [has, hdir]
      rfl
    · cases hcompile
      exact .refl _ _
  have hfile : ∀ k ∈ d.images, ∀ place, v.files.target (imagePath (a.output.getD "") k) = .ok place →
      final.file? (imagePath (a.output.getD "") k) = some place := by
    intro k hk place hplace
    obtain ⟨j, bs, -, -, hat⟩ := hlast k hk place hplace
    rw [← hchanges.elsewhere place (getLast?_ne_of_target hplace)] at hat
    exact file?_of_target (hchanges.target.2 (hsame.target.2 hplace)) hat
  obtain ⟨j, bs, hj, hbs, hat⟩ := hlast i hi own hown
  refine ⟨own, j, bs, hfile i hi own hown, ?_, ?_, hbs, Base64.decodeBytes?_eq_self_iff hbs⟩
  · rw [← hj, lastAt?]
    refine List.find?_congr fun k hk => ?_
    obtain ⟨place, hplace⟩ := hall k (List.mem_reverse.1 hk)
    rw [hfile k (List.mem_reverse.1 hk) place hplace, hplace]
    rfl
  · rw [hchanges.elsewhere own (getLast?_ne_of_target hown)]
    exact hat

/-- The image that is extracted has three bytes, and its file has none. -/
theorem climbing_decoded_again :
    let final := (run climbingArguments climbing 0).world.files
    ∃ place bs, final.file? "o/../x.webp" = some place ∧ final.at? place = some (.file (.bytes bs)) ∧
      bs ≠ climbingImage.data.toBytes := by
  obtain ⟨d, n, hread, hall⟩ :=
    extracted_images_decoded_again climbingArguments climbing 0 rfl (by decide) run_climbing.1
  rw [images_climbing hread] at hall
  obtain ⟨place, j, bs, hfile, hj, hat, -, hself⟩ := hall climbingImage (by simp)
  obtain rfl : j = climbingImage := by simpa using List.mem_of_find?_eq_some hj
  refine ⟨place, bs, hfile, hat, ?_⟩
  rw [ne_eq, hself]
  decide

/-! ### Where the files of images are -/

/-- The way of the file of an image from the output directory. -/
def imageCourse (i : Image) : Course := course (cut (i.name ++ ".webp") "/")

/-- The place of the file of an image: the name of the image may lead up, out of the output directory. -/
theorem imageCourse_of_target (houtput : output.isEmpty = false) {i : Image}
    (h : t.target (imagePath output i) = .ok place) :
    ∃ dir base below, t.find output = .ok (dir, .directory) ∧ dir = base ++ below ∧
      climb (imageCourse i).ups dir.reverse = some base.reverse ∧ place = base ++ (imageCourse i).downs.reverse ∧
      (dir <+: place ↔ below <+: (imageCourse i).downs.reverse) := by
  rw [imagePath_eq] at h
  obtain ⟨dir, hdir, hnormal⟩ := target_behind houtput h
  obtain ⟨base, below, hrest⟩ := normalFrom_reverse_course (top_not_mem_cut _) hnormal
  exact ⟨dir, base, below, hdir, hrest⟩

/-- The files that a run changes when it extracts images and does not compile are files of images.  Each is where the
name of its image leads from the output directory: as many directories up as the name goes up all in all, and then down.
So it is inside the output directory if the name does not go up, and otherwise exactly if the name goes down again by
the directories that it has left.  The one other file is the package of a pattern that was none. -/
theorem extraction_places (a : Arguments) (sources : Sources) (drawn : Nat) (hextract : a.extractImages = true)
    (hcompile : given a.compile = false) (place : List String) (c : Content)
    (hthere : (run a sources drawn).world.files.at? place = some (.file c))
    (hnew : sources.files.at? place ≠ some (.file c)) :
    let final := (run a sources drawn).world.files
    ∃ d n, (readPattern sources (a.input.getD "")).run.run drawn = (.ok d, n) ∧
      ((a.package = true ∧ d.pkgVersion = none ∧
          ∃ v, final.target ((splitExtension (a.input.getD "")).1 ++ "_" ++ v ++ ".opafpkg") = .ok place) ∨
        a.package = false ∧ ∃ i ∈ d.images, ∃ dir base below, final.find (a.output.getD "") = .ok (dir, .directory) ∧
          dir = base ++ below ∧ climb (imageCourse i).ups dir.reverse = some base.reverse ∧
          place = base ++ (imageCourse i).downs.reverse ∧ ((imageCourse i).ups = 0 → dir <+: place) ∧
          (dir <+: place ↔ below <+: (imageCourse i).downs.reverse)) := by
  intro final
  have hworld := world_run a sources drawn
  rcases hsteps : (steps sources.encode a (a.input.getD "")).run.run ⟨sources.files, "", drawn⟩ with ⟨r, w'⟩
  rw [hsteps] at hworld
  have hfinal : w'.files = final := congrArg World.files hworld.symm
  change final.at? place = _ at hthere
  rw [← hfinal] at hthere ⊢
  obtain ⟨-, hfiles⟩ | ⟨d, n, hread, hfinish⟩ := steps_cases hsteps
  · rw [hfiles] at hthere
    exact absurd hthere hnew
  refine ⟨d, n, hread, ?_⟩
  obtain ⟨hpackage, -, hchanges⟩ | ⟨hpackage, hrest⟩ := finish_cases hextract hfinish
  · obtain ⟨hnone, v, hv⟩ := hchanges.place_of_new hthere hnew
    exact .inl ⟨hpackage, hnone, v, hchanges.target.2 hv⟩
  refine .inr ⟨hpackage, ?_⟩
  obtain ⟨s, hextraction⟩ : ∃ s, (extractStep a.output d).run.run ⟨sources.files, "", n⟩ = (s, w') := by
    rw [hcompile] at hrest
    obtain ⟨e, hfirst, -⟩ | ⟨_, v, hfirst, hlast⟩ := run_bind_cases hrest
    · exact ⟨_, hfirst⟩
    · cases hlast
      exact ⟨_, hfirst⟩
  obtain ⟨-, hfiles⟩ | ⟨-, houtput, v, hfiles, heach⟩ := extractStep_cases hextraction
  · rw [hfiles] at hthere
    exact absurd hthere hnew
  have hchanges := changesOnly_extractEach heach
  obtain ⟨i, hi, htarget⟩ := hchanges.place_of_new hthere (mt (hfiles place c).1 hnew)
  obtain ⟨dir, base, below, hdir, hbelow, hclimb, hplace, hinside⟩ :=
    imageCourse_of_target (by simpa [given] using houtput) (hchanges.target.2 htarget)
  refine ⟨i, hi, dir, base, below, hdir, hbelow, hclimb, hplace, ?_, hinside⟩
  intro hups
  rw [hups, climb, Option.some.injEq, List.reverse_inj] at hclimb
  rw [hplace, hclimb]
  exact List.prefix_append _ _

/-- The file of the image is beside the output directory. -/
theorem climbing_leaves_output :
    let final := (run climbingArguments climbing 0).world.files
    ∃ dir, final.find "o" = .ok (dir, .directory) ∧ final.at? ["x.webp"] = some (.file (.bytes [])) ∧
      ¬ dir <+: ["x.webp"] := by
  have hfile : (run climbingArguments climbing 0).world.files.at? ["x.webp"] = some (.file (.bytes [])) := by
    rw [run_climbing.2]
    rfl
  obtain ⟨d, n, hread, ⟨hpackage, -⟩ | ⟨-, i, hi, dir, base, below, hdir, hbelow, -, hplace, -, hinside⟩⟩ :=
    extraction_places climbingArguments climbing 0 rfl rfl ["x.webp"] (.bytes []) hfile (by decide)
  · cases hpackage
  rw [images_climbing hread, List.mem_singleton] at hi
  subst hi
  refine ⟨dir, hdir, hfile, ?_⟩
  -- the name goes up once, and it does not go down again by the directory that it has left
  have hdowns : (imageCourse climbingImage).downs.reverse = ["x.webp"] := by decide
  obtain rfl : base = [] := by simpa [hdowns] using hplace
  obtain rfl : dir = ["o"] := by
    have hfound : (run climbingArguments climbing 0).world.files.find "o" = .ok (["o"], .directory) := by
      rw [run_climbing.2]
      rfl
    exact congrArg Prod.fst (Except.ok.inj (hdir.symm.trans hfound))
  rw [List.nil_append] at hbelow
  rw [hinside, hdowns, ← hbelow]
  decide

end Stitchwork.Command
