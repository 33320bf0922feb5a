/- # Stitchwork.Proofs.Pattern.Includes — the files that a pattern includes.

Files are read in post-order: what a file includes comes in front of its own definitions, once for every element
that includes it, and the main file comes last.  Each file is read as if the document were empty, but for names
that are taken, and what it gives goes behind what is there.  Where no file includes itself, through others or
not, the bound on the depth of inclusion is never met.
-/
import Stitchwork.Proofs.Pattern.Census
import Stitchwork.Proofs.Reach

namespace Stitchwork.Files

/-! ## Places of files -/

/-- A path that is followed to the end leads to what stands there. -/
theorem Tree.at?_of_walk {t : Tree} {here parts place : List String} {e : Entry}
    (h : t.walk here parts = .ok (place, e)) : t.at? place = some e := by
  induction parts generalizing here with
  | nil =>
    rw [walk] at h
    split at h
    · next hat =>
      cases h
      exact hat
    · cases h
  | cons part rest ih =>
    rw [walk] at h
    split at h
    · cases h
    · cases h
    · split at h
      · exact ih h
      · split at h
        · split at h
          · exact ih h
          · cases h
        · split at h
          · cases h
          · exact ih h

theorem mem_keys_of_lookup {α : Type} {p : List String} {v : α} {es : List (List String × α)}
    (h : es.lookup p = some v) : p ∈ es.map (·.1) := by
  induction es with
  | nil => cases h
  | cons e es ih =>
    obtain ⟨q, w⟩ := e
    rw [List.lookup_cons] at h
    split at h
    · next heq =>
      rw [beq_iff_eq.1 heq]
      exact List.mem_cons_self
    · exact List.mem_cons_of_mem _ (ih h)

/-- An address leads to a file of the tree. -/
theorem Tree.mem_of_uri? {t : Tree} {dir uri : String} {place : List String} (h : t.uri? dir uri = some place) :
    place ∈ t.entries.map (·.1) := by
  obtain ⟨path, -, h⟩ := Option.bind_eq_some_iff.1 h
  rw [file?] at h
  split at h
  · next content hfind =>
    cases h
    rw [find] at hfind
    split at hfind
    · cases hfind
    · have hat := at?_of_walk hfind
      rw [at?] at hat
      split at hat
      · cases hat
      · exact mem_keys_of_lookup hat
  · cases h

end Stitchwork.Files

namespace Stitchwork.Pattern

open Stitchwork.Markup
open Relation (TransGen ReflTransGen)

variable {place : List String} {root : Element}

/-! ## Which files include which -/

/-- The directory of the file at a place. -/
def dirOf (place : List String) : String := Files.ofParts place.dropLast

/-- The root of the tree in the file at a place. -/
def rootAt? (files : Files.Tree) (place : List String) : Option Element :=
  match files.read place with
  | .ok content => (Markup.read content.toText).toOption
  | .error _ => none

/-- The elements of a tree that include files, in document order. -/
def includesIn (root : Element) : List Element := descendants includeTag root.children

/-- The places of the files that the file at a place includes. -/
def includedPlaces (files : Files.Tree) (place : List String) : List (List String) :=
  match rootAt? files place with
  | some root => (includesIn root).filterMap fun e => files.uri? (dirOf place) (e.attr "uri")
  | none => []

/-- The file at the first place includes the file at the second. -/
def Includes (files : Files.Tree) (p q : List String) : Prop := q ∈ includedPlaces files p

/-- No file that the file at a place includes, through others or not, includes itself, and neither does this file. -/
def AcyclicFrom (files : Files.Tree) (place : List String) : Prop :=
  ∀ q, ReflTransGen (Includes files) place q → ¬TransGen (Includes files) q q

section

variable {files : Files.Tree} {p q : List String}

theorem includes_of_mem {e : Element} (hroot : rootAt? files p = some root) (he : e ∈ includesIn root)
    (hq : files.uri? (dirOf p) (e.attr "uri") = some q) : Includes files p q := by
  rw [Includes, includedPlaces, hroot]
  exact List.mem_filterMap.2 ⟨e, he, hq⟩

theorem AcyclicFrom.step (h : AcyclicFrom files p) (hpq : Includes files p q) : AcyclicFrom files q :=
  fun r hr => h r (.head hpq hr)

/-- A measure that goes down with every inclusion, at the places that can be reached, shows that there is no
cycle. -/
theorem acyclicFrom_of_measure (ps : List (List String)) (measure : List String → Nat)
    (h : ∀ p ∈ ps, ∀ q ∈ includedPlaces files p, q ∈ ps ∧ measure q < measure p) (hp : p ∈ ps) :
    AcyclicFrom files p := by
  have hdown : ∀ {a b}, a ∈ ps → TransGen (Includes files) a b → b ∈ ps ∧ measure b < measure a := by
    intro a b ha hab
    induction hab with
    | single hb => exact h a ha _ hb
    | tail _ hbc ih =>
      obtain ⟨hmem, hless⟩ := h _ ih.1 _ hbc
      exact ⟨hmem, Nat.lt_trans hless ih.2⟩
  intro q hq hcycle
  have hmem : q ∈ ps := by
    rcases Relation.reflTransGen_iff_eq_or_transGen.1 hq with rfl | hq
    · exact hp
    · exact (hdown hp hq).1
  exact Nat.lt_irrefl _ (hdown hmem hcycle).2

/-- The number of files that a file includes, through others or not. -/
noncomputable def includeRank (files : Files.Tree) (place : List String) : Nat :=
  reach (Includes files) (files.entries.map (·.1)) place

theorem includeRank_lt (h : AcyclicFrom files p) {e : Element} (hroot : rootAt? files p = some root)
    (he : e ∈ includesIn root) (hq : files.uri? (dirOf p) (e.attr "uri") = some q) :
    includeRank files q < includeRank files p := by
  have hincludes := includes_of_mem hroot he hq
  exact reach_lt_reach hincludes (Files.Tree.mem_of_uri? hq) (h q (.single hincludes))

theorem includeRank_le (place : List String) : includeRank files place ≤ files.entries.length := by
  rw [← List.length_map (·.1)]
  exact reach_le_length place

end

/-! ## Reading one file that is included -/

section

variable {sources : Sources}

/-- Reads the file that an element includes; `below` reads what that file includes. -/
def readInclude (sources : Sources) (below : String → Document → Element → Work Document) (dir : String)
    (d : Document) (e : Element) : Work Document := do
  let uri := e.attr "uri"
  match sources.files.uri? dir uri with
  | none => throw (.includeNotFound uri)
  | some place => do
    let content ← liftExcept ((sources.files.read place).mapError .file)
    let root ← liftExcept ((Markup.read content.toText).mapError .markup)
    let dir := Files.ofParts place.dropLast
    let d ← below dir d root
    readKinds sources dir includedKinds d root

theorem readIncludes_succ (fuel : Nat) (dir : String) (d : Document) (root : Element) :
    readIncludes sources (fuel + 1) dir d root =
      (includesIn root).foldlM (readInclude sources (readIncludes sources fuel) dir) d := rfl

/-- **One include.**  Either the file cannot be used, or it is read behind what it includes. -/
theorem readInclude_cases (sources : Sources) (dir : String) (e : Element) :
    (∃ report, isForeign report = false ∧
      ∀ below d, readInclude sources below dir d e = throw report) ∨
    ∃ place root, sources.files.uri? dir (e.attr "uri") = some place ∧ rootAt? sources.files place = some root ∧
      ∀ below d, readInclude sources below dir d e = (do
        let d ← below (dirOf place) d root
        readKinds sources (dirOf place) includedKinds d root) := by
  cases hplace : sources.files.uri? dir (e.attr "uri") with
  | none => exact .inl ⟨_, rfl, fun below d => by rw [readInclude, hplace]⟩
  | some place =>
    cases hcontent : sources.files.read place with
    | error f =>
      refine .inl ⟨.file f, rfl, fun below d => ?_⟩
      simp only [readInclude, hplace, hcontent]
      rfl
    | ok content =>
      cases hroot : Markup.read content.toText with
      | error f =>
        refine .inl ⟨.markup f, rfl, fun below d => ?_⟩
        simp only [readInclude, hplace, hcontent]
        show (liftExcept ((Markup.read content.toText).mapError Error.markup) >>= _) = _
        rw [hroot]
        rfl
      | ok root =>
        refine .inr ⟨place, root, rfl, ?_, fun below d => ?_⟩
        · simp [rootAt?, hcontent, hroot, Except.toOption]
        · simp only [readInclude, hplace, hcontent]
          show (liftExcept ((Markup.read content.toText).mapError Error.markup) >>= _) = _
          rw [hroot]
          rfl

/-! ## Enough depth -/

theorem foldlM_congr {α β : Type} {f g : β → α → Work β} {xs : List α} (h : ∀ b, ∀ x ∈ xs, f b x = g b x) (b : β) :
    xs.foldlM f b = xs.foldlM g b := by
  induction xs generalizing b with
  | nil => rfl
  | cons x xs ih =>
    rw [List.foldlM_cons, List.foldlM_cons, h b x (by simp)]
    exact congrArg _ (funext fun b' => ih (fun c y hy => h c y (List.mem_cons_of_mem _ hy)) b')

/-- Any two depths that are greater than the number of files that a file includes, through others or not, do the
same. -/
theorem readIncludes_eq (h : AcyclicFrom sources.files place) (hroot : rootAt? sources.files place = some root)
    {fuel fuel' : Nat} (hfuel : includeRank sources.files place < fuel)
    (hfuel' : includeRank sources.files place < fuel') (d : Document) :
    readIncludes sources fuel (dirOf place) d root = readIncludes sources fuel' (dirOf place) d root := by
  induction fuel generalizing fuel' place root d with
  | zero => omega
  | succ fuel ih =>
    cases fuel' with
    | zero => omega
    | succ fuel' =>
      rw [readIncludes_succ, readIncludes_succ]
      refine foldlM_congr (fun d e he => ?_) d
      rcases readInclude_cases sources (dirOf place) e with ⟨report, -, hreport⟩ | ⟨q, root', hq, hroot', hread⟩
      · rw [hreport, hreport]
      · have hless := includeRank_lt h hroot he hq
        have hsame : readIncludes sources fuel (dirOf q) d root' = readIncludes sources fuel' (dirOf q) d root' :=
          ih (h.step (includes_of_mem hroot he hq)) hroot' (by omega) (by omega) d
        rw [hread, hread, hsame]

section

variable {bad : Error}

theorem spares_uniqueIdOf (e : Element) : Spares bad (uniqueIdOf e) := by
  rw [uniqueIdOf]
  split
  · exact spares_pure _
  · exact spares_freshIdentifier

variable (hbad : isForeign bad)

include hbad

theorem avoids_imageOfElement (dir : String) (e : Element) : Avoids bad (Image.ofElement sources dir e) := by
  have hsize : Avoids bad (Image.sizeOf e) := by
    rw [Image.sizeOf]
    split
    · exact avoids_ok _
    · split
      · exact avoids_ok _
      · exact avoids_error hbad rfl
  have hdata : Avoids bad (Image.decodeData (e.attr "data")) := by
    rw [Image.decodeData]
    split
    · exact avoids_error hbad rfl
    · split
      · exact avoids_ok _
      · exact avoids_error hbad rfl
  refine avoids_bind hsize fun size => ?_
  split
  · split
    · exact avoids_error hbad rfl
    · refine avoids_bind (avoids_mapError hbad fun _ => rfl) fun content => ?_
      exact avoids_bind (avoids_mapError hbad fun _ => rfl) fun _ => avoids_ok _
  · exact avoids_bind hdata fun _ => avoids_ok _

theorem spares_ofElement (dir : String) (kind : Kind) (e : Element) :
    Spares bad (Definition.ofElement sources dir kind e) := by
  cases kind with
  | action => exact spares_pure _
  | config => exact spares_pure _
  | value =>
    refine spares_bind ?_ fun _ => spares_pure _
    exact spares_bind (spares_uniqueIdOf e) fun _ => spares_pure _
  | color =>
    refine spares_bind (spares_liftExcept ?_) fun _ => spares_pure _
    refine avoids_bind ?_ fun _ => avoids_ok _
    rw [normalColor]
    split
    · exact avoids_error hbad rfl
    · exact avoids_ok _
  | image => exact spares_bind (spares_liftExcept (avoids_imageOfElement hbad dir e)) fun _ => spares_pure _
  | block =>
    refine spares_bind (spares_liftExcept ?_) fun _ => spares_pure _
    exact avoids_bind (avoids_prune hbad _ _) fun _ => avoids_ok _
  | chart =>
    refine spares_bind (spares_liftExcept ?_) fun _ => spares_pure _
    rw [Chart.ofElement]
    split
    · exact avoids_error hbad rfl
    · exact avoids_bind (avoids_prune hbad _ _) fun _ => avoids_ok _
  | component =>
    refine spares_bind ?_ fun _ => spares_pure _
    refine spares_bind (spares_uniqueIdOf e) fun _ => ?_
    exact spares_bind (spares_liftExcept (avoids_prune hbad _ _)) fun _ => spares_pure _
  | metadata =>
    refine spares_bind (spares_liftExcept ?_) fun _ => spares_pure _
    exact avoids_bind (avoids_pruneMetadata hbad _) fun _ => avoids_ok _

theorem avoids_add (d : Document) (x : Definition) : Avoids bad (d.add x) := by
  have hunique : ∀ {α : Type} (kind : Kind) (nameOf : α → String) (xs : List α) (x : α),
      Avoids bad (addUnique kind nameOf xs x) := by
    intro α kind nameOf xs x
    rw [addUnique]
    split
    · exact avoids_error hbad rfl
    · exact avoids_ok _
  cases x with
  | metadata m =>
    rw [Document.add_metadata]
    exact avoids_ok _
  | component c => exact avoids_ok _
  | config c => exact avoids_ok _
  | value v => exact avoids_ok _
  | _ => exact avoids_bind (hunique _ _ _ _) fun _ => avoids_ok _

/-- Reading definitions makes no report but its own. -/
theorem spares_readKinds (dir : String) (kinds : List Kind) (d : Document) (root : Element) :
    Spares bad (readKinds sources dir kinds d root) := by
  refine spares_bind (spares_foldlM _ (fun r kind _ => spares_foldlM _ (fun r place _ => ?_) r) _)
    fun _ => spares_pure _
  rw [readAt]
  split
  · exact spares_pure _
  · refine spares_bind (spares_ofElement hbad dir kind _) fun _ => ?_
    exact spares_bind (spares_liftExcept (avoids_add hbad _ _)) fun _ => spares_pure _

end

/-- The bound on the depth is not met where it is greater than the number of files that a file includes. -/
theorem spares_readIncludes (h : AcyclicFrom sources.files place) (hroot : rootAt? sources.files place = some root)
    {fuel : Nat} (hfuel : includeRank sources.files place < fuel) (d : Document) :
    Spares .tooDeep (readIncludes sources fuel (dirOf place) d root) := by
  induction fuel generalizing place root d with
  | zero => omega
  | succ fuel ih =>
    rw [readIncludes_succ]
    refine spares_foldlM _ (fun d e he => ?_) d
    rcases readInclude_cases sources (dirOf place) e with ⟨report, hforeign, hreport⟩ | ⟨q, root', hq, hroot', hread⟩
    · rw [hreport]
      exact spares_liftExcept (avoids_error rfl hforeign)
    · have hless := includeRank_lt h hroot he hq
      rw [hread]
      refine spares_bind (ih (h.step (includes_of_mem hroot he hq)) hroot' (by omega) d) fun d' => ?_
      exact spares_readKinds rfl _ _ d' root'

/-! ## Documents behind each other -/

/-- A document with the definitions of another one behind its own. -/
def Document.append (d own : Document) : Document :=
  { d with
    configs := d.configs ++ own.configs
    values := d.values ++ own.values
    colors := d.colors ++ own.colors
    images := d.images ++ own.images
    charts := d.charts ++ own.charts
    blocks := d.blocks ++ own.blocks
    actions := d.actions ++ own.actions
    components := d.components ++ own.components
    metadata := match own.metadata with
      | none => d.metadata
      | some m => some ⟨d.metadataTexts ++ m.elements⟩ }

theorem Document.append_empty (d : Document) : d.append .empty = d := by
  simp [append, empty]

theorem Document.listed_append (d own : Document) {k : Kind} (hk : k ≠ .metadata) :
    (d.append own).listed k = d.listed k ++ own.listed k := by
  cases k with
  | metadata => exact absurd rfl hk
  | _ => exact List.map_append

theorem Document.metadataTexts_append (d own : Document) :
    (d.append own).metadataTexts = d.metadataTexts ++ own.metadataTexts := by
  cases hm : own.metadata with
  | none => simp [metadataTexts, append, hm]
  | some m => simp [metadataTexts, append, hm]

theorem addUnique_append {α : Type} {kind : Kind} {nameOf : α → String} {xs ys zs : List α} {x : α}
    (h : addUnique kind nameOf (xs ++ ys) x = .ok zs) :
    addUnique kind nameOf ys x = .ok (ys ++ [x]) ∧ zs = xs ++ (ys ++ [x]) := by
  obtain ⟨rfl, hnew⟩ := addUnique_eq_ok h
  refine ⟨?_, List.append_assoc ..⟩
  rw [addUnique, if_neg]
  intro hany
  obtain ⟨y, hy, heq⟩ := List.any_eq_true.1 hany
  exact hnew y (List.mem_append_right _ hy) (beq_iff_eq.1 heq)

/-- What can be added behind two documents can be added to the second. -/
theorem Document.add_append {d own d' : Document} {x : Definition} (h : (d.append own).add x = .ok d') :
    ∃ own', own.add x = .ok own' ∧ d' = d.append own' := by
  cases x with
  | metadata m =>
    rw [add_metadata] at h
    cases h
    refine ⟨_, add_metadata own m, ?_⟩
    cases hm : own.metadata with
    | none => simp [append, metadataTexts, hm]
    | some old => simp [append, hm]
  | component c => cases h; exact ⟨_, rfl, by simp [append]⟩
  | config c => cases h; exact ⟨_, rfl, by simp [append]⟩
  | value v => cases h; exact ⟨_, rfl, by simp [append]⟩
  | _ =>
    obtain ⟨zs, hzs, hd⟩ := bind_eq_ok.1 h
    obtain ⟨hys, rfl⟩ := addUnique_append hzs
    cases hd
    exact ⟨_, by rw [add, hys]; rfl, rfl⟩

/-- Reading a file goes the same way whether there is a document in front or not. -/
theorem mirrors_readKinds (dir : String) (kinds : List Kind) (d own : Document) (root : Element) :
    Mirrors (fun d' own' => d' = d.append own') (readKinds sources dir kinds (d.append own) root)
      (readKinds sources dir kinds own root) := by
  let R : Reading → Reading → Prop := fun r s => r.document = d.append s.document ∧ r.root = s.root
  have hat : ∀ kind r s, R r s → ∀ place, Mirrors R (readAt sources dir kind r place) (readAt sources dir kind s place) := by
    rintro kind r s ⟨hdocument, hroot⟩ place
    rw [readAt, readAt, hroot]
    split
    · exact mirrors_pure ⟨hdocument, hroot⟩
    · refine mirrors_bind (mirrors_self _) ?_
      rintro p _ rfl
      refine mirrors_bind (R := fun d' own' => d' = d.append own') (mirrors_liftExcept fun d' hd' => ?_) ?_
      · rw [hdocument] at hd'
        exact Document.add_append hd'
      · rintro d' own' rfl
        exact mirrors_pure ⟨rfl, rfl⟩
  have hkind : ∀ kind r s, R r s → Mirrors R (readKind sources dir r kind) (readKind sources dir s kind) := by
    intro kind r s hrs
    rw [readKind, readKind, hrs.2]
    exact mirrors_foldlM _ (fun r s place _ h => hat kind r s h place) hrs
  refine mirrors_bind (mirrors_foldlM (R := R) kinds (fun r s kind _ h => hkind kind r s h) ⟨rfl, rfl⟩) ?_
  rintro r s ⟨hdocument, -⟩
  exact mirrors_pure hdocument

/-! ## Post-order -/

/-- A file, by its place and the root of its tree. -/
structure SourceFile where
  place : List String
  root : Element

/-- The files that elements of a file in the directory include, in the order in which they are read: each behind
those that it includes, once for every element. -/
inductive PostOrder (files : Files.Tree) : String → List Element → List SourceFile → Prop
  | nil (dir : String) : PostOrder files dir [] []
  | cons {dir : String} {e : Element} {es : List Element} {place : List String} {root : Element}
      {below rest : List SourceFile} :
      files.uri? dir (e.attr "uri") = some place → rootAt? files place = some root →
      PostOrder files (dirOf place) (includesIn root) below → PostOrder files dir es rest →
      PostOrder files dir (e :: es) (below ++ ⟨place, root⟩ :: rest)

/-- What a file gives by itself, up to identifiers: the definitions of each kind, in document order. -/
structure FileGives (sources : Sources) (kinds : List Kind) (f : SourceFile) (own : Document) : Prop where
  alone : ∃ n n', (readKinds sources (dirOf f.place) kinds .empty f.root).run.run n = (.ok own, n')
  order : ∀ k ∈ kinds, ∃ xs, List.Forall₂ (fun e x => Defines sources (dirOf f.place) k (outline isKept e) x)
    (descendants k.tag f.root.children) xs ∧ Gained .empty own k xs
  others : ∀ k, k ∉ kinds → Gained .empty own k []

/-- What reading a file adds to a document. -/
theorem ensures_readKinds_own {kinds : List Kind} (hkinds : kinds.Nodup) (place : List String) (d : Document)
    (root : Element) :
    Ensures (readKinds sources (dirOf place) kinds d root) fun d' =>
      ∃ own, FileGives sources kinds ⟨place, root⟩ own ∧ d' = d.append own := by
  intro n d' n' hrun
  rw [← d.append_empty] at hrun
  obtain ⟨own, hown, happend⟩ := mirrors_readKinds (dirOf place) kinds d .empty root n d' n' hrun
  have hgained := ensures_readKinds_gained hkinds .empty root n own n' hown
  refine ⟨own, ⟨⟨n, n', hown⟩, fun k hk => ?_, fun k hk => ?_⟩, happend⟩
  · obtain ⟨xs, hxs, hgained⟩ := hgained k
    refine ⟨xs, ?_, hgained⟩
    rw [allDefiners, if_pos hk, definers, outline, descendants_outlineNodes] at hxs
    exact List.forall₂_map_left_iff.1 hxs
  · obtain ⟨xs, hxs, hgained⟩ := hgained k
    rw [allDefiners, if_neg hk] at hxs
    cases hxs
    exact hgained

theorem nodup_includedKinds : includedKinds.Nodup := by decide

/-- **Includes.**  The files that a file includes are read in post-order, and what they give goes behind what is
there. -/
theorem ensures_readIncludes_postOrder (fuel : Nat) (dir : String) (d : Document) (root : Element) :
    Ensures (readIncludes sources fuel dir d root) fun d' => ∃ visits owns,
      PostOrder sources.files dir (includesIn root) visits ∧
      List.Forall₂ (FileGives sources includedKinds) visits owns ∧ d' = owns.foldl Document.append d := by
  induction fuel generalizing dir d root with
  | zero => exact ensures_throw _
  | succ fuel ih =>
    rw [readIncludes_succ]
    induction includesIn root generalizing d with
    | nil => exact ensures_pure ⟨[], [], .nil dir, .nil, rfl⟩
    | cons e es ihes =>
      rw [List.foldlM_cons]
      rcases readInclude_cases sources dir e with ⟨report, -, hreport⟩ | ⟨place, root', hplace, hroot', hread⟩
      · rw [hreport]
        exact ensures_bind (P := fun _ => False) (ensures_throw report) fun _ h => h.elim
      · rw [hread, bind_assoc]
        refine ensures_bind (ih (dirOf place) d root') ?_
        rintro _ ⟨below, belowOwns, hbelow, hbelowOwns, rfl⟩
        refine ensures_bind (ensures_readKinds_own nodup_includedKinds place _ root') ?_
        rintro _ ⟨own, hown, rfl⟩
        refine (ihes _).mono ?_
        rintro _ ⟨rest, restOwns, hrest, hrestOwns, rfl⟩
        refine ⟨below ++ ⟨place, root'⟩ :: rest, belowOwns ++ own :: restOwns, .cons hplace hroot' hbelow hrest, ?_, ?_⟩
        · exact List.rel_append hbelowOwns (.cons hown hrestOwns)
        · rw [List.foldl_append, List.foldl_cons]

/-! ## The whole pattern -/

theorem Document.listed_foldl_append (owns : List Document) (d : Document) {k : Kind} (hk : k ≠ .metadata) :
    (owns.foldl append d).listed k = d.listed k ++ owns.flatMap (·.listed k) := by
  induction owns generalizing d with
  | nil => exact (List.append_nil _).symm
  | cons own owns ih => rw [List.foldl_cons, ih, listed_append d own hk, List.flatMap_cons, List.append_assoc]

theorem Document.metadataTexts_foldl_append (owns : List Document) (d : Document) :
    (owns.foldl append d).metadataTexts = d.metadataTexts ++ owns.flatMap metadataTexts := by
  induction owns generalizing d with
  | nil => exact (List.append_nil _).symm
  | cons own owns ih => rw [List.foldl_cons, ih, metadataTexts_append, List.flatMap_cons, List.append_assoc]

/-- A document without its definitions. -/
def Document.bare (d : Document) : Document :=
  { Document.empty with
    name := d.name
    uniqueId := d.uniqueId
    version := d.version
    specVersion := d.specVersion
    pkgVersion := d.pkgVersion
    namespaceUri := d.namespaceUri }

theorem Document.bare_foldl_append (owns : List Document) (d : Document) : (owns.foldl append d).bare = d.bare := by
  induction owns generalizing d with
  | nil => rfl
  | cons own owns ih =>
    rw [List.foldl_cons, ih]
    rfl

theorem readMain_eq_ok {files : Files.Tree} (h : readMain files place = .ok root) :
    rootAt? files place = some root := by
  obtain ⟨content, hcontent, h⟩ := bind_eq_ok.1 h
  simp [rootAt?, mapError_eq_ok.1 hcontent, mapError_eq_ok.1 h, Except.toOption]

theorem readRoot_bare {head : Document} (h : readRoot root = .ok head) : head = head.bare := by
  obtain ⟨version, -, h⟩ := bind_eq_ok.1 h
  obtain ⟨specVersion, -, h⟩ := bind_eq_ok.1 h
  cases h
  rfl

theorem avoids_readMain {bad : Error} (hbad : isForeign bad) (files : Files.Tree) (place : List String) :
    Avoids bad (readMain files place) :=
  avoids_bind (avoids_mapError hbad fun _ => rfl) fun _ => avoids_mapError hbad fun _ => rfl

theorem avoids_readRoot {bad : Error} (hbad : isForeign bad) (root : Element) : Avoids bad (readRoot root) := by
  have hversion : ∀ s, Avoids bad (readVersion s) := by
    intro s
    rw [readVersion]
    split
    · split
      · exact avoids_error hbad rfl
      · exact avoids_ok _
    · exact avoids_error hbad rfl
  exact avoids_bind (avoids_optionMapM hversion _) fun _ => avoids_bind (avoids_optionMapM hversion _) fun _ =>
    avoids_ok _

theorem avoids_checkRoot {bad : Error} (hbad : isForeign bad) (root : Element) : Avoids bad (checkRoot root) := by
  rw [checkRoot]
  split
  · exact avoids_error hbad rfl
  · split
    · exact avoids_error hbad rfl
    · exact avoids_ok _

/-- Without a cycle, reading a pattern is not stopped by the bound on the depth. -/
theorem spares_readPattern {main : String} (hplace : Files.normal? sources.files.home main = some place)
    (hacyclic : AcyclicFrom sources.files place) : Spares .tooDeep (readPattern sources main) := by
  rw [readPattern, hplace]
  refine spares_liftExcept_bind (avoids_readMain rfl sources.files place) fun root hroot => ?_
  refine spares_bind (spares_liftExcept (avoids_checkRoot rfl root)) fun _ => ?_
  refine spares_bind (spares_liftExcept (avoids_readRoot rfl root)) fun d => ?_
  refine spares_bind ?_ fun d => spares_readKinds rfl _ _ d root
  exact spares_readIncludes hacyclic (readMain_eq_ok hroot) (Nat.lt_succ_of_le (includeRank_le place)) d

/-- What the root of the main file says, with what the files give behind it: the included files in post-order and
the main file last. -/
theorem ensures_readPattern_postOrder {main : String} (hplace : Files.normal? sources.files.home main = some place) :
    Ensures (readPattern sources main) fun d => ∃ root head visits owns last,
      rootAt? sources.files place = some root ∧ readRoot root = .ok head ∧
      PostOrder sources.files (dirOf place) (includesIn root) visits ∧
      List.Forall₂ (FileGives sources includedKinds) visits owns ∧
      FileGives sources (includedKinds ++ [.component]) ⟨place, root⟩ last ∧
      d = (owns ++ [last]).foldl Document.append head := by
  rw [readPattern, hplace]
  refine ensures_bind (ensures_liftExcept fun _ => readMain_eq_ok) fun root hroot => ?_
  refine ensures_bind (P := fun _ => True) (fun _ _ _ _ => trivial) fun _ _ => ?_
  refine ensures_bind (ensures_liftExcept fun _ => id) fun head hhead => ?_
  refine ensures_bind (ensures_readIncludes_postOrder _ (dirOf place) head root) ?_
  rintro _ ⟨visits, owns, hvisits, howns, rfl⟩
  refine (ensures_readKinds_own (by decide) place _ root).mono ?_
  rintro _ ⟨last, hlast, rfl⟩
  refine ⟨root, head, visits, owns, last, hroot, hhead, hvisits, howns, hlast, ?_⟩
  rw [List.foldl_append, List.foldl_cons, List.foldl_nil]

/-- Files that are included give no components. -/
theorem components_eq_nil_of_gives {visits : List SourceFile} {owns : List Document}
    (h : List.Forall₂ (FileGives sources includedKinds) visits owns) : owns.flatMap (·.listed .component) = [] := by
  induction h with
  | nil => rfl
  | cons hown _ ih =>
    have hnone : _ = [] := hown.others .component (by decide)
    rw [List.flatMap_cons, ih, List.append_nil, hnone]

/-- **Includes are flattened.**  If no file that the main file includes, through others or not, includes itself,
then reading the pattern ends: it is not stopped by the bound on the depth, which could as well be greater.  If it
succeeds, the definitions of each kind are those of the files in post-order, each in document order, with the main
file last.  Components, and what the root of a pattern says, come from the main file only. -/
theorem includes_flattened {sources : Sources} {main : String} {place : List String}
    (hplace : Files.normal? sources.files.home main = some place) (hacyclic : AcyclicFrom sources.files place) :
    (∀ n, ((readPattern sources main).run.run n).1 ≠ .error .tooDeep) ∧
    (∀ root, rootAt? sources.files place = some root → ∀ fuel, sources.files.entries.length < fuel → ∀ d,
      readIncludes sources fuel (dirOf place) d root =
        readIncludes sources (sources.files.entries.length + 1) (dirOf place) d root) ∧
    ∀ n d n', (readPattern sources main).run.run n = (.ok d, n') →
      ∃ root head visits owns last, rootAt? sources.files place = some root ∧ readRoot root = .ok head ∧
        PostOrder sources.files (dirOf place) (includesIn root) visits ∧
        List.Forall₂ (FileGives sources includedKinds) visits owns ∧
        FileGives sources (includedKinds ++ [.component]) ⟨place, root⟩ last ∧
        (∀ k ∈ includedKinds, k ≠ .metadata → d.listed k = (owns ++ [last]).flatMap (·.listed k)) ∧
        d.metadataTexts = (owns ++ [last]).flatMap Document.metadataTexts ∧
        d.components = last.components ∧ d.bare = head := by
  refine ⟨spares_readPattern hplace hacyclic, ?_, ?_⟩
  · intro root hroot fuel hfuel d
    have hrank : includeRank sources.files place ≤ sources.files.entries.length := includeRank_le place
    exact readIncludes_eq hacyclic hroot (by omega) (by omega) d
  · intro n d n' hrun
    obtain ⟨root, head, visits, owns, last, hroot, hhead, hvisits, howns, hlast, rfl⟩ :=
      ensures_readPattern_postOrder hplace n d n' hrun
    have hnone : ∀ k, head.listed k = [] := fun k =>
      List.eq_nil_iff_forall_not_mem.2 fun x => not_mem_listed_of_readRoot hhead k x
    have hlisted : ∀ k, k ≠ .metadata →
        ((owns ++ [last]).foldl Document.append head).listed k = (owns ++ [last]).flatMap (·.listed k) := by
      intro k hk
      rw [Document.listed_foldl_append _ head hk, hnone k, List.nil_append]
    refine ⟨root, head, visits, owns, last, hroot, hhead, hvisits, howns, hlast, fun k _ => hlisted k, ?_, ?_, ?_⟩
    · rw [Document.metadataTexts_foldl_append, readRoot_bare hhead]
      rfl
    · have hcomponents := hlisted .component nofun
      rw [List.flatMap_append, components_eq_nil_of_gives howns, List.nil_append, List.flatMap_singleton] at hcomponents
      exact List.map_injective_iff.2 (fun _ _ => Definition.component.inj) hcomponents
    · rw [Document.bare_foldl_append, ← readRoot_bare hhead]

end

/-- Two included files, in a directory, that include one and the same third file there. -/
def diamond : Sources where
  files := ⟨[], [
    (["p"], .file (.text ("<pattern xmlns:opaf=\"u\"><opaf:include uri=\"file://d/a\"/>" ++
      "<opaf:include uri=\"file://d/b\"/><opaf:define_config name=\"top\"/></pattern>"))),
    (["c"], .file (.text "<x xmlns:opaf=\"u\"><opaf:define_config name=\"unused\"/></x>")),
    (["d"], .directory),
    (["d", "a"], .file (.text ("<x xmlns:opaf=\"u\"><opaf:include uri=\"file://c\"/>" ++
      "<opaf:define_config name=\"left\"/></x>"))),
    (["d", "b"], .file (.text ("<x xmlns:opaf=\"u\"><opaf:include uri=\"file://c\"/>" ++
      "<opaf:define_config name=\"right\"/></x>"))),
    (["d", "c"], .file (.text "<x xmlns:opaf=\"u\"><opaf:define_config name=\"size\"/></x>"))]⟩
  encode := fun _ _ _ _ => []

/-- The third file is read once for each of the two, from their directory, and not the one of that name beside the
main file. -/
theorem diamond_flattened : ∃ d n', (readPattern diamond "p").run.run 0 = (.ok d, n') ∧
    d.configs.map (·.name) = ["size", "left", "size", "right", "top"] ∧
    ∃ root visits owns last, PostOrder diamond.files (dirOf ["p"]) (includesIn root) visits ∧
      List.Forall₂ (FileGives diamond includedKinds) visits owns ∧
      FileGives diamond (includedKinds ++ [.component]) ⟨["p"], root⟩ last ∧
      d.listed .config = (owns ++ [last]).flatMap (·.listed .config) := by
  have hacyclic : AcyclicFrom diamond.files ["p"] :=
    acyclicFrom_of_measure [["p"], ["d", "a"], ["d", "b"], ["d", "c"]]
      (fun p => if p = ["p"] then 2 else if p = ["d", "c"] then 0 else 1) (by decide +kernel) (by simp)
  have hcheck : (match (readPattern diamond "p").run.run 0 with
      | (.ok d, _) => d.configs.map (·.name) == ["size", "left", "size", "right", "top"]
      | (.error _, _) => false) = true := by decide +kernel
  rcases hr : (readPattern diamond "p").run.run 0 with ⟨r, n'⟩
  rw [hr] at hcheck
  cases r with
  | error e => cases hcheck
  | ok d =>
    obtain ⟨root, head, visits, owns, last, -, -, hvisits, howns, hlast, hlisted, -⟩ :=
      (includes_flattened (by decide +kernel) hacyclic).2.2 0 d n' hr
    refine ⟨d, n', rfl, beq_iff_eq.1 hcheck, root, visits, owns, last, hvisits, howns, hlast, ?_⟩
    exact hlisted .config (by decide) nofun

end Stitchwork.Pattern
