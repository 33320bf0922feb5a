/- # Stitchwork.Proofs.Pattern.Reading — what holds of every document that is read.

Reading goes through the trees of several files and changes them as it goes.  Two properties carry the
induction: one of elements, which the trees of files have and which reading a definition keeps, and one of
definitions, which reading a definition gives.  What is proved of single definitions then holds of all
definitions of a document.
-/
import Stitchwork.Pattern.Source
import Stitchwork.Proofs.Markup.Plain
import Stitchwork.Proofs.Work

namespace Stitchwork.Pattern

open Stitchwork.Markup

/-! ## Trees -/

/-- A property that an element shares with the elements inside it, and that it keeps when one of them is
replaced by another with the property. -/
structure Hereditary (T : Element → Prop) : Prop where
  child : ∀ {e c}, T e → c ∈ e.elements → T c
  replace : ∀ {e c} (i : Nat), T e → T c →
    T { e with children := replaceElement c.toNode i e.children }

namespace Hereditary

variable {T : Element → Prop}

theorem elementAt (hT : Hereditary T) {place : List Nat} {root e : Element} (hroot : T root)
    (h : elementAt? place root = some e) : T e := by
  induction place generalizing root with
  | nil =>
    cases h
    exact hroot
  | cons i place ih =>
    obtain ⟨c, hc, hrest⟩ := Option.bind_eq_some_iff.1 h
    exact ih (hT.child hroot (List.mem_of_getElem? hc)) hrest

theorem replaceAt (hT : Hereditary T) {new : Element} (hnew : T new) (place : List Nat)
    {root : Element} (hroot : T root) : T (replaceAt new place root) := by
  induction place generalizing root with
  | nil => exact hnew
  | cons i place ih =>
    rw [Pattern.replaceAt]
    split
    · next c hc => exact hT.replace i hroot (ih (hT.child hroot (List.mem_of_getElem? hc)))
    · exact hroot

end Hereditary

/-! ## The definitions of a document -/

/-- The kind of a definition. -/
def Definition.kind : Definition → Kind
  | .action _ => .action
  | .block _ => .block
  | .chart _ => .chart
  | .color _ => .color
  | .component _ => .component
  | .config _ => .config
  | .image _ => .image
  | .metadata _ => .metadata
  | .value _ => .value

/-- The definitions of a kind, in the order of the document. -/
def Document.listed (d : Document) : Kind → List Definition
  | .action => d.actions.map .action
  | .block => d.blocks.map .block
  | .chart => d.charts.map .chart
  | .color => d.colors.map .color
  | .component => d.components.map .component
  | .config => d.configs.map .config
  | .image => d.images.map .image
  | .metadata => d.metadata.toList.map .metadata
  | .value => d.values.map .value

/-- Every definition of the document has the property. -/
def Document.All (P : Definition → Prop) (d : Document) : Prop := ∀ k, ∀ x ∈ d.listed k, P x

/-- A definition whose name must be unique goes behind the others. -/
theorem addUnique_eq_ok {α : Type} {kind : Kind} {nameOf : α → String} {xs ys : List α} {x : α}
    (h : addUnique kind nameOf xs x = .ok ys) :
    ys = xs ++ [x] ∧ ∀ y ∈ xs, nameOf y ≠ nameOf x := by
  rw [addUnique] at h
  split at h
  · cases h
  · next hany =>
    cases h
    refine ⟨rfl, fun y hy heq => hany ?_⟩
    exact List.any_eq_true.2 ⟨y, hy, by simpa using heq⟩

/-- A definition other than metadata goes behind those of its kind, and nothing else changes. -/
theorem Document.listed_add {d d' : Document} {x : Definition} (h : d.add x = .ok d')
    (hx : x.kind ≠ .metadata) (k : Kind) :
    d'.listed k = d.listed k ++ if k = x.kind then [x] else [] := by
  cases x with
  | metadata m => exact absurd rfl hx
  | component c => cases h; cases k <;> simp [listed, Definition.kind]
  | config c => cases h; cases k <;> simp [listed, Definition.kind]
  | value v => cases h; cases k <;> simp [listed, Definition.kind]
  | _ =>
    obtain ⟨ys, hys, hd⟩ := bind_eq_ok.1 h
    obtain ⟨rfl, -⟩ := addUnique_eq_ok hys
    cases hd
    cases k <;> simp [listed, Definition.kind]

/-- Metadata goes behind the metadata that is there. -/
theorem Document.add_metadata (d : Document) (m : Metadata) :
    d.add (.metadata m) =
      .ok { d with metadata := some ⟨(d.metadata.map Metadata.elements).getD [] ++ m.elements⟩ } := by
  rw [add]
  cases d.metadata with
  | none => rfl
  | some old => rfl

theorem Document.listed_withMetadata (d : Document) (m : Option Metadata) {k : Kind}
    (hk : k ≠ .metadata) : { d with metadata := m }.listed k = d.listed k := by
  cases k with
  | metadata => exact absurd rfl hk
  | _ => rfl

theorem Document.All.add {P : Definition → Prop} {d d' : Document} {x : Definition} (hd : d.All P)
    (hx : P x)
    (hmetadata : ∀ a b : Metadata, P (.metadata a) → P (.metadata b) →
      P (.metadata ⟨a.elements ++ b.elements⟩))
    (h : d.add x = .ok d') : d'.All P := by
  intro k y hy
  by_cases hkind : x.kind = .metadata
  · cases x with
    | metadata m =>
      rw [add_metadata] at h
      cases h
      by_cases hk : k = .metadata
      · subst hk
        rw [List.mem_singleton.1 hy]
        cases hm : d.metadata with
        | none => exact hx
        | some old => exact hmetadata old m (hd .metadata _ (by simp [listed, hm])) hx
      · rw [listed_withMetadata d _ hk] at hy
        exact hd k y hy
    | _ => cases hkind
  · rw [listed_add h hkind, List.mem_append] at hy
    rcases hy with hy | hy
    · exact hd k y hy
    · split at hy
      · rw [List.mem_singleton.1 hy]
        exact hx
      · cases hy

/-! ## Reading -/

/-- Files of which there is only one, with the given name and text. -/
def oneFile (name text : String) : Sources :=
  ⟨⟨[], [([name], .file (.text text))]⟩, fun _ _ _ _ => []⟩

/-- Reads the pattern in the only file there is, byte by byte where that can be done. -/
def readOneFile (text : String) : Work Document := do
  let root ← liftExcept ((readPlain text).mapError fun f => .source (.markup f))
  liftExcept (checkRoot root)
  let d ← liftExcept (readRoot root)
  let d ← readIncludes (oneFile "p" text) 2 (Files.ofParts []) d root
  readKinds (oneFile "p" text) (Files.ofParts []) (includedKinds ++ [.component]) d root

theorem readPattern_oneFile (text : String) : readPattern (oneFile "p" text) "p" = readOneFile text := by
  rw [readOneFile, readPlain_eq_read]
  rfl

section

variable {T : Element → Prop} {I : Document → Prop} {sources : Sources}

/-- One step: what reading a definition gives, the document keeps. -/
theorem ensures_readAt (hT : Hereditary T)
    (hdef : ∀ dir kind e, T e → Ensures (Definition.ofElement sources dir kind e) fun p =>
      T p.2 ∧ ∀ d d', I d → d.add p.1 = .ok d' → I d')
    (dir : String) (kind : Kind) (r : Reading) (hr : I r.document ∧ T r.root) (place : List Nat) :
    Ensures (readAt sources dir kind r place) fun r => I r.document ∧ T r.root := by
  rw [readAt]
  split
  · exact ensures_pure hr
  · next e he =>
    refine ensures_bind (hdef dir kind e (hT.elementAt hr.2 he)) fun p hp => ?_
    refine ensures_bind (ensures_liftExcept (hp.2 r.document · hr.1)) fun d hd => ?_
    exact ensures_pure ⟨hd, hT.replaceAt hp.1 place hr.2⟩

theorem ensures_readKinds (hT : Hereditary T)
    (hdef : ∀ dir kind e, T e → Ensures (Definition.ofElement sources dir kind e) fun p =>
      T p.2 ∧ ∀ d d', I d → d.add p.1 = .ok d' → I d')
    (dir : String) (kinds : List Kind) {d : Document} (hd : I d) {root : Element} (hroot : T root) :
    Ensures (readKinds sources dir kinds d root) I := by
  have hkind : ∀ r : Reading, ∀ k ∈ kinds, I r.document ∧ T r.root →
      Ensures (readKind sources dir r k) fun r => I r.document ∧ T r.root :=
    fun r k _ hr => ensures_foldlM _ (fun r place _ hr => ensures_readAt hT hdef dir k r hr place) hr
  refine ensures_bind (ensures_foldlM kinds hkind (b := ⟨d, root⟩) ⟨hd, hroot⟩) fun r hr => ?_
  exact ensures_pure hr.1

theorem ensures_readIncludes
    (hfile : ∀ s root dir d, Markup.read s = .ok root → I d →
      Ensures (readKinds sources dir includedKinds d root) I)
    (fuel : Nat) (dir : String) {d : Document} (hd : I d) (root : Element) :
    Ensures (readIncludes sources fuel dir d root) I := by
  induction fuel generalizing dir d root with
  | zero => exact ensures_throw _
  | succ fuel ih =>
    refine ensures_foldlM _ (fun d e _ hd => ?_) hd
    dsimp only
    split
    · exact ensures_throw _
    · refine ensures_bind (P := fun _ => True) (fun _ _ _ _ => trivial) fun content _ => ?_
      refine ensures_bind (P := fun root => Markup.read content.toText = .ok root)
        (ensures_liftExcept fun e he => mapError_eq_ok.1 he) fun root hroot => ?_
      refine ensures_bind (ih _ hd root) fun d hd => ?_
      exact hfile _ root _ d hroot hd

/-- What holds of the document that the root of a pattern gives, and is kept when the definitions of a file
are read, holds of every document that is read. -/
theorem ensures_readPattern
    (hroot : ∀ s root d, Markup.read s = .ok root → readRoot root = .ok d → I d)
    (hfile : ∀ s root dir d, Markup.read s = .ok root → I d →
      Ensures (readKinds sources dir includedKinds d root) I)
    (hmain : ∀ s root dir d, Markup.read s = .ok root → I d →
      Ensures (readKinds sources dir (includedKinds ++ [.component]) d root) I)
    (main : String) : Ensures (readPattern sources main) I := by
  rw [readPattern]
  split
  · exact ensures_throw _
  · next place hplace =>
    have hread : ∀ root, readMain sources.files place = .ok root → ∃ s, Markup.read s = .ok root := by
      intro root h
      obtain ⟨content, -, h⟩ := bind_eq_ok.1 h
      exact ⟨_, mapError_eq_ok.1 h⟩
    refine ensures_bind (ensures_liftExcept hread) fun root ⟨s, hs⟩ => ?_
    refine ensures_bind (P := fun _ => True) (fun _ _ _ _ => trivial) fun _ _ => ?_
    refine ensures_bind (ensures_liftExcept (hroot s root · hs)) fun d hd => ?_
    refine ensures_bind (ensures_readIncludes hfile _ _ hd root) fun d hd => ?_
    exact hmain s root _ d hs hd

theorem not_mem_listed_of_readRoot {root : Element} {d : Document} (h : readRoot root = .ok d) (k : Kind)
    (x : Definition) : x ∉ d.listed k := by
  obtain ⟨version, -, h⟩ := bind_eq_ok.1 h
  obtain ⟨specVersion, -, h⟩ := bind_eq_ok.1 h
  cases h
  cases k <;> exact List.not_mem_nil

/-- What reading a definition gives holds of all definitions of a document that is read. -/
theorem ensures_readPattern_all {P : Definition → Prop} (hT : Hereditary T)
    (hread : ∀ s e, Markup.read s = .ok e → T e)
    (hmetadata : ∀ a b : Metadata, P (.metadata a) → P (.metadata b) →
      P (.metadata ⟨a.elements ++ b.elements⟩))
    (hdef : ∀ dir kind e, T e → Ensures (Definition.ofElement sources dir kind e) fun p =>
      T p.2 ∧ P p.1)
    (main : String) : Ensures (readPattern sources main) (Document.All P) := by
  have hkinds : ∀ s root dir kinds d, Markup.read s = .ok root → d.All P →
      Ensures (readKinds sources dir kinds d root) (Document.All P) := by
    intro s root dir kinds d hs hd
    refine ensures_readKinds hT (fun dir kind e he => ?_) dir kinds hd (hread s root hs)
    exact (hdef dir kind e he).mono fun p hp => ⟨hp.1, fun d d' hd hadd => hd.add hp.2 hmetadata hadd⟩
  refine ensures_readPattern (fun s root d _ hroot => ?_) (fun s root dir d => hkinds s root dir _ d)
    (fun s root dir d => hkinds s root dir _ d) main
  exact fun k x hx => absurd hx (not_mem_listed_of_readRoot hroot k x)

end

end Stitchwork.Pattern
