/- # Stitchwork.Proofs.Pattern.Pruning — checking a tree, taken apart.

Checking a tree removes what is not an element and looks at the names of elements, both on one walk through it.  Here
the walk is taken apart: the names are looked at in document order, the first that offends is reported, and if none
does, what is left are the elements.  Metadata is checked in the same way, only that the walk does not go into elements
that hold prose.
-/
import Mathlib.Logic.Basic
import Stitchwork.Pattern.Grammar
import Stitchwork.Proofs.Markup.Below
import Stitchwork.Proofs.Work

namespace Stitchwork.Pattern

open Stitchwork.Markup

variable {offence : String → Option Error} {allowed : List String}

/-! ## Nodes that have been pruned -/

mutual

/-- The node is an element, and so is all that is below it, down to the elements that hold prose. -/
def Pruned (prose : String → Bool) : Node → Prop
  | .element name _ children => prose name ∨ AllPruned prose children
  | _ => False

/-- All of the nodes are pruned. -/
def AllPruned (prose : String → Bool) : List Node → Prop
  | [] => True
  | n :: ns => Pruned prose n ∧ AllPruned prose ns

end

theorem allPruned_iff {prose : String → Bool} {ns : List Node} : AllPruned prose ns ↔ ∀ n ∈ ns, Pruned prose n := by
  induction ns with
  | nil => exact iff_of_true trivial nofun
  | cons n ns ih => rw [AllPruned, ih, List.forall_mem_cons]

/-- No element holds prose. -/
def noProse (_ : String) : Bool := false

/-- Does an element of metadata with the given name hold prose? -/
def isProse (name : String) : Bool := proseElements.contains (localName name)

/-- Elements without anything else are pruned. -/
theorem allPruned_elementsOnly (prose : String → Bool) (ns : List Node) : AllPruned prose (elementsOnly prose ns) := by
  cases ns with
  | nil => trivial
  | cons n ns =>
    have hrest := allPruned_elementsOnly prose ns
    cases n with
    | element name attrs children =>
      have hchildren := allPruned_elementsOnly prose children
      refine ⟨?_, hrest⟩
      rw [Pruned]
      split
      · next hprose => exact .inl hprose
      · exact .inr hchildren
    | _ => exact hrest

/-- Nothing is taken from nodes that are pruned. -/
theorem elementsOnly_of_allPruned {prose : String → Bool} (ns : List Node) (h : AllPruned prose ns) :
    elementsOnly prose ns = ns := by
  cases ns with
  | nil => rfl
  | cons n ns =>
    rw [elementsOnly, elementsOnly_of_allPruned ns h.2]
    cases n with
    | element name attrs children =>
      rw [elementsOnlyOf]
      split
      · rfl
      · next hprose => rw [elementsOnly_of_allPruned children (h.1.resolve_left hprose)]; rfl
    | _ => cases h.1

/-! ## Names that offend -/

/-- The name is that of an element of patterns. -/
def IsPatternName (name : String) : Prop := prefixOf name = some patternPrefix ∧ localName name ∈ patternElements

instance (name : String) : Decidable (IsPatternName name) := instDecidableAnd

/-- An element of patterns may have the name where the given names are allowed; if none is given, all are. -/
structure Admitted (allowed : List String) (name : String) : Prop where
  known : IsPatternName name
  allowed : allowed ≠ [] → localName name ∈ allowed

theorem admitted_iff {name : String} :
    Admitted allowed name ↔ IsPatternName name ∧ (allowed = [] ∨ localName name ∈ allowed) := by
  refine ⟨fun h => ⟨h.known, ?_⟩, fun h => ⟨h.1, fun hne => h.2.resolve_left hne⟩⟩
  by_cases hallowed : allowed = []
  · exact .inl hallowed
  · exact .inr (h.allowed hallowed)

instance (allowed : List String) (name : String) : Decidable (Admitted allowed name) :=
  decidable_of_iff' _ admitted_iff

/-- What is reported of a name in a definition where the given names are allowed. -/
def offence? (allowed : List String) (name : String) : Option Error :=
  if Admitted allowed name then none
  else some (if IsPatternName name then .misplacedElement name else .unknownElement name)

/-- What is reported of a name in metadata. -/
def metadataOffence? (name : String) : Option Error :=
  if localName name ∈ metadataElements then none else some (.unknownElement name)

theorem offence?_eq_none {name : String} : offence? allowed name = none ↔ Admitted allowed name := by
  rw [offence?]
  split <;> simp_all

theorem metadataOffence?_eq_none {name : String} :
    metadataOffence? name = none ↔ localName name ∈ metadataElements := by
  rw [metadataOffence?]
  split <;> simp_all

/-- A result, unless something is to be reported. -/
def unlessReported {α : Type} (o : Option Error) (a : α) : Except Error α :=
  match o with
  | none => .ok a
  | some report => .error report

section

variable {α : Type} {o : Option Error} {a b : α}

theorem unlessReported_eq_ok : unlessReported o a = .ok b ↔ o = none ∧ a = b := by
  cases o <;> simp [unlessReported]

theorem unlessReported_eq_error {report : Error} : unlessReported o a = .error report ↔ o = some report := by
  cases o <;> simp [unlessReported]

end

theorem checkName_eq (allowed : List String) (name : String) :
    checkName allowed name = unlessReported (offence? allowed name) () := by
  have hknown : (prefixOf name != some patternPrefix || !patternElements.contains (localName name)) = true ↔
      ¬IsPatternName name := by
    simp [IsPatternName, imp_iff_not_or]
  have hallowed : (!allowed.isEmpty && !allowed.contains (localName name)) = true ↔
      ¬(allowed = [] ∨ localName name ∈ allowed) := by
    simp
  rw [checkName, offence?]
  by_cases hname : IsPatternName name
  · rw [if_neg (hknown.not.2 (not_not.2 hname)), if_pos hname]
    by_cases hplace : allowed = [] ∨ localName name ∈ allowed
    · rw [if_neg (hallowed.not.2 (not_not.2 hplace)), if_pos (admitted_iff.2 ⟨hname, hplace⟩)]
      rfl
    · rw [if_pos (hallowed.2 hplace), if_neg fun h => hplace (admitted_iff.1 h).2]
      rfl
  · rw [if_pos (hknown.2 hname), if_neg fun h => hname (admitted_iff.1 h).1, if_neg hname]
    rfl

/-! ## The walk taken apart -/

/-- What is reported of elements: what is reported of the first name that offends. -/
def firstOffence (offence : String → Option Error) (es : List Element) : Option Error :=
  es.findSome? fun e => offence e.name

theorem firstOffence_cons (offence : String → Option Error) (e : Element) (es : List Element) :
    firstOffence offence (e :: es) = (offence e.name).or (firstOffence offence es) := by
  rw [firstOffence, List.findSome?_cons]
  cases offence e.name <;> rfl

theorem firstOffence_append (offence : String → Option Error) (es fs : List Element) :
    firstOffence offence (es ++ fs) = (firstOffence offence es).or (firstOffence offence fs) :=
  List.findSome?_append

theorem firstOffence_eq_none {es : List Element} :
    firstOffence offence es = none ↔ ∀ e ∈ es, offence e.name = none := List.findSome?_eq_none_iff

/-- The names of elements decide what is reported of them. -/
theorem firstOffence_map (f : Element → Element) (hf : ∀ e, (f e).name = e.name) (es : List Element) :
    firstOffence offence (es.map f) = firstOffence offence es := by
  rw [firstOffence, List.findSome?_map]
  simp only [Function.comp_def, hf]
  rfl

/-- Two results, one behind the other. -/
theorem unlessReported_or (o o' : Option Error) (ms ns : List Node) :
    unlessReported (o.or o') (ms ++ ns) = (do
      let kept ← unlessReported o ms
      let rest ← unlessReported o' ns
      .ok (kept ++ rest)) := by
  cases o with
  | some report => rfl
  | none =>
    cases o' with
    | some report => rfl
    | none => rfl

/-- Checking is looking at the names of all elements in document order, and removing all else. -/
theorem prune_eq (allowed : List String) (ns : List Node) : prune allowed ns =
    unlessReported (firstOffence (offence? allowed) (reached noProse ns)) (elementsOnly noProse ns) := by
  cases ns with
  | nil => rfl
  | cons n ns =>
    rw [prune, reached, elementsOnly, firstOffence_append, unlessReported_or, prune_eq allowed ns]
    cases n with
    | element name attrs children =>
      rw [pruneNode, checkName_eq, prune_eq allowed children, reachedFrom, elementsOnlyOf, firstOffence_cons]
      cases offence? allowed name with
      | some report => rfl
      | none =>
        show _ = (unlessReported (firstOffence (offence? allowed) (reached noProse children)) _ >>= _)
        cases firstOffence (offence? allowed) (reached noProse children) with
        | some report => rfl
        | none => rfl
    | _ => rfl

/-- Checking metadata is the same without going into elements that hold prose. -/
theorem pruneMetadata_eq (ns : List Node) : pruneMetadata ns =
    unlessReported (firstOffence metadataOffence? (reached isProse ns)) (elementsOnly isProse ns) := by
  cases ns with
  | nil => rfl
  | cons n ns =>
    rw [pruneMetadata, reached, elementsOnly, firstOffence_append, unlessReported_or, pruneMetadata_eq ns]
    cases n with
    | element name attrs children =>
      have hchildren := pruneMetadata_eq children
      rw [pruneMetadataNode, reachedFrom, elementsOnlyOf, firstOffence_cons, ← isProse]
      by_cases hname : localName name ∈ metadataElements
      · rw [metadataOffence?, if_pos hname, if_neg (by simpa using hname)]
        by_cases hprose : isProse name
        · rw [if_pos hprose, if_pos hprose, if_pos hprose]
          rfl
        · rw [if_neg hprose, if_neg hprose, if_neg hprose, hchildren]
          show _ = (unlessReported (firstOffence metadataOffence? (reached isProse children)) _ >>= _)
          cases firstOffence metadataOffence? (reached isProse children) with
          | some report => rfl
          | none => rfl
      · rw [metadataOffence?, if_neg hname, if_pos (by simpa using hname)]
        rfl
    | _ => rfl

theorem prune_eq_ok {ns kept : List Node} : prune allowed ns = .ok kept ↔
    (∀ x ∈ reached noProse ns, Admitted allowed x.name) ∧ elementsOnly noProse ns = kept := by
  rw [prune_eq, unlessReported_eq_ok, firstOffence_eq_none]
  simp only [offence?_eq_none]

theorem pruneMetadata_eq_ok {ns kept : List Node} : pruneMetadata ns = .ok kept ↔
    (∀ x ∈ reached isProse ns, localName x.name ∈ metadataElements) ∧ elementsOnly isProse ns = kept := by
  rw [pruneMetadata_eq, unlessReported_eq_ok, firstOffence_eq_none]
  simp only [metadataOffence?_eq_none]

/-! ## What is kept -/

section

variable {allowed : List String} {ns kept : List Node}

theorem pruned_of_prune (ns : List Node) (h : prune allowed ns = .ok kept) : ∀ n ∈ kept, Pruned noProse n := by
  rw [← (prune_eq_ok.1 h).2]
  exact allPruned_iff.1 (allPruned_elementsOnly _ ns)

theorem pruned_of_pruneMetadata (ns : List Node) (h : pruneMetadata ns = .ok kept) : ∀ n ∈ kept, Pruned isProse n := by
  rw [← (pruneMetadata_eq_ok.1 h).2]
  exact allPruned_iff.1 (allPruned_elementsOnly _ ns)

theorem eq_of_prune (ns : List Node) (hns : AllPruned noProse ns) (h : prune allowed ns = .ok kept) : kept = ns :=
  (prune_eq_ok.1 h).2.symm.trans (elementsOnly_of_allPruned ns hns)

theorem eq_of_pruneMetadata (ns : List Node) (hns : AllPruned isProse ns) (h : pruneMetadata ns = .ok kept) :
    kept = ns :=
  (pruneMetadata_eq_ok.1 h).2.symm.trans (elementsOnly_of_allPruned ns hns)

/-- What has been kept of metadata is kept as it is. -/
theorem pruneMetadata_kept (h : pruneMetadata ns = .ok kept) : pruneMetadata kept = .ok kept := by
  obtain ⟨hall, rfl⟩ := pruneMetadata_eq_ok.1 h
  refine pruneMetadata_eq_ok.2 ⟨?_, elementsOnly_elementsOnly ns⟩
  rw [reached_elementsOnly]
  exact List.forall_mem_map.2 hall

theorem pruneMetadata_append {ms ms' ns' : List Node} (hm : pruneMetadata ms = .ok ms')
    (hn : pruneMetadata ns = .ok ns') : pruneMetadata (ms ++ ns) = .ok (ms' ++ ns') := by
  obtain ⟨hms, rfl⟩ := pruneMetadata_eq_ok.1 hm
  obtain ⟨hns, rfl⟩ := pruneMetadata_eq_ok.1 hn
  refine pruneMetadata_eq_ok.2 ⟨?_, elementsOnly_append ms ns⟩
  rw [reached_append]
  exact List.forall_mem_append.2 ⟨hms, hns⟩

/-- An element that may not stand in a definition does not stand there at any depth. -/
theorem descendants_of_prune {tag : String} (htag : ¬Admitted allowed tag) (h : prune allowed ns = .ok kept) :
    descendants tag ns = [] := by
  rw [descendants_eq_filter]
  refine List.filter_eq_nil_iff.2 fun e he hname => htag ?_
  rw [← beq_iff_eq.1 hname]
  exact (prune_eq_ok.1 h).1 e he

end

section

variable {bad : Error} (hbad : isForeign bad)

include hbad

theorem avoids_unlessReported {α : Type}
    (hoffence : ∀ {name report}, offence name = some report → isForeign report = false) (es : List Element) (a : α) :
    Avoids bad (unlessReported (firstOffence offence es) a) := by
  intro h
  obtain ⟨e, -, he⟩ := List.exists_of_findSome?_eq_some (unlessReported_eq_error.1 h)
  exact Bool.false_ne_true ((hoffence he).symm.trans hbad)

theorem avoids_prune (allowed : List String) (ns : List Node) : Avoids bad (prune allowed ns) := by
  rw [prune_eq]
  refine avoids_unlessReported hbad (fun {name report} h => ?_) _ _
  rw [offence?] at h
  split at h
  · cases h
  · cases h
    split
    · rfl
    · rfl

theorem avoids_pruneMetadata (ns : List Node) : Avoids bad (pruneMetadata ns) := by
  rw [pruneMetadata_eq]
  refine avoids_unlessReported hbad (fun {name report} h => ?_) _ _
  rw [metadataOffence?] at h
  split at h
  · cases h
  · cases h
    rfl

end

end Stitchwork.Pattern
