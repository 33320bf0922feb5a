/- # Stitchwork.Proofs.Pattern.Checking — what checking accepts, leaves and reports.

The names of elements are looked at in document order, and the first that offends is reported; if none does, what is
left are the elements, with everything else gone at every depth.
-/
import Stitchwork.Proofs.Pattern.Pruning

namespace Stitchwork.Pattern

open Stitchwork.Markup

section

variable {offence : String → Option Error} {closed : String → Bool}

/-- What is left of a tree without offences has none, and loses nothing more. -/
theorem unlessReported_again {ns : List Node} (h : firstOffence offence (reached closed ns) = none) :
    unlessReported (firstOffence offence (reached closed (elementsOnly closed ns)))
      (elementsOnly closed (elementsOnly closed ns)) = .ok (elementsOnly closed ns) := by
  rw [reached_elementsOnly, firstOffence_map (Element.bared closed) fun _ => rfl, h, elementsOnly_elementsOnly]
  rfl

/-- Elements with closed names are left as they are. -/
theorem closed_elementsOnly (ns : List Node) :
    (reached closed (elementsOnly closed ns)).filter (closed ·.name) = (reached closed ns).filter (closed ·.name) := by
  have hsame : ∀ c ∈ (reached closed ns).filter (closed ·.name), c.bared closed = c := by
    intro c hc
    rw [Element.bared, if_pos (List.mem_filter.1 hc).2]
  rw [reached_elementsOnly, List.filter_map]
  exact (List.map_congr_left hsame).trans (List.map_id _)

theorem heads_elementsOnly (ns : List Node) :
    (reached closed (elementsOnly closed ns)).map Element.head = (reached closed ns).map Element.head := by
  rw [reached_elementsOnly, List.map_map]
  rfl

end

theorem checked_eq (allowed : List String) (e : Element) : checked allowed e =
    unlessReported (firstOffence (offence? allowed) (reached noProse e.children))
      { e with children := elementsOnly noProse e.children } := by
  rw [checked, prune_eq]
  cases firstOffence (offence? allowed) (reached noProse e.children) <;> rfl

theorem checkedMetadata_eq (e : Element) : checkedMetadata e =
    unlessReported (firstOffence metadataOffence? (reached isProse e.children))
      { e with children := elementsOnly isProse e.children } := by
  rw [checkedMetadata, pruneMetadata_eq]
  cases firstOffence metadataOffence? (reached isProse e.children) <;> rfl

/-- **Checking a definition.**  It is accepted exactly if every element below it, at any depth, is admitted by its name.
What is left then is the definition with all that is not an element removed at every depth: the elements are those of
before, in the same order and with the same attributes, and checking them once more changes nothing.  Otherwise the
report names the first element in document order that is not admitted. -/
theorem checking_exact (allowed : List String) (e : Element) :
    ((∃ left, checked allowed e = .ok left) ↔ ∀ c ∈ reached noProse e.children, Admitted allowed c.name) ∧
    (∀ left, checked allowed e = .ok left →
      left = { e with children := elementsOnly noProse e.children } ∧ AllPruned noProse left.children ∧
      (reached noProse left.children).map Element.head = (reached noProse e.children).map Element.head ∧
      checked allowed left = .ok left) ∧
    (∀ report, checked allowed e = .error report → ∃ before c after,
      reached noProse e.children = before ++ c :: after ∧ (∀ b ∈ before, Admitted allowed b.name) ∧
      ¬Admitted allowed c.name ∧ report.message = "Node with name '" ++ c.name ++
        if IsPatternName c.name then "' is not allowed in this scope" else "' not recognized") := by
  have hnone : firstOffence (offence? allowed) (reached noProse e.children) = none ↔
      ∀ c ∈ reached noProse e.children, Admitted allowed c.name := by
    simp only [firstOffence_eq_none, offence?_eq_none]
  simp only [checked_eq allowed e]
  refine ⟨?_, fun left hleft => ?_, fun report hreport => ?_⟩
  · rw [← hnone]
    simp [unlessReported_eq_ok]
  · obtain ⟨hall, rfl⟩ := unlessReported_eq_ok.1 hleft
    have hkept : prune allowed e.children = .ok (elementsOnly noProse e.children) := by
      rw [prune_eq, hall]
      rfl
    refine ⟨rfl, allPruned_iff.2 (pruned_of_prune _ hkept), heads_elementsOnly e.children, ?_⟩
    rw [checked, prune_eq, unlessReported_again hall]
    rfl
  · obtain ⟨before, c, after, hsplit, hc, hbefore⟩ :=
      List.findSome?_eq_some_iff.1 (unlessReported_eq_error.1 hreport)
    refine ⟨before, c, after, hsplit, fun b hb => offence?_eq_none.1 (hbefore b hb), ?_⟩
    rw [offence?] at hc
    split at hc
    · cases hc
    · next hadmitted =>
      obtain rfl := Option.some.inj hc
      refine ⟨hadmitted, ?_⟩
      split
      · exact String.append_assoc
      · exact String.append_assoc

/-- **Checking metadata.**  It is accepted exactly if every element that is reached without going into one that holds
prose is one of metadata.  What is left then are these elements, in the same order and with the same attributes.
Those that hold prose are left as they are, node for node, nothing but elements is left outside of them, and checking
once more changes nothing. -/
theorem metadata_checking_exact (e : Element) :
    ((∃ left, checkedMetadata e = .ok left) ↔
      ∀ c ∈ reached isProse e.children, localName c.name ∈ metadataElements) ∧
    ∀ left, checkedMetadata e = .ok left →
      left = { e with children := elementsOnly isProse e.children } ∧ AllPruned isProse left.children ∧
      (reached isProse left.children).filter (isProse ·.name) = (reached isProse e.children).filter (isProse ·.name) ∧
      (reached isProse left.children).map Element.head = (reached isProse e.children).map Element.head ∧
      checkedMetadata left = .ok left := by
  have hnone : firstOffence metadataOffence? (reached isProse e.children) = none ↔
      ∀ c ∈ reached isProse e.children, localName c.name ∈ metadataElements := by
    simp only [firstOffence_eq_none, metadataOffence?_eq_none]
  simp only [checkedMetadata_eq e]
  refine ⟨?_, fun left hleft => ?_⟩
  · rw [← hnone]
    simp [unlessReported_eq_ok]
  · obtain ⟨hall, rfl⟩ := unlessReported_eq_ok.1 hleft
    have hkept : pruneMetadata e.children = .ok (elementsOnly isProse e.children) := by
      rw [pruneMetadata_eq, hall]
      rfl
    refine ⟨rfl, allPruned_iff.2 (pruned_of_pruneMetadata _ hkept), closed_elementsOnly e.children,
      heads_elementsOnly e.children, ?_⟩
    rw [checkedMetadata, pruneMetadata_eq, unlessReported_again hall]
    rfl

end Stitchwork.Pattern
