/- # Stitchwork.Proofs.Reach — how much can be reached along a relation.

Where a relation has no cycle, the number of things that can be reached goes down with every step.  This bounds
how far a recursion goes that follows the relation.
-/
import Mathlib.Data.List.Count
import Mathlib.Logic.Relation

namespace Stitchwork

open Relation (TransGen)

variable {α : Type} {R : α → α → Prop} {xs : List α}

/-- More members have a property that is implied by another and that some further member has. -/
theorem countP_lt_countP {p q : α → Bool} (hpq : ∀ x ∈ xs, p x → q x) {y : α} (hy : y ∈ xs) (hq : q y)
    (hp : ¬p y) : xs.countP p < xs.countP q := by
  have hboth : xs.countP p = (xs.filter q).countP p := by
    rw [List.countP_filter]
    refine List.countP_congr fun x hx => ?_
    simpa using hpq x hx
  rw [hboth, List.countP_eq_length_filter (p := q)]
  exact List.countP_lt_length_iff.2 ⟨y, List.mem_filter.2 ⟨hy, hq⟩, by simpa using hp⟩

open Classical in
/-- How many of the listed things can be reached, in one step or several. -/
noncomputable def reach (R : α → α → Prop) (xs : List α) (a : α) : Nat := xs.countP fun x => TransGen R a x

/-- Less can be reached after a step to a listed thing that does not reach itself. -/
theorem reach_lt_reach {a b : α} (h : R a b) (hb : b ∈ xs) (hcycle : ¬TransGen R b b) :
    reach R xs b < reach R xs a := by
  refine countP_lt_countP (fun x _ hx => ?_) hb (by simpa using TransGen.single h) (by simpa using hcycle)
  simp only [decide_eq_true_eq] at hx ⊢
  exact TransGen.head h hx

theorem reach_le_length (a : α) : reach R xs a ≤ xs.length := List.countP_le_length

theorem reach_lt_length {a : α} (ha : a ∈ xs) (hcycle : ¬TransGen R a a) : reach R xs a < xs.length :=
  List.countP_lt_length_iff.2 ⟨a, ha, by simpa using hcycle⟩

end Stitchwork
