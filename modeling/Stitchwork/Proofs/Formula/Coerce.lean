/- # Stitchwork.Proofs.Formula.Coerce — values that are written and read again.

What a text is read as can be written, and what is written is read as the same number or the same text.
-/
import Stitchwork.Formula.Coerce
import Stitchwork.Proofs.Number.IntegerText

namespace Stitchwork.Formula

open Stitchwork.Number

/-- **Values come back.**  What a text is read as can be written, and what is written is read as the same. -/
theorem coerce_spec (s : String) : ∃ t, (coerce s).text? = some t ∧ coerce t = coerce s ∧
    ∀ c ∈ t.toList, isNumberChar c ∨ coerce s = .str s ∧ c ∈ s.toList := by
  cases hint : readInt? s with
  | some n =>
    have hcoerce : coerce s = .int n := by rw [coerce, hint]
    have hsmall := natAbs_lt_of_readInt? hint
    have htext : (Value.int n).text? = some (intText n) := by
      show intText? n = _
      rw [intText?, if_pos hsmall]
    refine ⟨intText n, by rw [hcoerce, htext], ?_, fun c hc => .inl (isNumberChar_of_mem_intText hc)⟩
    rw [hcoerce, coerce, readInt?_intText hsmall]
  | none =>
    cases hdouble : readBinary64? s with
    | some x =>
      have hcoerce : coerce s = .float x := by rw [coerce, hint, hdouble]
      refine ⟨x.text, by rw [hcoerce]; rfl, ?_, fun c hc => .inl (isNumberChar_of_mem_text hc)⟩
      rw [hcoerce, coerce, Binary64.readInt?_text, Binary64.readBinary64?_text]
    | none =>
      have hcoerce : coerce s = .str s := by rw [coerce, hint, hdouble]
      exact ⟨s, by rw [hcoerce]; rfl, rfl, fun c hc => .inr ⟨hcoerce, hc⟩⟩

theorem coerce_empty : coerce "" = .str "" := by
  have hint : readInt? "" = none := by decide +kernel
  have hdouble : readBinary64? "" = none := by decide +kernel
  rw [coerce, hint, hdouble]

theorem coerce_ne_nothing (s : String) : coerce s ≠ .nothing := by
  rw [coerce]
  split
  · exact nofun
  · split <;> exact nofun

end Stitchwork.Formula
