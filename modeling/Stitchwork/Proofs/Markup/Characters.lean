/- # Stitchwork.Proofs.Markup.Characters — the characters of a text that can be read.

The scanner looks at every character of a text on its way to the end.  So a text that is read without fault holds no
character that a document cannot hold, wherever it stands.
-/
import Stitchwork.Proofs.Markup.WellFormed

namespace Stitchwork.Markup

open Stitchwork.Text

/-- Tokens in front of the root, given that the text behind them is looked at. -/
theorem allMarkup_before {place : Place} (hplace : place = .start ∨ place = .before) {fuel : Nat} {s : List Char}
    (ih : ∀ {place : Place} {s : List Char}, (∀ f, Token.fault f ∉ tokensFrom fuel place s) → AllMarkup s)
    (h : ∀ f, Token.fault f ∉ tokensFrom (fuel + 1) place s) : AllMarkup s := by
  have hfault : ∀ {f : Fault}, (∀ g, Token.fault g ∉ [Token.fault f]) → AllMarkup s :=
    fun hf => absurd (List.mem_singleton_self _) (hf _)
  have hleaves := outside_leaves s
  rw [tokensFrom] at h
  · split at h
    · exact hfault h
    · next rest hout =>
      rw [hout] at hleaves
      exact hleaves.allMarkup (ih h)
    · exact hfault h
    · exact hfault h
    · exact hfault h
    · next data rest hout =>
      rw [hout] at hleaves
      split at h
      · exact hfault h
      split at h
      · exact hleaves.allMarkup (ih h)
      · exact hfault h
    · next t hout =>
      rw [hout] at hleaves
      split at h
      · exact hfault h
      · next htake =>
        exact ((takeStart_ok htake).1.trans hleaves).allMarkup (ih fun f hf => h f (List.mem_cons_of_mem _ hf))
      · next htake =>
        exact ((takeStart_ok htake).1.trans hleaves).allMarkup (ih fun f hf => h f (List.mem_cons_of_mem _ hf))
  · rintro depth rfl
    rcases hplace with h | h <;> cases h
  · rintro rfl
    rcases hplace with h | h <;> cases h

/-- A text that gives tokens without fault has been looked at to its end. -/
theorem allMarkup_of_tokensFrom {fuel : Nat} {place : Place} {s : List Char}
    (h : ∀ f, Token.fault f ∉ tokensFrom fuel place s) : AllMarkup s := by
  induction fuel generalizing place s with
  | zero => exact absurd (List.mem_singleton_self _) (h .noElement)
  | succ fuel ih =>
    have hfault : ∀ {f : Fault}, (∀ g, Token.fault g ∉ [Token.fault f]) → AllMarkup s :=
      fun hf => absurd (List.mem_singleton_self _) (hf _)
    cases place with
    | within depth =>
      rw [tokensFrom] at h
      split at h
      · next t rest hinside =>
        exact (inside_ok hinside).1.allMarkup (ih fun f hf => h f (List.mem_cons_of_mem _ hf))
      · exact hfault h
    | behind =>
      have hleaves := outside_leaves s
      rw [tokensFrom] at h
      split at h
      · next hout =>
        rw [hout] at hleaves
        rw [hleaves]
        exact List.forall_mem_nil _
      · next rest hout =>
        rw [hout] at hleaves
        exact hleaves.allMarkup (ih h)
      · exact hfault h
      · exact hfault h
    | start => exact allMarkup_before (.inl rfl) ih h
    | before => exact allMarkup_before (.inr rfl) ih h

/-! ## Whole texts -/

/-- Unifying line ends hides no character but carriage returns. -/
theorem allMarkup_of_unifyLineEnds {s : List Char} (h : AllMarkup (unifyLineEnds s)) : AllMarkup s := by
  induction s using lineEnds_induction with
  | nil => exact h
  | pair s ih =>
    rw [unifyLineEnds_pair, allMarkup_cons] at h
    exact allMarkup_cons.2 ⟨by decide, allMarkup_cons.2 ⟨by decide, ih h.2⟩⟩
  | single s hs ih =>
    rw [unifyLineEnds_return hs, allMarkup_cons] at h
    exact allMarkup_cons.2 ⟨by decide, ih h.2⟩
  | cons c s hc ih =>
    rw [unifyLineEnds_cons hc, allMarkup_cons] at h
    exact allMarkup_cons.2 ⟨h.1, ih h.2⟩

/-- **A text that can be read** holds only characters that a document can hold. -/
theorem allMarkup_of_read {s : String} {e : Element} (h : read s = .ok e) : AllMarkup s.toList := by
  apply allMarkup_of_unifyLineEnds
  have htokens := allMarkup_of_tokensFrom (build_keeps (F := fun _ => True) (E := fun _ => True) (fun _ => trivial)
    (fun _ _ => trivial) (fun t _ => by cases t <;> simp [Token.Keeps]) (by simp) (by simp) h).2
  split at htokens
  · next c rest hs =>
    rw [hs]
    split at htokens
    · next hmark =>
      rw [beq_iff_eq] at hmark
      exact allMarkup_cons.2 ⟨isMarkupChar_of_toNat (by omega), htokens⟩
    · exact htokens
  · next hs =>
    rw [hs]
    exact nofun

end Stitchwork.Markup
