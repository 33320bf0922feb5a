/- # Stitchwork.Proofs.Text.Base64 — bytes that are written are read again.

Reading goes group by group: four digits that stand for three bytes leave nothing behind, and padding ends the
text inside the last group.
-/
import Stitchwork.Text.Base64

namespace Stitchwork.Text.Base64

/-! ## Digits -/

/-- What reading needs to know of a digit. -/
theorem digit_spec : ∀ n < 64, sextet? (digit n).toNat = some n ∧ ((digit n).toNat == 61) = false ∧
    0x20 < (digit n).toNat ∧ (digit n).toNat < 0x80 := by
  decide +kernel

section

variable {pos left pads : Nat} {done : List UInt8} {rest : List Nat}

theorem decodeFrom_digit {n : Nat} (hn : n < 64) :
    decodeFrom pos left pads done ((digit n).toNat :: rest) =
      match pos with
      | 0 => decodeFrom 1 n 0 done rest
      | 1 => decodeFrom 2 (n % 16) 0 (UInt8.ofNat (left * 4 + n / 16) :: done) rest
      | 2 => decodeFrom 3 (n % 4) 0 (UInt8.ofNat (left * 16 + n / 4) :: done) rest
      | _ => decodeFrom 0 0 0 (UInt8.ofNat (left * 64 + n) :: done) rest := by
  obtain ⟨hsextet, hpad, -⟩ := digit_spec n hn
  rw [decodeFrom, hsextet]
  exact if_neg (by simpa using hpad)

/-- Two digits give the first byte, and the second one leaves four bits. -/
theorem decodeFrom_first (a : UInt8) {m : Nat} (hm : m < 16) :
    decodeFrom 0 0 0 done ((digit (a.toNat / 4)).toNat :: (digit (a.toNat % 4 * 16 + m)).toNat :: rest) =
      decodeFrom 2 m 0 (a :: done) rest := by
  have ha := a.toNat_lt
  have hbyte : a.toNat / 4 * 4 + (a.toNat % 4 * 16 + m) / 16 = a.toNat := by omega
  have hleft : (a.toNat % 4 * 16 + m) % 16 = m := by omega
  rw [decodeFrom_digit (by omega)]
  show decodeFrom 1 (a.toNat / 4) 0 done _ = _
  rw [decodeFrom_digit (by omega)]
  show decodeFrom 2 _ 0 (UInt8.ofNat _ :: done) rest = _
  rw [hbyte, hleft, UInt8.ofNat_toNat]

/-- The third digit gives the second byte and leaves two bits. -/
theorem decodeFrom_second (b : UInt8) {m : Nat} (hm : m < 4) :
    decodeFrom 2 (b.toNat / 16) 0 done ((digit (b.toNat % 16 * 4 + m)).toNat :: rest) =
      decodeFrom 3 m 0 (b :: done) rest := by
  have hbyte : b.toNat / 16 * 16 + (b.toNat % 16 * 4 + m) / 4 = b.toNat := by omega
  have hleft : (b.toNat % 16 * 4 + m) % 4 = m := by omega
  rw [decodeFrom_digit (by omega)]
  show decodeFrom 3 _ 0 (UInt8.ofNat _ :: done) rest = _
  rw [hbyte, hleft, UInt8.ofNat_toNat]

/-- The fourth digit gives the third byte and leaves nothing. -/
theorem decodeFrom_third (c : UInt8) :
    decodeFrom 3 (c.toNat / 64) 0 done ((digit (c.toNat % 64)).toNat :: rest) = decodeFrom 0 0 0 (c :: done) rest := by
  have hbyte : c.toNat / 64 * 64 + c.toNat % 64 = c.toNat := by omega
  rw [decodeFrom_digit (by omega)]
  show decodeFrom 0 0 0 (UInt8.ofNat _ :: done) rest = _
  rw [hbyte, UInt8.ofNat_toNat]

end

/-! ## Texts -/

theorem decodeFrom_encodeBytes (bs done : List UInt8) :
    decodeFrom 0 0 0 done ((encodeBytes bs).map (·.toNat)) = some (done.reverse ++ bs) := by
  -- The induction is on groups of three bytes, as they are written.
  induction bs using encodeBytes.induct generalizing done with
  | case1 => simp [encodeBytes, decodeFrom]
  | case2 a =>
    rw [encodeBytes, List.map_cons, List.map_cons, ← Nat.add_zero (a.toNat % 4 * 16), decodeFrom_first a (by decide)]
    simp [decodeFrom]
  | case3 a b =>
    have hb := b.toNat_lt
    rw [encodeBytes, List.map_cons, List.map_cons, List.map_cons, decodeFrom_first a (by omega),
      ← Nat.add_zero (b.toNat % 16 * 4), decodeFrom_second b (by decide)]
    simp [decodeFrom]
  | case4 a b c bs ih =>
    have hb := b.toNat_lt
    have hc := c.toNat_lt
    rw [encodeBytes, List.map_cons, List.map_cons, List.map_cons, List.map_cons, decodeFrom_first a (by omega),
      decodeFrom_second b (by omega), decodeFrom_third c, ih]
    simp

/-- The characters of written bytes are digits and padding. -/
theorem mem_encode {bs : List UInt8} {c : Char} (h : c ∈ (encode bs).toList) : 0x20 < c.toNat ∧ c.toNat < 0x80 := by
  have hdigit : ∀ n < 64, 0x20 < (digit n).toNat ∧ (digit n).toNat < 0x80 := fun n hn => (digit_spec n hn).2.2
  have hpad : 0x20 < '='.toNat ∧ '='.toNat < 0x80 := by decide
  rw [encode, String.toList_ofList] at h
  induction bs using encodeBytes.induct with
  | case1 => cases h
  | case2 a =>
    have ha := a.toNat_lt
    simp only [encodeBytes, List.mem_cons, List.not_mem_nil, or_false] at h
    rcases h with rfl | rfl | rfl | rfl
    · exact hdigit _ (by omega)
    · exact hdigit _ (by omega)
    · exact hpad
    · exact hpad
  | case3 a b =>
    have ha := a.toNat_lt
    have hb := b.toNat_lt
    simp only [encodeBytes, List.mem_cons, List.not_mem_nil, or_false] at h
    rcases h with rfl | rfl | rfl | rfl
    · exact hdigit _ (by omega)
    · exact hdigit _ (by omega)
    · exact hdigit _ (by omega)
    · exact hpad
  | case4 a b c bs ih =>
    have ha := a.toNat_lt
    have hb := b.toNat_lt
    have hc := c.toNat_lt
    simp only [encodeBytes, List.mem_cons] at h
    rcases h with rfl | rfl | rfl | rfl | h
    · exact hdigit _ (by omega)
    · exact hdigit _ (by omega)
    · exact hdigit _ (by omega)
    · exact hdigit _ (by omega)
    · exact ih h

/-- What has been written is read as the bytes that it was written from. -/
theorem decode?_encode (bs : List UInt8) : decode? (encode bs) = some bs := by
  rw [decode?, encode, String.toList_ofList, decodeFrom_encodeBytes]
  rfl

/-! ## Lengths -/

/-- Every byte takes a digit of its own, and a group takes one more in front. -/
theorem length_decodeFrom {pos left pads : Nat} {done out : List UInt8} {codes : List Nat}
    (h : decodeFrom pos left pads done codes = some out) :
    out.length ≤ done.length + (if pos = 0 then codes.length - 1 else codes.length) := by
  induction codes generalizing pos left pads done with
  | nil =>
    rw [decodeFrom] at h
    split at h
    · cases h
      simp
    · cases h
  | cons n rest ih =>
    have hstay : ∀ {pads' : Nat}, decodeFrom pos left pads' done rest = some out →
        out.length ≤ done.length + (if pos = 0 then (n :: rest).length - 1 else (n :: rest).length) := by
      intro pads' h'
      have hrest := ih h'
      rw [List.length_cons]
      split at hrest
      · next hpos =>
        rw [if_pos hpos]
        omega
      · next hpos =>
        rw [if_neg hpos]
        omega
    rw [decodeFrom] at h
    split at h
    · split at h
      · exact hstay h
      split at h
      · cases h
        simp
      · exact hstay h
    split at h
    · exact hstay h
    -- a digit: the first of a group gives no byte, and each of the others gives one
    split at h
    · exact ih h
    · have hrest := ih h
      rw [if_neg (by decide)] at hrest ⊢
      simp only [List.length_cons] at hrest ⊢
      omega
    · have hrest := ih h
      rw [if_neg (by decide)] at hrest ⊢
      simp only [List.length_cons] at hrest ⊢
      omega
    · next hzero _ _ =>
      have hrest := ih h
      rw [if_pos rfl] at hrest
      rw [if_neg hzero]
      simp only [List.length_cons] at hrest ⊢
      omega

/-- Bytes say themselves only if there are none. -/
theorem decodeBytes?_eq_self_iff {bs out : List UInt8} (h : decodeBytes? bs = some out) : out = bs ↔ bs = [] := by
  constructor
  · rintro rfl
    have hlength := length_decodeFrom h
    rw [if_pos rfl, List.length_map, List.length_nil] at hlength
    exact List.length_eq_zero_iff.1 (by omega)
  · rintro rfl
    cases h
    rfl

end Stitchwork.Text.Base64
