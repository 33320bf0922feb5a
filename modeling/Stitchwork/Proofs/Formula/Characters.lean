/- # Stitchwork.Proofs.Formula.Characters — the characters of what formulas give.

Formulas cut texts, join, repeat and fill them, and write numbers, truth values and sequences; but they make no
characters.  What a formula gives is spelled with the characters of the texts that stand in it in quotes, of the values
that it sees, and of printable ASCII, of which numbers, brackets and escapes are made.
-/
import Stitchwork.Formula.Coerce
import Stitchwork.Formula.Template
import Stitchwork.Proofs.Number.Digits
import Stitchwork.Proofs.Table
import Stitchwork.Proofs.Text.Pieces
import Stitchwork.Proofs.Work

namespace Stitchwork.Formula

open Stitchwork.Number Stitchwork.Text

variable {v w : Value} {scope : Scope} {s t : String} {args : List Value} {c : Char}

/-! ## Texts and values -/

/-- The text is spelled with characters that have a property. -/
def Spelled (P : Char → Prop) (s : String) : Prop := ∀ c ∈ s.toList, P c

/-- The property holds of the printable characters of ASCII. -/
def HoldsOfAscii (P : Char → Prop) : Prop := ∀ c : Char, 0x20 ≤ c.toNat → c.toNat < 0x7F → P c

namespace Value

mutual

/-- The texts in a value. -/
def texts : Value → List String
  | .str s => [s]
  | .list xs => textsOfAll xs
  | .tuple xs => textsOfAll xs
  | _ => []

/-- The texts in values. -/
def textsOfAll : List Value → List String
  | [] => []
  | x :: xs => texts x ++ textsOfAll xs

end

/-- The texts in the value are spelled with characters that have a property. -/
def Spells (P : Char → Prop) (v : Value) : Prop := ∀ s ∈ v.texts, Spelled P s

/-- Is the value neither a text nor a sequence? -/
def isAtom : Value → Bool
  | .str _ => false
  | .list _ => false
  | .tuple _ => false
  | _ => true

end Value

section

variable {P : Char → Prop}

theorem spelled_ofList {cs : List Char} : Spelled P (String.ofList cs) ↔ ∀ c ∈ cs, P c := by
  rw [Spelled, String.toList_ofList]

theorem spelled_append : Spelled P (s ++ t) ↔ Spelled P s ∧ Spelled P t := by
  rw [Spelled, String.toList_append]
  exact List.forall_mem_append

theorem spelled_join {sep : String} (hsep : Spelled P sep) {ps : List String} (h : ∀ p ∈ ps, Spelled P p) :
    Spelled P (join sep ps) := by
  intro c hc
  rcases mem_join hc with hc | ⟨p, hp, hc⟩
  · exact hsep c hc
  · exact h p hp c hc

theorem HoldsOfAscii.spelled (hP : HoldsOfAscii P)
    (h : s.toList.all fun c => decide (0x20 ≤ c.toNat) && decide (c.toNat < 0x7F)) : Spelled P s := by
  intro c hc
  have hcode := List.all_eq_true.1 h c hc
  rw [Bool.and_eq_true, decide_eq_true_eq, decide_eq_true_eq] at hcode
  exact hP c hcode.1 hcode.2

namespace Value

@[simp] theorem spells_str : (Value.str s).Spells P ↔ Spelled P s := by simp [Spells, texts]

theorem forall_textsOfAll {xs : List Value} : (∀ s ∈ textsOfAll xs, Spelled P s) ↔ ∀ x ∈ xs, x.Spells P := by
  induction xs with
  | nil => exact iff_of_true nofun nofun
  | cons x xs ih => rw [textsOfAll, List.forall_mem_append, ih, List.forall_mem_cons, Spells]

@[simp] theorem spells_list {xs : List Value} : (Value.list xs).Spells P ↔ ∀ x ∈ xs, x.Spells P := forall_textsOfAll

@[simp] theorem spells_tuple {xs : List Value} : (Value.tuple xs).Spells P ↔ ∀ x ∈ xs, x.Spells P := forall_textsOfAll

theorem spells_of_isAtom (h : v.isAtom) : v.Spells P := by
  cases v with
  | str s => cases h
  | list xs => cases h
  | tuple xs => cases h
  | _ => exact fun _ hs => (List.not_mem_nil hs).elim

theorem spells_coerce (hs : Spelled P s) : (coerce s).Spells P := by
  unfold coerce
  split
  · exact spells_of_isAtom rfl
  split
  · exact spells_of_isAtom rfl
  · exact spells_str.2 hs

theorem spells_ofNumeric (n : Numeric) : (ofNumeric n).Spells P := by
  cases n <;> exact spells_of_isAtom rfl

mutual

theorem spells_placed (name : String) (path : List Nat) (v : Value) (hv : v.Spells P) : (v.placed name path).Spells P := by
  unfold placed
  split
  · exact spells_of_isAtom rfl
  · next xs => exact spells_list.2 (spells_placedAll name path 0 xs (spells_list.1 hv))
  · next xs => exact spells_tuple.2 (spells_placedAll name path 0 xs (spells_tuple.1 hv))
  · exact hv

theorem spells_placedAll (name : String) (path : List Nat) (i : Nat) (xs : List Value) (hxs : ∀ x ∈ xs, x.Spells P) :
    ∀ x ∈ placedAll name path i xs, x.Spells P := by
  cases xs with
  | nil => exact nofun
  | cons x xs =>
    rw [List.forall_mem_cons] at hxs
    exact List.forall_mem_cons.2 ⟨spells_placed name _ x hxs.1, spells_placedAll name path _ xs hxs.2⟩

end

end Value

/-! ## Values as text -/

theorem HoldsOfAscii.isNumberChar (hP : HoldsOfAscii P) (h : Number.isNumberChar c) : P c := by
  simp only [Number.isNumberChar, Bool.or_eq_true, beq_iff_eq] at h
  rcases h with (((((((h | rfl) | rfl) | rfl) | rfl) | rfl) | rfl) | rfl) | rfl
  · have hcode := isPlainDigit_iff.1 h
    exact hP c (by omega) (by omega)
  all_goals exact hP _ (by decide) (by decide)

theorem mem_toDigits_sixteen {n : Nat} (h : c ∈ Nat.toDigits 16 n) : ∃ d < 16, c = d.digitChar := by
  induction n using Nat.strongRecOn with
  | ind n ih =>
    rw [Nat.toDigits_eq_if (by decide)] at h
    split at h
    · next hlt => exact ⟨n, hlt, List.mem_singleton.1 h⟩
    · next hle =>
      rcases List.mem_append.1 h with h | h
      · exact ih (n / 16) (by omega) h
      · exact ⟨n % 16, Nat.mod_lt _ (by decide), List.mem_singleton.1 h⟩

theorem HoldsOfAscii.hexText (hP : HoldsOfAscii P) {width n : Nat} (h : c ∈ Formula.hexText width n) : P c := by
  rcases List.mem_append.1 h with h | h
  · rw [List.eq_of_mem_replicate h]
    exact hP _ (by decide) (by decide)
  · obtain ⟨d, hd, rfl⟩ := mem_toDigits_sixteen h
    have hcodes : ∀ d < 16, 0x20 ≤ d.digitChar.toNat ∧ d.digitChar.toNat < 0x7F := by decide
    exact hP _ (hcodes d hd).1 (hcodes d hd).2

theorem HoldsOfAscii.quotedChar (hP : HoldsOfAscii P) (quote : Char) (hc : P c) :
    ∀ d ∈ Formula.quotedChar quote c, P d := by
  have hescape : ∀ {d : Char}, P d → ∀ e ∈ ['\\', d], P e := by
    intro d hd
    simpa using ⟨hP '\\' (by decide) (by decide), hd⟩
  have hcode : ∀ {d : Char} {width n : Nat}, P d → ∀ e ∈ '\\' :: d :: Formula.hexText width n, P e := by
    intro d width n hd e he
    rcases List.mem_cons.1 he with rfl | he
    · exact hP _ (by decide) (by decide)
    rcases List.mem_cons.1 he with rfl | he
    · exact hd
    · exact hP.hexText he
  unfold Formula.quotedChar
  split
  · exact hescape hc
  split
  · exact hescape (hP _ (by decide) (by decide))
  split
  · exact hescape (hP _ (by decide) (by decide))
  split
  · exact hescape (hP _ (by decide) (by decide))
  split
  · simpa using hc
  split
  · exact hcode (hP _ (by decide) (by decide))
  split
  · exact hcode (hP _ (by decide) (by decide))
  · exact hcode (hP _ (by decide) (by decide))

theorem spelled_quoted (hP : HoldsOfAscii P) (hs : Spelled P s) : Spelled P (quoted s) := by
  have hquote : ∀ b : Bool, P (if b then doubleQuote else apostrophe) := by
    intro b
    cases b <;> exact hP _ (by decide) (by decide)
  refine spelled_ofList.2 fun c hc => ?_
  rcases List.mem_cons.1 hc with rfl | hc
  · exact hquote _
  rcases List.mem_append.1 hc with hc | hc
  · obtain ⟨d, hd, hc⟩ := List.mem_flatMap.1 hc
    exact hP.quotedChar _ (hs d hd) c hc
  · rw [List.mem_singleton.1 hc]
    exact hquote _

namespace Value

theorem spelled_atomText? (hP : HoldsOfAscii P) (h : v.atomText? = some t) : Spelled P t := by
  cases v with
  | nothing =>
    cases h
    exact hP.spelled (by decide)
  | bool b =>
    cases h
    cases b <;> exact hP.spelled (by decide)
  | int n =>
    change intText? n = some t at h
    rw [intText?] at h
    split at h
    · cases h
      exact fun c hc => hP.isNumberChar (isNumberChar_of_mem_intText hc)
    · cases h
  | float x =>
    cases h
    exact fun c hc => hP.isNumberChar (isNumberChar_of_mem_text hc)
  | undefined name path =>
    cases h
    exact fun c hc => hP.isNumberChar (isNumberChar_of_mem_text hc)
  | function f =>
    cases h
    cases f <;> exact hP.spelled (by decide)
  | emptyMap =>
    cases h
    exact hP.spelled (by decide)
  | str s => cases h
  | list xs => cases h
  | tuple xs => cases h

mutual

theorem spelled_memberText? (hP : HoldsOfAscii P) (v : Value) (hv : v.Spells P) {t : String}
    (h : v.memberText? = some t) : Spelled P t := by
  have haround : ∀ {a b s : String}, Spelled P a → Spelled P s → Spelled P b → Spelled P (a ++ s ++ b) :=
    fun ha hs hb => spelled_append.2 ⟨spelled_append.2 ⟨ha, hs⟩, hb⟩
  unfold memberText? at h
  split at h
  · cases h
    exact spelled_quoted hP (spells_str.1 hv)
  · next xs =>
    obtain ⟨ts, hts, rfl⟩ := Option.map_eq_some_iff.1 h
    have htexts := spelled_memberTexts? hP xs (spells_list.1 hv) hts
    exact haround (hP.spelled (by decide)) (spelled_join (hP.spelled (by decide)) htexts) (hP.spelled (by decide))
  · next xs =>
    obtain ⟨ts, hts, rfl⟩ := Option.map_eq_some_iff.1 h
    have htexts := spelled_memberTexts? hP xs (spells_tuple.1 hv) hts
    split
    · exact haround (hP.spelled (by decide)) (htexts _ (by simp)) (hP.spelled (by decide))
    · exact haround (hP.spelled (by decide)) (spelled_join (hP.spelled (by decide)) htexts) (hP.spelled (by decide))
  · exact spelled_atomText? hP h

theorem spelled_memberTexts? (hP : HoldsOfAscii P) (xs : List Value) (hxs : ∀ x ∈ xs, x.Spells P) {ts : List String}
    (h : memberTexts? xs = some ts) : ∀ t ∈ ts, Spelled P t := by
  cases xs with
  | nil =>
    cases h
    exact nofun
  | cons x xs =>
    rw [List.forall_mem_cons] at hxs
    rw [memberTexts?] at h
    split at h
    · next t ts' ht hts =>
      cases h
      exact List.forall_mem_cons.2 ⟨spelled_memberText? hP x hxs.1 ht, spelled_memberTexts? hP xs hxs.2 hts⟩
    · cases h

end

/-- The text of a value is spelled with the characters of the texts in it and with ASCII. -/
theorem spelled_text? (hP : HoldsOfAscii P) (hv : v.Spells P) (h : v.text? = some t) : Spelled P t := by
  unfold text? at h
  split at h
  · cases h
    exact spells_str.1 hv
  · exact spelled_memberText? hP _ hv h

theorem spelled_written (hP : HoldsOfAscii P) (hv : v.Spells P) (h : v.written = .ok t) : Spelled P t := by
  unfold written at h
  split at h
  · next s hs =>
    cases h
    exact spelled_text? hP hv hs
  · cases h

/-! ## Operators -/

theorem mem_of_mem_repeatList {α : Type} {xs ys : List α} {n : Int} (h : repeatList xs n = .ok ys) :
    ∀ y ∈ ys, y ∈ xs := by
  unfold repeatList at h
  split at h
  · obtain ⟨k, -, rfl⟩ := map_eq_ok.1 h
    exact nofun
  · obtain ⟨k, -, h⟩ := bind_eq_ok.1 h
    cases h
    intro y hy
    obtain ⟨l, hl, hy⟩ := List.mem_flatten.1 hy
    rwa [List.eq_of_mem_replicate hl] at hy

theorem spells_repeated (hv : v.Spells P) {n : Int} (h : v.repeated n = .ok w) : w.Spells P := by
  unfold repeated at h
  split at h
  · next s =>
    split at h
    · cases h
    · obtain ⟨cs, hcs, rfl⟩ := map_eq_ok.1 h
      exact spells_str.2 (spelled_ofList.2 fun c hc => spells_str.1 hv c (mem_of_mem_repeatList hcs c hc))
  · next xs =>
    obtain ⟨ys, hys, rfl⟩ := map_eq_ok.1 h
    exact spells_list.2 fun y hy => spells_list.1 hv y (mem_of_mem_repeatList hys y hy)
  · next xs =>
    obtain ⟨ys, hys, rfl⟩ := map_eq_ok.1 h
    exact spells_tuple.2 fun y hy => spells_tuple.1 hv y (mem_of_mem_repeatList hys y hy)
  · cases h

theorem spells_arithmetic {op : BinaryOp} {a b : Value} (ha : a.Spells P) (hb : b.Spells P)
    (h : arithmetic op a b = .ok v) : v.Spells P := by
  unfold arithmetic at h
  split at h
  · obtain ⟨n, -, rfl⟩ := map_eq_ok.1 h
    exact spells_ofNumeric n
  · split at h
    · cases h
      exact spells_str.2 (spelled_append.2 ⟨spells_str.1 ha, spells_str.1 hb⟩)
    · cases h
      exact spells_list.2 (List.forall_mem_append.2 ⟨spells_list.1 ha, spells_list.1 hb⟩)
    · cases h
      exact spells_tuple.2 (List.forall_mem_append.2 ⟨spells_tuple.1 ha, spells_tuple.1 hb⟩)
    · split at h
      · exact spells_repeated ha h
      · exact spells_repeated hb h
      · cases h
    · cases h

theorem spells_bitOperation {op : BinaryOp} {a b : Value} (h : bitOperation op a b = .ok v) : v.Spells P := by
  unfold bitOperation at h
  split at h
  · obtain ⟨r, -, h⟩ := bind_eq_ok.1 h
    split at h <;> cases h <;> exact spells_of_isAtom rfl
  · split at h <;> cases h
    exact spells_of_isAtom rfl

theorem spells_unary {op : UnaryOp} (h : v.unary op = .ok w) : w.Spells P := by
  unfold unary at h
  split at h
  · cases h
    exact spells_of_isAtom rfl
  · split at h <;> cases h
    exact spells_of_isAtom rfl
  · split at h <;> cases h
    · exact spells_of_isAtom rfl
    · exact spells_ofNumeric _
  · split at h <;> cases h <;> exact spells_of_isAtom rfl

theorem spelled_placeText (hP : HoldsOfAscii P) {kind : Char} (hv : v.Spells P) (h : placeText kind v = .ok t) :
    Spelled P t := by
  unfold placeText at h
  split at h
  · exact spelled_written hP hv h
  split at h
  · split at h
    · next s hs =>
      cases h
      exact spelled_memberText? hP v hv hs
    · cases h
  split at h
  · split at h
    · obtain ⟨n, -, h⟩ := bind_eq_ok.1 h
      exact spelled_written hP (spells_of_isAtom rfl) h
    · cases h
  · cases h

theorem spelled_fillFrom (hP : HoldsOfAscii P) {template : List Char} (ht : ∀ c ∈ template, P c)
    (hargs : ∀ v ∈ args, v.Spells P) {cs : List Char} {left : List Value}
    (h : fillFrom template args = .ok (cs, left)) : ∀ c ∈ cs, P c := by
  fun_induction fillFrom template args generalizing cs left with
  | case1 =>
    cases h
    exact nofun
  | case2 => cases h
  | case3 rest args ih =>
    obtain ⟨⟨cs', left'⟩, hfill, h⟩ := bind_eq_ok.1 h
    cases h
    rw [List.forall_mem_cons, List.forall_mem_cons] at ht
    exact List.forall_mem_cons.2 ⟨ht.1, ih ht.2.2 hargs hfill⟩
  | case4 => cases h
  | case5 kind rest _ v args ih =>
    obtain ⟨s, hs, h⟩ := bind_eq_ok.1 h
    obtain ⟨⟨cs', left'⟩, hfill, h⟩ := bind_eq_ok.1 h
    cases h
    rw [List.forall_mem_cons, List.forall_mem_cons] at ht
    rw [List.forall_mem_cons] at hargs
    exact List.forall_mem_append.2 ⟨spelled_placeText hP hargs.1 hs, ih ht.2.2 hargs.2 hfill⟩
  | case6 c rest args _ _ _ ih =>
    obtain ⟨⟨cs', left'⟩, hfill, h⟩ := bind_eq_ok.1 h
    cases h
    rw [List.forall_mem_cons] at ht
    exact List.forall_mem_cons.2 ⟨ht.1, ih ht.2 hargs hfill⟩

theorem spelled_fill (hP : HoldsOfAscii P) {template : String} (ht : Spelled P template) (hv : v.Spells P)
    (h : fill template v = .ok s) : Spelled P s := by
  obtain ⟨⟨cs, left⟩, hfill, h⟩ := bind_eq_ok.1 h
  have hcs : ∀ c ∈ cs, P c := by
    refine spelled_fillFrom hP ht ?_ hfill
    split
    · exact spells_tuple.1 hv
    · simpa using hv
  dsimp only at h
  split at h <;> cases h <;> exact spelled_ofList.2 hcs

theorem spells_binary (hP : HoldsOfAscii P) {op : BinaryOp} {a b : Value} (ha : a.Spells P) (hb : b.Spells P)
    (h : a.binary op b = .ok v) : v.Spells P := by
  unfold Value.binary at h
  split at h
  · obtain ⟨s, hs, rfl⟩ := map_eq_ok.1 h
    exact spells_str.2 (spelled_fill hP (spells_str.1 ha) hb hs)
  · exact spells_bitOperation h
  · exact spells_bitOperation h
  · exact spells_bitOperation h
  · exact spells_bitOperation h
  · exact spells_bitOperation h
  · exact spells_arithmetic ha hb h

/-! ## Positions -/

theorem mem_of_entryAt {α : Type} {xs : List α} {i : Int} {x : α} (h : entryAt xs i = .ok x) : x ∈ xs := by
  have hget : ∀ j : Int, (if j < 0 then none else xs[j.toNat]?) = some x → x ∈ xs := by
    intro j hj
    split at hj
    · cases hj
    · exact List.mem_of_getElem? hj
  unfold entryAt at h
  dsimp only at h
  split at h
  · next heq =>
    cases h
    exact hget _ heq
  · cases h

theorem spells_index {i : Value} (hv : v.Spells P) (h : v.index i = .ok w) : w.Spells P := by
  unfold index at h
  split at h
  · split at h <;> cases h
  · obtain ⟨c, hc, rfl⟩ := map_eq_ok.1 h
    refine spells_str.2 (spelled_ofList.2 fun d hd => ?_)
    rw [List.mem_singleton.1 hd]
    exact spells_str.1 hv c (mem_of_entryAt hc)
  · exact spells_list.1 hv w (mem_of_entryAt h)
  · exact spells_tuple.1 hv w (mem_of_entryAt h)
  · cases h

theorem mem_of_mem_sliceList {α : Type} {xs : List α} {start stop : Option Int} {step : Int} :
    ∀ x ∈ sliceList xs start stop step, x ∈ xs := by
  intro x hx
  obtain ⟨k, -, hk⟩ := List.mem_filterMap.1 hx
  rw [List.getElem?_toArray] at hk
  exact List.mem_of_getElem? hk

theorem spells_slice {start stop step : Value} (hv : v.Spells P) (h : v.slice start stop step = .ok w) :
    w.Spells P := by
  have hbounds : ∀ {f : Option Int → Option Int → Int → Value}, (do
      let step := ((← step.bound).getD 1)
      if step = 0 then throw .wrongValue
      let start ← start.bound
      let stop ← stop.bound
      .ok (f start stop step) : Except Fault Value) = .ok w → ∃ a b c, w = f a b c := by
    intro f hf
    obtain ⟨c, -, hf⟩ := bind_eq_ok.1 hf
    dsimp only at hf
    split at hf
    · cases hf
    obtain ⟨a, -, hf⟩ := bind_eq_ok.1 hf
    obtain ⟨b, -, hf⟩ := bind_eq_ok.1 hf
    cases hf
    exact ⟨a, b, _, rfl⟩
  cases v with
  | str s =>
    obtain ⟨a, b, c, rfl⟩ := hbounds (f := fun a b c => .str (String.ofList (sliceList s.toList a b c))) h
    exact spells_str.2 (spelled_ofList.2 fun c hc => spells_str.1 hv c (mem_of_mem_sliceList c hc))
  | list xs =>
    obtain ⟨a, b, c, rfl⟩ := hbounds (f := fun a b c => .list (sliceList xs a b c)) h
    exact spells_list.2 fun x hx => spells_list.1 hv x (mem_of_mem_sliceList x hx)
  | tuple xs =>
    obtain ⟨a, b, c, rfl⟩ := hbounds (f := fun a b c => .tuple (sliceList xs a b c)) h
    exact spells_tuple.2 fun x hx => spells_tuple.1 hv x (mem_of_mem_sliceList x hx)
  | _ => cases h

/-! ## Functions -/

theorem spells_toMultiple {rule : Binary64 → Option Int} {step : Value} (hstep : step.Spells P)
    (h : v.toMultiple rule step = .ok w) : w.Spells P := by
  obtain ⟨q, -, h⟩ := bind_eq_ok.1 h
  split at h
  · cases h
  · split at h
    · exact spells_arithmetic hstep (spells_of_isAtom rfl) h
    · cases h
  · cases h

theorem spells_rounded (h : v.rounded = .ok w) : w.Spells P := by
  unfold rounded at h
  split at h
  · cases h
    exact spells_of_isAtom rfl
  · cases h
  · split at h <;> cases h
    exact spells_of_isAtom rfl
  · cases h

theorem spells_chosen {i values : Value} (hvalues : values.Spells P) (h : chosen i values = .ok w) : w.Spells P := by
  obtain ⟨below, -, h⟩ := bind_eq_ok.1 h
  cases below with
  | true => cases h
  | false =>
    simp only [Bool.false_eq_true, if_false] at h
    split at h
    · cases h
    · obtain ⟨beyond, -, h⟩ := bind_eq_ok.1 h
      split at h
      · obtain ⟨t, -, h⟩ := bind_eq_ok.1 h
        cases h
      · obtain ⟨j, -, h⟩ := bind_eq_ok.1 h
        exact spells_index hvalues h

theorem spells_repeatedText (hP : HoldsOfAscii P) {n sep : Value} (hv : v.Spells P) (hsep : sep.Spells P)
    (h : repeatedText v n sep = .ok w) : w.Spells P := by
  obtain ⟨none, -, h⟩ := bind_eq_ok.1 h
  split at h
  · cases h
    exact spells_str.2 nofun
  split at h
  · obtain ⟨t, ht, h⟩ := bind_eq_ok.1 h
    cases h
    exact spells_str.2 (spelled_written hP hv ht)
  split at h
  · cases h
  · obtain ⟨piece, hpiece, h⟩ := bind_eq_ok.1 h
    obtain ⟨between, hbetween, h⟩ := bind_eq_ok.1 h
    cases h
    refine spells_str.2 (spelled_join (spelled_written hP hsep hbetween) fun p hp => ?_)
    rw [List.eq_of_mem_replicate hp]
    exact spelled_written hP hv hpiece

end Value

theorem spells_bind? {params : List (String × Option Value)} (hparams : ∀ p ∈ params, ∀ v ∈ p.2, v.Spells P)
    (hargs : ∀ v ∈ args, v.Spells P) {named : List (String × Value)} (hnamed : ∀ p ∈ named, p.2.Spells P)
    {vs : List Value} (h : Function.bind? params args named = some vs) : ∀ v ∈ vs, v.Spells P := by
  induction params generalizing args named vs with
  | nil =>
    cases args with
    | nil =>
      rw [Function.bind?] at h
      split at h <;> cases h
      exact nofun
    | cons v args => cases h
  | cons p params ih =>
    obtain ⟨name, fallback⟩ := p
    rw [List.forall_mem_cons] at hparams
    cases args with
    | cons v args =>
      rw [List.forall_mem_cons] at hargs
      rw [Function.bind?] at h
      split at h
      · cases h
      · obtain ⟨ws, hws, rfl⟩ := Option.map_eq_some_iff.1 h
        exact List.forall_mem_cons.2 ⟨hargs.1, ih hparams.2 hargs.2 hnamed hws⟩
    | nil =>
      rw [Function.bind?] at h
      split at h
      · next v hv =>
        obtain ⟨ws, hws, rfl⟩ := Option.map_eq_some_iff.1 h
        refine List.forall_mem_cons.2 ⟨?_, ih hparams.2 hargs (fun q hq => hnamed q (List.mem_filter.1 hq).1) hws⟩
        rcases Option.or_eq_some_iff.1 hv with hv | ⟨-, hv⟩
        · obtain ⟨front, back, rfl, -⟩ := List.lookup_eq_some_iff.1 hv
          exact hnamed (name, v) (by simp)
        · exact hparams.1 v hv
      · cases h

/-- What a function falls back on holds no texts. -/
theorem spells_params (f : Function) : ∀ p ∈ f.params, ∀ v ∈ p.2, v.Spells P := by
  have hatom : ∀ p ∈ f.params, ∀ v ∈ p.2, v.isAtom := by
    cases f <;> decide
  exact fun p hp v hv => Value.spells_of_isAtom (hatom p hp v hv)

/-- What a function gives is spelled with the characters of what it is given. -/
theorem spells_run (hP : HoldsOfAscii P) {f : Function} (hargs : ∀ v ∈ args, v.Spells P) (h : f.run args = .ok w) :
    w.Spells P := by
  have htruth : ∀ {α : Type} {x : Except Fault α} {g : α → Bool}, x.map (fun a => Value.bool (g a)) = .ok w →
      w.Spells P := by
    intro α x g hx
    obtain ⟨b, -, rfl⟩ := map_eq_ok.1 hx
    exact Value.spells_of_isAtom rfl
  have hchoice : ∀ {p : Prop} [Decidable p] {a b : Value}, a ∈ args → b ∈ args → (if p then a else b).Spells P := by
    intro p _ a b ha hb
    split
    · exact hargs a ha
    · exact hargs b hb
  unfold Function.run at h
  split at h
  · exact Value.spells_rounded h
  · exact Value.spells_toMultiple (hargs _ (by simp)) h
  · exact Value.spells_toMultiple (hargs _ (by simp)) h
  · exact Value.spells_toMultiple (hargs _ (by simp)) h
  · exact htruth h
  · exact htruth h
  · cases h
    exact Value.spells_of_isAtom rfl
  · cases h
    exact Value.spells_of_isAtom rfl
  · cases h
    exact hchoice (by simp) (by simp)
  · cases h
    exact hchoice (by simp) (by simp)
  · cases h
    exact Value.spells_of_isAtom rfl
  · split at h <;> cases h <;> exact Value.spells_of_isAtom rfl
  · exact Value.spells_chosen (hargs _ (by simp)) h
  · cases h
    exact Value.spells_of_isAtom rfl
  · exact htruth h
  · exact htruth h
  · exact htruth h
  · exact htruth h
  · obtain ⟨b, -, h⟩ := bind_eq_ok.1 h
    cases h
    exact hchoice (by simp) (by simp)
  · obtain ⟨b, -, h⟩ := bind_eq_ok.1 h
    cases h
    exact hchoice (by simp) (by simp)
  · cases h
    exact Value.spells_of_isAtom rfl
  · cases h
    exact hchoice (by simp) (by simp)
  · exact Value.spells_binary hP (hargs _ (by simp)) (hargs _ (by simp)) h
  · exact Value.spells_repeatedText hP (hargs _ (by simp)) (hargs _ (by simp)) h
  · cases h

theorem spells_call (hP : HoldsOfAscii P) {g : Value} (hargs : ∀ v ∈ args, v.Spells P) {named : List (String × Value)}
    (hnamed : ∀ p ∈ named, p.2.Spells P) (h : g.call args named = .ok w) : w.Spells P := by
  unfold Value.call at h
  split at h
  · next f =>
    unfold Function.call at h
    split at h
    · next vs hvs => exact spells_run hP (spells_bind? (spells_params f) hargs hnamed hvs) h
    · cases h
  · cases h

/-! ## Formulas -/

namespace Expr

mutual

/-- The texts that stand in a formula, in quotes. -/
def texts : Expr → List String
  | .literal v => v.texts
  | .name _ => []
  | .list es => textsOfAll es
  | .tuple es => textsOfAll es
  | .unary _ e => texts e
  | .binary _ a b => texts a ++ texts b
  | .and a b => texts a ++ texts b
  | .or a b => texts a ++ texts b
  | .chain first _ rest => texts first ++ textsOfAll rest
  | .choice test yes no => texts test ++ (texts yes ++ texts no)
  | .call f args _ named => texts f ++ (textsOfAll args ++ textsOfAll named)
  | .index e i => texts e ++ texts i
  | .slice e start stop step => texts e ++ (texts start ++ (texts stop ++ texts step))

/-- The texts that stand in formulas. -/
def textsOfAll : List Expr → List String
  | [] => []
  | e :: es => texts e ++ textsOfAll es

end

end Expr

/-- The texts in the values of a scope are spelled with characters that have a property. -/
def SpellsAll (P : Char → Prop) (scope : Scope) : Prop := ∀ p ∈ scope.entries, p.2.Spells P

theorem spellsAll_empty : SpellsAll P Table.empty := fun _ hp => nomatch hp

theorem SpellsAll.insert (h : SpellsAll P scope) {k : String} (hv : v.Spells P) : SpellsAll P (scope.insert k v) := by
  intro p hp
  rcases Table.mem_insertEntry hp with rfl | hp
  · exact hv
  · exact h p hp

theorem SpellsAll.update {globals : Scope} (h : SpellsAll P scope) (hglobals : SpellsAll P globals) :
    SpellsAll P (scope.update globals) :=
  fun p hp => (Table.mem_insertAll globals.entries hp).elim (hglobals p) (h p)

theorem spells_lookup (hscope : SpellsAll P scope) {name : String} (h : lookup scope name = .ok v) : v.Spells P := by
  unfold lookup at h
  split at h
  · next w hw =>
    cases h
    exact Value.spells_placed name [] w (hscope _ (Table.mem_of_valueIn? hw))
  · split at h
    · cases h
      exact Value.spells_of_isAtom rfl
    · split at h <;> cases h
      exact Value.spells_of_isAtom rfl

namespace Expr

variable {scope : Scope}

theorem isAtom_evalChain {x : Value} {ops : List Comparison} {es : List Expr} (h : evalChain scope x ops es = .ok v) :
    v.isAtom := by
  induction ops generalizing x es with
  | nil =>
    cases es <;> cases h <;> rfl
  | cons c ops ih =>
    cases es with
    | nil =>
      cases h
      rfl
    | cons e es =>
      obtain ⟨y, -, h⟩ := bind_eq_ok.1 h
      obtain ⟨b, -, h⟩ := bind_eq_ok.1 h
      split at h
      · split at h
        · cases h
          rfl
        · exact ih h
      · cases h
        rfl

mutual

/-- **What a formula gives** is spelled with the characters of its texts, of the values it sees, and of ASCII. -/
theorem spells_eval (hP : HoldsOfAscii P) (hscope : SpellsAll P scope) (e : Expr) (he : ∀ s ∈ e.texts, Spelled P s)
    {v : Value} (h : e.eval scope = .ok v) : v.Spells P := by
  cases e with
  | literal w =>
    cases h
    exact he
  | name s => exact spells_lookup hscope h
  | list es =>
    obtain ⟨vs, hvs, rfl⟩ := map_eq_ok.1 h
    exact Value.spells_list.2 (spells_evalAll hP hscope es he hvs)
  | tuple es =>
    obtain ⟨vs, hvs, rfl⟩ := map_eq_ok.1 h
    exact Value.spells_tuple.2 (spells_evalAll hP hscope es he hvs)
  | unary op e =>
    obtain ⟨x, -, h⟩ := bind_eq_ok.1 h
    exact Value.spells_unary h
  | binary op a b =>
    obtain ⟨ha, hb⟩ := List.forall_mem_append.1 he
    obtain ⟨x, hx, h⟩ := bind_eq_ok.1 h
    obtain ⟨y, hy, h⟩ := bind_eq_ok.1 h
    exact Value.spells_binary hP (spells_eval hP hscope a ha hx) (spells_eval hP hscope b hb hy) h
  | and a b =>
    obtain ⟨ha, hb⟩ := List.forall_mem_append.1 he
    obtain ⟨x, hx, h⟩ := bind_eq_ok.1 h
    split at h
    · exact spells_eval hP hscope b hb h
    · cases h
      exact spells_eval hP hscope a ha hx
  | or a b =>
    obtain ⟨ha, hb⟩ := List.forall_mem_append.1 he
    obtain ⟨x, hx, h⟩ := bind_eq_ok.1 h
    split at h
    · cases h
      exact spells_eval hP hscope a ha hx
    · exact spells_eval hP hscope b hb h
  | chain first ops rest =>
    obtain ⟨x, -, h⟩ := bind_eq_ok.1 h
    exact Value.spells_of_isAtom (isAtom_evalChain h)
  | choice test yes no =>
    -- the test only decides: nothing that it is spelled with comes into the result
    obtain ⟨-, he⟩ := List.forall_mem_append.1 he
    obtain ⟨hyes, hno⟩ := List.forall_mem_append.1 he
    obtain ⟨t, -, h⟩ := bind_eq_ok.1 h
    split at h
    · exact spells_eval hP hscope yes hyes h
    · exact spells_eval hP hscope no hno h
  | call f args names named =>
    obtain ⟨-, he⟩ := List.forall_mem_append.1 he
    obtain ⟨hargs, hnamed⟩ := List.forall_mem_append.1 he
    obtain ⟨g, -, h⟩ := bind_eq_ok.1 h
    obtain ⟨vs, hvs, h⟩ := bind_eq_ok.1 h
    obtain ⟨ws, hws, h⟩ := bind_eq_ok.1 h
    refine spells_call hP (spells_evalAll hP hscope args hargs hvs) (fun p hp => ?_) h
    exact spells_evalAll hP hscope named hnamed hws p.2 (List.of_mem_zip hp).2
  | index e i =>
    obtain ⟨he, -⟩ := List.forall_mem_append.1 he
    obtain ⟨x, hx, h⟩ := bind_eq_ok.1 h
    obtain ⟨j, -, h⟩ := bind_eq_ok.1 h
    exact Value.spells_index (spells_eval hP hscope e he hx) h
  | slice e start stop step =>
    obtain ⟨he, -⟩ := List.forall_mem_append.1 he
    obtain ⟨x, hx, h⟩ := bind_eq_ok.1 h
    obtain ⟨i, -, h⟩ := bind_eq_ok.1 h
    obtain ⟨j, -, h⟩ := bind_eq_ok.1 h
    obtain ⟨k, -, h⟩ := bind_eq_ok.1 h
    exact Value.spells_slice (spells_eval hP hscope e he hx) h

theorem spells_evalAll (hP : HoldsOfAscii P) (hscope : SpellsAll P scope) (es : List Expr)
    (hes : ∀ s ∈ textsOfAll es, Spelled P s) {vs : List Value} (h : evalAll scope es = .ok vs) :
    ∀ v ∈ vs, v.Spells P := by
  cases es with
  | nil =>
    cases h
    exact nofun
  | cons e es =>
    obtain ⟨he, hes⟩ := List.forall_mem_append.1 hes
    obtain ⟨v, hv, h⟩ := bind_eq_ok.1 h
    obtain ⟨ws, hws, h⟩ := bind_eq_ok.1 h
    cases h
    exact List.forall_mem_cons.2 ⟨spells_eval hP hscope e he hv, spells_evalAll hP hscope es hes hws⟩

end

end Expr

/-! ## Templates -/

/-- The texts that stand in a piece, in quotes. -/
def Piece.texts : Piece → List String
  | .plain _ => []
  | .formula source => ((parse? source).map Expr.texts).getD []

/-- The texts that stand in the formulas of a template, in quotes. -/
def textsIn (s : String) : List String := (pieces s).flatMap Piece.texts

theorem spells_evaluate (hP : HoldsOfAscii P) (hscope : SpellsAll P scope) {source : List Char}
    (h : ∀ s ∈ (Piece.formula source).texts, Spelled P s) (hv : evaluate scope source = .ok v) : v.Spells P := by
  unfold evaluate at hv
  split at hv
  · cases hv
  · split at hv
    · next e he =>
      rw [Piece.texts, he] at h
      exact e.spells_eval hP hscope h hv
    · cases hv

/-- The plain characters of a template stand in it; a formula that is not closed gives its own back. -/
theorem holds_of_mem_piecesFrom (hP : HoldsOfAscii P) {seen : Option (List Char)} {s : List Char}
    (hseen : ∀ source ∈ seen, ∀ c ∈ source, P c) (hs : ∀ c ∈ s, P c) (h : .plain c ∈ piecesFrom seen s) : P c := by
  fun_induction piecesFrom seen s with
  | case1 => cases h
  | case2 source =>
    rw [List.mem_cons, List.mem_cons, List.mem_map] at h
    rcases h with h | h | ⟨d, hd, h⟩
    · cases h
      exact hP _ (by decide) (by decide)
    · cases h
      exact hP _ (by decide) (by decide)
    · cases h
      exact hseen source rfl c (List.mem_reverse.1 hd)
  | case3 d =>
    cases List.mem_singleton.1 h
    exact hs c (by simp)
  | case4 d e rest _ ih =>
    exact ih (by simp) (fun c hc => hs c (List.mem_cons_of_mem _ (List.mem_cons_of_mem _ hc))) h
  | case5 d e rest _ ih =>
    rcases List.mem_cons.1 h with h | h
    · cases h
      exact hs c (by simp)
    · exact ih (by simp) (fun c hc => hs c (List.mem_cons_of_mem _ hc)) h
  | case6 source d rest _ ih =>
    rcases List.mem_cons.1 h with h | h
    · cases h
    · exact ih (by simp) (fun c hc => hs c (List.mem_cons_of_mem _ hc)) h
  | case7 source d rest _ ih =>
    rw [List.forall_mem_cons] at hs
    refine ih (fun source' hsource' c hc => ?_) hs.2 h
    cases hsource'
    rcases List.mem_cons.1 hc with rfl | hc
    · exact hs.1
    · exact hseen source rfl c hc

theorem spelled_expandAll (hP : HoldsOfAscii P) (hscope : SpellsAll P scope) {ps : List Piece}
    (hplain : ∀ c, .plain c ∈ ps → P c) (htexts : ∀ s ∈ ps.flatMap Piece.texts, Spelled P s) {cs : List Char}
    (h : expandAll scope ps = .ok cs) : ∀ c ∈ cs, P c := by
  induction ps generalizing cs with
  | nil =>
    cases h
    exact nofun
  | cons p ps ih =>
    rw [List.flatMap_cons, List.forall_mem_append] at htexts
    obtain ⟨front, hfront, h⟩ := bind_eq_ok.1 h
    obtain ⟨back, hback, h⟩ := bind_eq_ok.1 h
    cases h
    refine List.forall_mem_append.2 ⟨?_, ih (fun c hc => hplain c (List.mem_cons_of_mem _ hc)) htexts.2 hback⟩
    cases p with
    | plain c =>
      cases hfront
      simpa using hplain c (by simp)
    | formula source =>
      rw [Piece.expand] at hfront
      split at hfront
      · cases hfront
      · next v hv =>
        split at hfront
        · next s hs =>
          cases hfront
          exact Value.spelled_text? hP (spells_evaluate hP hscope htexts.1 hv) hs
        · cases hfront

/-- **What a template expands to** is spelled with its own characters, those of the texts in its formulas, of the values
that they see, and of ASCII. -/
theorem spelled_expand (hP : HoldsOfAscii P) (hscope : SpellsAll P scope) (hs : Spelled P s)
    (htexts : ∀ t ∈ textsIn s, Spelled P t) (h : expand scope s = .ok t) : Spelled P t := by
  obtain ⟨cs, hcs, rfl⟩ := map_eq_ok.1 h
  refine spelled_ofList.2 (spelled_expandAll hP hscope (fun c hc => ?_) htexts hcs)
  exact holds_of_mem_piecesFrom hP (by simp) hs hc

end

end Stitchwork.Formula
