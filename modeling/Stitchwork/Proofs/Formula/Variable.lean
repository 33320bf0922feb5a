/- # Stitchwork.Proofs.Formula.Variable — formulas that are one name.

A text that is a word, in its plain form and not reserved, says the formula that is this name.  Its value is what the
scope has under the name, and if that is what a text says, it can always be written.
-/
import Mathlib.Data.List.TakeWhile
import Stitchwork.Proofs.Formula.Coerce
import Stitchwork.Proofs.Formula.Template
import Stitchwork.Proofs.Markup.Document

namespace Stitchwork.Formula

open Stitchwork.Text

/-- Is the text a name, as formulas write it: a word in its plain form that is not reserved? -/
def isName (p : String) : Bool :=
  (p.toList.head?.map isWordStart).getD false && p.toList.all isWordPart && !reservedWords.contains p &&
    p != debugName && plainForm p == p

/-! ## Characters of words -/

/-- The codes that the first character of a word can have. -/
theorem toNat_of_isWordStart {c : Char} (h : isWordStart c) : 0x41 ≤ c.toNat ∧ c.toNat ≤ 0x5A ∨ 0x5F ≤ c.toNat := by
  have hin := Markup.inRanges_of_insideRanges [(0x41, 0x5A), (0x5F, 0x10FFFF)] (by decide +kernel) h
  simp only [inRanges, covers, List.any_cons, List.any_nil, Bool.or_false, Bool.or_eq_true, Bool.and_eq_true,
    decide_eq_true_eq] at hin
  omega

/-- The characters that begin something else than a word. -/
theorem isWordStart_spec {c : Char} (h : isWordStart c) : (c ≠ ' ' ∧ c ≠ '\t' ∧ c ≠ Char.ofNat 12) ∧
    (c ≠ '\n' ∧ c ≠ '\\' ∧ c ≠ '#') ∧ c ≠ '.' ∧ c ≠ apostrophe ∧ c ≠ doubleQuote := by
  have hcode := toNat_of_isWordStart h
  refine ⟨⟨?_, ?_, ?_⟩, ⟨?_, ?_, ?_⟩, ?_, ?_, ?_⟩ <;> exact fun hc => absurd (hc ▸ hcode) (by decide)

theorem isPlainDigit_eq_false_of_isWordStart {c : Char} (h : isWordStart c) : isPlainDigit c = false := by
  have hcode := toNat_of_isWordStart h
  rw [Bool.eq_false_iff]
  intro hdigit
  have hle := (Number.isPlainDigit_iff.1 hdigit).2
  omega

/-- The characters that can stand in a word keep the place of no surrogate and are no line ends. -/
theorem isWordPart_spec {c : Char} (h : isWordPart c) : keepsPlace c = false ∧ c ≠ '\r' := by
  have hin := Markup.inRanges_of_insideRanges [(0x30, 0xDD7FF), (0xDE000, 0x10FFFF)] (by decide +kernel) h
  simp only [inRanges, covers, List.any_cons, List.any_nil, Bool.or_false, Bool.or_eq_true, Bool.and_eq_true,
    decide_eq_true_eq] at hin
  constructor
  · rw [Bool.eq_false_iff]
    intro hkeeps
    simp only [keepsPlace, isSurrogate, Bool.and_eq_true, decide_eq_true_eq] at hkeeps
    have hshift : surrogateShift = 0xD0000 := rfl
    omega
  · rintro rfl
    have hcode : '\r'.toNat = 13 := by decide
    omega

/-! ## One word -/

section

variable {c : Char} {rest : List Char} (hc : isWordStart c) (hpart : ∀ d ∈ c :: rest, isWordPart d)

include hc

theorem lineBody?_word : lineBody? (c :: rest) = some (c :: rest) := by
  obtain ⟨⟨hblank, htab, hfeed⟩, ⟨hline, hslash, hcomment⟩, -⟩ := isWordStart_spec hc
  have hindent : indentation? 0 0 (c :: rest) = some (0, c :: rest) := by
    unfold indentation?
    split
    · next heq => exact absurd (List.cons.inj heq).1 hblank
    · next heq => exact absurd (List.cons.inj heq).1 htab
    · next heq => exact absurd (List.cons.inj heq).1 hslash
    · next heq =>
      obtain ⟨rfl, rfl⟩ := List.cons.inj heq
      rw [if_neg (by simpa using hfeed)]
      rfl
    · next heq => cases heq
  rw [lineBody?, hindent, Option.bind_some]
  dsimp only
  split <;> rfl

include hpart

theorem takeToken?_word : takeToken? (c :: rest) = some (.word (String.ofList (c :: rest)), []) := by
  obtain ⟨-, -, hpoint, hquote, hdouble⟩ := isWordStart_spec hc
  have htake : (c :: rest).takeWhile isWordPart = c :: rest := List.takeWhile_eq_self_iff.2 hpart
  have hdrop : (c :: rest).dropWhile isWordPart = [] := List.dropWhile_eq_nil_iff.2 hpart
  rw [takeToken?, isPlainDigit_eq_false_of_isWordStart hc]
  simp [hpoint, hquote, hdouble, hc, takeWord?, htake, hdrop]

theorem tokens?_word : tokens? (c :: rest) = some [.word (String.ofList (c :: rest))] := by
  obtain ⟨⟨hblank, htab, -⟩, ⟨hline, hslash, hcomment⟩, -⟩ := isWordStart_spec hc
  have hunify : unifyLineEnds (c :: rest) = c :: rest := by
    have happend := Markup.unifyLineEnds_append_of_not_mem (fun h => (isWordPart_spec (hpart _ h)).2 rfl) []
    rwa [List.append_nil, show unifyLineEnds [] = [] from rfl, List.append_nil] at happend
  rw [tokens?, hunify, List.dropWhile_cons_of_neg (by simp [hblank, htab])]
  rw [tokensFrom, if_pos rfl, lineBody?_word hc]
  split
  · next heq => cases heq
  · next heq => cases heq
  · next heq => exact absurd (List.cons.inj (Option.some.inj heq)).1 hcomment
  · next heq => exact absurd (List.cons.inj (Option.some.inj heq)).1 hline
  · next heq => exact absurd (List.cons.inj (Option.some.inj heq)).1 hslash
  · next heq =>
    rw [← Option.some.inj heq, takeToken?_word hc hpart]
    rfl

end

/-! ## One name -/

section

variable {p : String} (hp : p ∉ reservedWords)

include hp

theorem ne_of_not_reserved {w : String} (hw : w ∈ reservedWords) : p ≠ w := by
  rintro rfl
  exact hp hw

theorem parseAtom_name (hplain : plainForm p = p) (hdebug : p ≠ debugName) (n : Nat) :
    parseAtom (n + 1) [.word p] = some (.name p, []) := by
  have hname : nameExpr? p = some (.name p) := by
    rw [nameExpr?, if_neg (by simpa using hp), hplain]
    dsimp only
    rw [if_neg (by simpa using hdebug)]
  have hne : ∀ w, w ∈ reservedWords → p ≠ w := fun w => ne_of_not_reserved hp
  rw [parseAtom, hname]
  · rfl
  · exact hne "None" (by decide)
  · exact hne "True" (by decide)
  · exact hne "False" (by decide)

theorem parsePower_name (hplain : plainForm p = p) (hdebug : p ≠ debugName) (n : Nat) :
    parsePower (n + 2) [.word p] = some (.name p, []) := by
  rw [parsePower, parseAtom_name hp hplain hdebug]
  rfl

theorem parseBinary_name (hplain : plainForm p = p) (hdebug : p ≠ debugName) (n k level : Nat)
    (hlevel : level + k = binaryLevels.length) : parseBinary (k + (n + 4)) level [.word p] = some (.name p, []) := by
  -- no operator follows, so every level hands the word to the next one
  induction k generalizing level with
  | zero =>
    have hfactor : parseFactor (n + 3) [.word p] = some (.name p, []) := by
      rw [parseFactor, parsePower_name hp hplain hdebug]
      exact nofun
    rw [Nat.zero_add, parseBinary, if_neg (by omega), hfactor]
  | succ k ih =>
    rw [Nat.succ_add, parseBinary, if_pos (by omega), ih (level + 1) (by omega)]
    rfl

theorem parseNot_name (hplain : plainForm p = p) (hdebug : p ≠ debugName) (n : Nat) :
    parseNot (n + 11) [.word p] = some (.name p, []) := by
  have hbinary : parseBinary (n + 10) 0 [.word p] = some (.name p, []) := by
    rw [show n + 10 = 6 + (n + 4) by omega]
    exact parseBinary_name hp hplain hdebug n 6 0 rfl
  rw [parseNot, hbinary]
  · rfl
  · intro rest heq
    exact ne_of_not_reserved hp (show "not" ∈ reservedWords by decide) (Token.word.inj (List.cons.inj heq).1)

/-- A word that is a name says the formula that is the name. -/
theorem parseAll_name (hplain : plainForm p = p) (hdebug : p ≠ debugName) (n : Nat) :
    parseAll (n + 14) [.word p] = some (.name p) := by
  rw [parseAll, parseExpr, parseOr, parseAnd, parseNot_name hp hplain hdebug]

end

/-- **A text that is a name says the formula that is the name.** -/
theorem parse?_name {p : String} (h : isName p) : parse? p.toList = some (.name p) := by
  simp only [isName, Bool.and_eq_true, Bool.not_eq_true', bne_iff_ne, ne_eq, beq_iff_eq] at h
  obtain ⟨⟨⟨⟨hstart, hpart⟩, hfree⟩, hdebug⟩, hplain⟩ := h
  cases hp : p.toList with
  | nil => simp [hp] at hstart
  | cons c rest =>
    rw [hp] at hstart hpart
    rw [parse?, tokens?_word hstart (List.all_eq_true.1 hpart), ← hp, String.ofList_toList]
    exact parseAll_name (by simpa using hfree) hplain hdebug _

/-- The value of a name is what the scope has under it. -/
theorem evaluate_name {p : String} (h : isName p) (scope : Scope) : evaluate scope p.toList = lookup scope p := by
  have hpart : ∀ c ∈ p.toList, isWordPart c := by
    simp only [isName, Bool.and_eq_true] at h
    exact List.all_eq_true.1 h.1.1.1.2
  have hcharacters : hasSurrogates p.toList = false := by
    rw [hasSurrogates, List.any_eq_false]
    intro c hc
    rw [(isWordPart_spec (hpart c hc)).1]
    exact Bool.false_ne_true
  rw [evaluate, hcharacters, parse?_name h]
  rfl

/-- The place of a number in a scope does not show in its text. -/
theorem text?_placed_coerce (v name : String) : ((coerce v).placed name []).text? = (coerce v).text? := by
  rw [coerce]
  cases Number.readInt? v with
  | some n => rfl
  | none =>
    cases Number.readBinary64? v with
    | none => rfl
    | some x => cases x <;> rfl

/-- A name that stands for what a text says expands to the text of that. -/
theorem expand_name_of_coerce {p : String} (h : isName p) {scope : Scope} {v : String}
    (hget : scope.get? p = some (coerce v)) :
    ∃ t, (coerce v).text? = some t ∧ Piece.expand scope (.formula p.toList) = .ok t.toList := by
  obtain ⟨t, ht, -⟩ := coerce_spec v
  refine ⟨t, ht, ?_⟩
  rw [Piece.expand, evaluate_name h, lookup, hget]
  simp only [text?_placed_coerce, ht]

end Stitchwork.Formula
