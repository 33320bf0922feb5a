/- # Stitchwork.Proofs.Markup.Plain — documents taken byte by byte.

A text whose bytes are all plain has one character for each of them.  Reading a document in this way gives what reading
it gives, and takes time in proportion to its length, so that closed examples can be evaluated.
-/
import Stitchwork.Markup.Reader

namespace Stitchwork.Text

/-- The characters of a text, taken byte by byte where every byte is a character. -/
def plainChars (s : String) : List Char :=
  let bytes := s.toByteArray.data.toList
  if bytes.all (· < 128) then bytes.map fun b => Char.ofNat b.toNat else s.toList

theorem bytes_ofList (cs : List Char) :
    (String.ofList cs).toByteArray.data.toList = cs.flatMap String.utf8EncodeChar := by
  change (cs.flatMap String.utf8EncodeChar).toByteArray.data.toList = _
  simp

/-- A character whose bytes are all plain is its only byte. -/
theorem map_utf8EncodeChar {c : Char} (h : (String.utf8EncodeChar c).all (· < 128)) :
    (String.utf8EncodeChar c).map (fun b => Char.ofNat b.toNat) = [c] := by
  rw [String.utf8EncodeChar] at h ⊢
  by_cases hc : c.val.toNat ≤ 127
  · rw [if_pos hc, List.map_singleton, UInt8.toNat_ofNat_of_lt' (show _ < 256 by omega)]
    exact congrArg (fun x => [x]) (Char.ofNat_toNat c)
  · -- the first of several bytes is not plain
    rw [if_neg hc] at h
    split at h
    · simp [UInt8.lt_iff_toNat_lt] at h
      omega
    · split at h
      · simp [UInt8.lt_iff_toNat_lt] at h
        omega
      · simp [UInt8.lt_iff_toNat_lt] at h
        omega

theorem plainChars_ofList (cs : List Char) : plainChars (String.ofList cs) = cs := by
  rw [plainChars, bytes_ofList]
  split
  · next h =>
    induction cs with
    | nil => rfl
    | cons c cs ih =>
      rw [List.flatMap_cons, List.all_append, Bool.and_eq_true] at h
      rw [List.flatMap_cons, List.map_append, map_utf8EncodeChar h.1, ih h.2, List.singleton_append]
  · exact String.toList_ofList

theorem plainChars_eq_toList (s : String) : plainChars s = s.toList := by
  have hchars := plainChars_ofList s.toList
  rwa [String.ofList_toList] at hchars

end Stitchwork.Text

namespace Stitchwork.Markup

open Stitchwork.Text

/-- The tokens of a document that is given by its characters. -/
def charTokens (cs : List Char) : List Token :=
  let cs := unifyLineEnds cs
  let cs := match cs with
    | c :: rest => if c.toNat == 0xFEFF then rest else c :: rest
    | [] => []
  tokensFrom (cs.length + 2) .start cs

/-- Reads a document byte by byte where that can be done. -/
def readPlain (s : String) : Except Fault Element := build [] [("xml", xmlNamespace)] none (charTokens (plainChars s))

theorem readPlain_eq_read (s : String) : readPlain s = read s := by
  rw [readPlain, plainChars_eq_toList]
  rfl

end Stitchwork.Markup
