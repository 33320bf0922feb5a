/- # Stitchwork.Text.Base64 — bytes as text.

Writing follows the standard alphabet with padding.  Reading is lenient: characters outside the alphabet
are passed over, padding that completes a group ends the text, and padding that does not is passed over
too.  Only a text that ends inside a group is refused.
-/

namespace Stitchwork.Text.Base64

/-- The characters of the alphabet, in the order of their values. -/
def alphabet : List Char :=
  "ABCDEFGHIJKLMNOPQRSTUVWXYZabcdefghijklmnopqrstuvwxyz0123456789+/".toList

/-- The character of a value below sixty-four. -/
def digit (n : Nat) : Char := alphabet.getD n '='

/-- Bytes as text. -/
def encodeBytes : List UInt8 → List Char
  | [] => []
  | [a] => [digit (a.toNat / 4), digit (a.toNat % 4 * 16), '=', '=']
  | [a, b] =>
    [digit (a.toNat / 4), digit (a.toNat % 4 * 16 + b.toNat / 16), digit (b.toNat % 16 * 4), '=']
  | a :: b :: c :: rest =>
    digit (a.toNat / 4) :: digit (a.toNat % 4 * 16 + b.toNat / 16) ::
      digit (b.toNat % 16 * 4 + c.toNat / 64) :: digit (c.toNat % 64) :: encodeBytes rest

/-- Bytes as text. -/
def encode (bs : List UInt8) : String := String.ofList (encodeBytes bs)

/-- The value of a code in the alphabet. -/
def sextet? (n : Nat) : Option Nat :=
  if 65 ≤ n && n ≤ 90 then some (n - 65)
  else if 97 ≤ n && n ≤ 122 then some (n - 71)
  else if 48 ≤ n && n ≤ 57 then some (n + 4)
  else if n == 43 then some 62
  else if n == 47 then some 63
  else none

/-- Reads codes: `pos` digits of a group have been read, with the bits `left` of the last one not yet
used; `pads` padding signs stand behind them; `done` holds the bytes so far, in reverse. -/
def decodeFrom (pos left pads : Nat) (done : List UInt8) : List Nat → Option (List UInt8)
  | [] => if pos = 0 then some done.reverse else none
  | n :: rest =>
    if n == 61 then
      if pos < 2 then decodeFrom pos left pads done rest
      else if 4 ≤ pos + (pads + 1) then some done.reverse
      else decodeFrom pos left (pads + 1) done rest
    else
      match sextet? n with
      | none => decodeFrom pos left pads done rest
      | some v =>
        match pos with
        | 0 => decodeFrom 1 v 0 done rest
        | 1 => decodeFrom 2 (v % 16) 0 (UInt8.ofNat (left * 4 + v / 16) :: done) rest
        | 2 => decodeFrom 3 (v % 4) 0 (UInt8.ofNat (left * 16 + v / 4) :: done) rest
        | _ => decodeFrom 0 0 0 (UInt8.ofNat (left * 64 + v) :: done) rest

/-- The bytes that a text of bytes says. -/
def decodeBytes? (bs : List UInt8) : Option (List UInt8) := decodeFrom 0 0 0 [] (bs.map (·.toNat))

/-- The bytes that a text says. -/
def decode? (s : String) : Option (List UInt8) := decodeFrom 0 0 0 [] (s.toList.map (·.toNat))

end Stitchwork.Text.Base64
