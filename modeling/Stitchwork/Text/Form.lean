/- # Stitchwork.Text.Form — one form for all writings of a name.

A name can be written in more than one way: with ligatures, with wide or ornamented letters, with a letter
and a mark behind it or with both in one.  Its plain form is found in three steps.  Every character is
decomposed; the marks behind a letter are put into the order of their classes, where those of one class
keep their order; and letters are composed with the marks that can reach them.
-/
import Stitchwork.Text.FormTable

namespace Stitchwork.Text

/-! ## Syllables of Hangul -/

/-- The first syllable. -/
def firstSyllable : Nat := 0xAC00

/-- The number of syllables. -/
def syllableCount : Nat := 11172

/-- The first leading consonant. -/
def firstLead : Nat := 0x1100

/-- The first vowel. -/
def firstVowel : Nat := 0x1161

/-- The code in front of the first trailing consonant, which stands for none. -/
def firstTrail : Nat := 0x11A7

/-- The number of leading consonants. -/
def leadCount : Nat := 19

/-- The number of vowels. -/
def vowelCount : Nat := 21

/-- The number of trailing consonants, with none among them. -/
def trailCount : Nat := 28

/-- The parts of a syllable: two, or three if it has a trailing consonant. -/
def syllableParts (n : Nat) : List Nat :=
  let i := n - firstSyllable
  let lead := firstLead + i / (vowelCount * trailCount)
  let vowel := firstVowel + i % (vowelCount * trailCount) / trailCount
  let trail := i % trailCount
  if trail = 0 then [lead, vowel] else [lead, vowel, firstTrail + trail]

/-- A leading consonant and a vowel, or such a syllable and a trailing consonant, as a syllable. -/
def joinSyllable? (a b : Nat) : Option Nat :=
  if firstLead ≤ a && a < firstLead + leadCount && firstVowel ≤ b && b < firstVowel + vowelCount then
    some (firstSyllable + ((a - firstLead) * vowelCount + (b - firstVowel)) * trailCount)
  else if firstSyllable ≤ a && a < firstSyllable + syllableCount && (a - firstSyllable) % trailCount = 0 &&
      firstTrail < b && b < firstTrail + trailCount then
    some (a + (b - firstTrail))
  else none

/-! ## The three steps -/

/-- What a code is decomposed into. -/
def decompose (n : Nat) : List Nat :=
  if firstSyllable ≤ n && n < firstSyllable + syllableCount then syllableParts n
  else (decompositions.lookup n).getD [n]

/-- The class of a combining mark; zero for all that is no mark. -/
def markClass (n : Nat) : Nat :=
  ((markClasses.find? fun (first, last, _) => first ≤ n && n ≤ last).map (·.2.2)).getD 0

/-- Puts a code behind a text that is given in reverse.  A mark goes in front of the marks of higher
classes. -/
def putInOrder (n : Nat) : List Nat → List Nat
  | [] => [n]
  | m :: before =>
    if 0 < markClass n && markClass n < markClass m then m :: putInOrder n before
    else n :: m :: before

/-- The codes with the marks in the order of their classes. -/
def inMarkOrder (codes : List Nat) : List Nat :=
  (codes.foldl (fun before n => putInOrder n before) []).reverse

/-- What two codes are composed to. -/
def compose? (a b : Nat) : Option Nat := (joinSyllable? a b).or (compositions.lookup (a, b))

/-- Does a code reach the letter in front of the marks `between`, which are given in reverse?  A mark of
its own class or a higher one is in its way. -/
def reaches (between : List Nat) (n : Nat) : Bool :=
  match between with
  | [] => true
  | m :: _ => markClass m < markClass n

/-- Composes the letter `a`, the marks `between` that it has not taken up, in reverse, and the codes behind
them. -/
def composeFrom (a : Nat) (between : List Nat) : List Nat → List Nat
  | [] => a :: between.reverse
  | n :: rest =>
    match if reaches between n then compose? a n else none with
    | some c => composeFrom c between rest
    | none =>
      if markClass n = 0 then a :: (between.reverse ++ composeFrom n [] rest)
      else composeFrom a (n :: between) rest

/-- The codes with letters and marks composed. -/
def composeAll : List Nat → List Nat
  | [] => []
  | n :: rest => composeFrom n [] rest

/-- The plain form of a name; one in the first 128 characters is plain already. -/
def plainForm (s : String) : String :=
  let codes := s.toList.map Char.toNat
  if codes.all (· < 0x80) then s
  else String.ofList ((composeAll (inMarkOrder (codes.flatMap decompose))).map Char.ofNat)

/-- A name of the first 128 characters is its own plain form. -/
theorem plainForm_of_ascii (s : String) (h : (s.toList.map Char.toNat).all (· < 0x80) = true) :
    plainForm s = s := by
  simp [plainForm, h]

end Stitchwork.Text
