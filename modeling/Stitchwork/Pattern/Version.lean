/- # Stitchwork.Pattern.Version — version numbers.

A version has a release, `1.2.3`, perhaps an epoch in front of it, and perhaps a pre-release, a post-release, a
development release and a local part behind it.  Many spellings are read; one is written.
-/
import Stitchwork.Number.Read
import Stitchwork.Text.Blank
import Stitchwork.Text.Pieces

namespace Stitchwork.Pattern

open Stitchwork.Number Stitchwork.Text

/-- Kinds of pre-releases. -/
inductive PreRelease where
  | alpha | beta | candidate
deriving DecidableEq, Repr

/-- A part of a local version: a number, or letters and digits. -/
inductive LocalPart where
  | number (n : Nat)
  | word (s : String)
deriving DecidableEq, Repr

/-- A version. -/
structure Version where
  epoch : Nat
  release : List Nat
  pre : Option (PreRelease × Nat)
  post : Option Nat
  dev : Option Nat
  localParts : List LocalPart
deriving DecidableEq, Repr

namespace Version

/-! ## Writing -/

/-- The letters of a pre-release. -/
def preText : PreRelease → String
  | .alpha => "a"
  | .beta => "b"
  | .candidate => "rc"

/-- A part of a local version as text. -/
def localText : LocalPart → String
  | .number n => natText n
  | .word s => s

/-- The one spelling of a version. -/
def text (v : Version) : String :=
  (if v.epoch = 0 then "" else natText v.epoch ++ "!") ++
  join "." (v.release.map natText) ++
  (match v.pre with
    | some (k, n) => preText k ++ natText n
    | none => "") ++
  (match v.post with
    | some n => ".post" ++ natText n
    | none => "") ++
  (match v.dev with
    | some n => ".dev" ++ natText n
    | none => "") ++
  (if v.localParts.isEmpty then "" else "+" ++ join "." (v.localParts.map localText))

/-- The version of a pattern that says none. -/
def first : Version := ⟨0, [1, 0], none, none, none, []⟩

/-! ## Reading -/

/-- Digits at the front, and the rest. -/
def takeNumber (s : List Char) : List Char × List Char :=
  (s.takeWhile isPlainDigit, s.dropWhile isPlainDigit)

/-- Separators inside a version. -/
def isSeparator (c : Char) : Bool := c == '-' || c == '_' || c == '.'

/-- The text without a separator in front. -/
def dropSeparator : List Char → List Char
  | c :: rest => if isSeparator c then rest else c :: rest
  | [] => []

/-- A letter of a label: the long s counts as an s. -/
def labelLetter (c : Char) : Char := if c == Char.ofNat 0x17F then 's' else c

/-- Takes a label off the front of the text. -/
def afterLabel? : List Char → List Char → Option (List Char)
  | [], s => some s
  | _ :: _, [] => none
  | a :: w, b :: s => if a == labelLetter b then afterLabel? w s else none

/-- The first of the words that the text begins with, and the rest. -/
def takeWordOf {α : Type} (words : List (String × α)) (s : List Char) : Option (α × List Char) :=
  words.findSome? fun (w, a) => (afterLabel? w.toList s).map (a, ·)

/-- A label among `words`, perhaps with a separator in front, a separator behind it, and a number; no
number counts as zero. -/
def takeLabel {α : Type} (words : List (String × α)) (s : List Char) :
    Option (α × Nat) × List Char :=
  match takeWordOf words (dropSeparator s) with
  | some (a, rest) =>
    let (ds, after) := takeNumber (dropSeparator rest)
    (some (a, digitsValue ds), after)
  | none => (none, s)

/-- The kinds of pre-releases, by their labels. -/
def preWords : List (String × PreRelease) :=
  [("alpha", .alpha), ("a", .alpha), ("beta", .beta), ("b", .beta), ("preview", .candidate),
   ("pre", .candidate), ("c", .candidate), ("rc", .candidate)]

/-- The labels of post-releases. -/
def postWords : List (String × Unit) := [("post", ()), ("rev", ()), ("r", ())]

/-- The labels of development releases. -/
def devWords : List (String × Unit) := [("dev", ())]

/-- A post-release: a label, or a hyphen and a number. -/
def takePost (s : List Char) : Option Nat × List Char :=
  let labelled : Option Nat × List Char :=
    let (r, rest) := takeLabel postWords s
    (r.map (·.2), rest)
  match s with
  | '-' :: rest =>
    match takeNumber rest with
    | ([], _) => labelled
    | (ds, after) => (some (digitsValue ds), after)
  | _ => labelled

/-- The numbers of a release behind the first one. -/
def takeRelease : Nat → List Char → List Nat × List Char
  | 0, s => ([], s)
  | fuel + 1, s =>
    match s with
    | '.' :: rest =>
      match takeNumber rest with
      | ([], _) => ([], s)
      | (ds, after) =>
        let (ns, after) := takeRelease fuel after
        (digitsValue ds :: ns, after)
    | _ => ([], s)

/-- Letters and digits, in lower case.  The dotless i, the dotted capital i and the long s count as letters
too. -/
def isLocalChar (c : Char) : Bool :=
  ('a' ≤ c && c ≤ 'z') || isPlainDigit c ||
    c == Char.ofNat 0x131 || c == Char.ofNat 0x130 || c == Char.ofNat 0x17F

/-- A character of a local version as it is written: the dotted capital i becomes an i and its dot. -/
def localLetters (c : Char) : List Char :=
  if c == Char.ofNat 0x130 then ['i', Char.ofNat 0x307] else [c]

/-- A letter in lower case; the sign for kelvin becomes a k. -/
def lowerLetter (c : Char) : Char := if c == Char.ofNat 0x212A then 'k' else c.toLower

/-- The parts of a local version, which are not empty. -/
def takeLocal : Nat → List Char → Option (List LocalPart)
  | 0, _ => none
  | fuel + 1, s =>
    let word := s.takeWhile isLocalChar
    let part : LocalPart :=
      if word.all isPlainDigit then .number (digitsValue word)
      else .word (String.ofList (word.flatMap localLetters))
    if word.isEmpty then none
    else match s.dropWhile isLocalChar with
      | [] => some [part]
      | c :: rest => if isSeparator c then (takeLocal fuel rest).map (part :: ·) else none

/-- The text without a v in front. -/
def dropV : List Char → List Char
  | 'v' :: rest => rest
  | cs => cs

/-- An epoch at the front, zero if there is none, and the rest. -/
def takeEpoch (cs : List Char) : Nat × List Char :=
  match takeNumber cs with
  | ([], _) => (0, cs)
  | (ds, '!' :: rest) => (digitsValue ds, rest)
  | _ => (0, cs)

/-- Reads what stands behind the epoch. -/
def parseFrom (epoch : Nat) (cs : List Char) : Option Version :=
  match takeNumber cs with
  | ([], _) => none
  | (ds, cs) =>
    let (ns, cs) := takeRelease cs.length cs
    let (pre, cs) := takeLabel preWords cs
    let (post, cs) := takePost cs
    let (dev, cs) := takeLabel devWords cs
    let version (parts : List LocalPart) : Version :=
      ⟨epoch, digitsValue ds :: ns, pre, post, dev.map (·.2), parts⟩
    match cs with
    | [] => some (version [])
    | '+' :: rest => (takeLocal (rest.length + 1) rest).map version
    | _ => none

/-- Reads a version in any spelling. -/
def parse? (s : String) : Option Version :=
  let (epoch, cs) := takeEpoch (dropV ((trimBy isBlank s.toList).map lowerLetter))
  parseFrom epoch cs

/-- Are there more than `limit` digits in a row?  `run` counts those right before the text. -/
def hasLongRun (limit : Nat) : Nat → List Char → Bool
  | run, [] => decide (limit < run)
  | run, c :: rest =>
    if isPlainDigit c then hasLongRun limit (run + 1) rest
    else decide (limit < run) || hasLongRun limit 0 rest

/-- Does the text hold a number with more digits than are read? -/
def isTooLong (s : String) : Bool := hasLongRun maxDigits 0 s.toList

end Version

end Stitchwork.Pattern
