/- # Stitchwork.Markup.Token — the tokens of a document.

A text is cut into tokens from left to right.  Where it cannot be cut further, the last token is the fault,
so that whatever reads the tokens meets the faults of the text in order.  Line ends are unified
beforehand.
-/
import Stitchwork.Markup.Fault
import Stitchwork.Markup.NameChar
import Stitchwork.Text.Pieces

namespace Stitchwork.Markup

open Stitchwork.Text (cutOnce? unifyLineEnds)

/-- What a piece of text is made of: runs of characters, and references. -/
inductive Chunk where
  | chars (cs : List Char)
  | code (n : Nat)
  | entity (name : String)
deriving DecidableEq, Repr

/-- A token of a document. -/
inductive Token where
  /-- A start tag; `closed` if it is an end tag too. -/
  | start (name : String) (attrs : List (String × List Chunk)) (closed : Bool)
  | stop (name : String)
  | chunk (c : Chunk)
  | cdata (s : List Char)
  | comment (s : List Char)
  | instruction (target : String) (data : List Char)
  | fault (f : Fault)
deriving DecidableEq, Repr

/-! ## Names and references -/

/-- A name without a colon. -/
def takeName (s : List Char) : Except Fault (List Char × List Char) :=
  match s with
  | [] => .error .unclosedToken
  | c :: _ =>
    if isNameStart c then .ok (s.takeWhile isNamePart, s.dropWhile isNamePart)
    else .error .invalidToken

/-- A name with at most one colon inside. -/
def takeQualifiedName (s : List Char) : Except Fault (List Char × List Char) := do
  let (p, rest) ← takeName s
  match rest with
  | ':' :: rest => do
    let (l, rest) ← takeName rest
    .ok (p ++ ':' :: l, rest)
  | rest => .ok (p, rest)

/-- The value of a hexadecimal digit. -/
def hexDigit? (c : Char) : Option Nat :=
  if '0' ≤ c && c ≤ '9' then some (c.toNat - '0'.toNat)
  else if 'a' ≤ c && c ≤ 'f' then some (c.toNat - 'a'.toNat + 10)
  else if 'A' ≤ c && c ≤ 'F' then some (c.toNat - 'A'.toNat + 10)
  else none

/-- The value of a digit in base ten or sixteen. -/
def digitIn (base : Nat) (c : Char) : Option Nat :=
  (hexDigit? c).bind fun d => if d < base then some d else none

/-- Digits up to a semicolon, behind a number that has been read so far. -/
def takeCode (base acc : Nat) : List Char → Except Fault (Chunk × List Char)
  | [] => .error .unclosedToken
  | ';' :: rest => .ok (.code acc, rest)
  | c :: rest =>
    match digitIn base c with
    | some d => takeCode base (base * acc + d) rest
    | none => .error .invalidToken

/-- The number of a character reference; it has at least one digit. -/
def takeFirstCode (base : Nat) : List Char → Except Fault (Chunk × List Char)
  | [] => .error .unclosedToken
  | c :: rest =>
    match digitIn base c with
    | some d => takeCode base d rest
    | none => .error .invalidToken

/-- A reference behind its ampersand. -/
def takeReference (s : List Char) : Except Fault (Chunk × List Char) :=
  match s with
  | '#' :: 'x' :: rest => takeFirstCode 16 rest
  | '#' :: rest => takeFirstCode 10 rest
  | s => do
    let (name, rest) ← takeName s
    match rest with
    | [] => .error .unclosedToken
    | ';' :: rest => .ok (.entity (String.ofList name), rest)
    | _ => .error .invalidToken

/-! ## Tags -/

/-- Can `c` stand for itself in a value between the given quotes? -/
def isValueChar (quote c : Char) : Bool := c != quote && c != '<' && c != '&' && isMarkupChar c

/-- The value of an attribute up to its closing quote. -/
def takeValue (quote : Char) : Nat → List Char → Except Fault (List Chunk × List Char)
  | 0, _ => .error .unclosedToken
  | _ + 1, [] => .error .unclosedToken
  | fuel + 1, c :: rest =>
    if c == quote then .ok ([], rest)
    else if c == '&' then do
      let (r, rest) ← takeReference rest
      let (cs, rest) ← takeValue quote fuel rest
      .ok (r :: cs, rest)
    else if isValueChar quote c then do
      let run := rest.takeWhile (isValueChar quote)
      let (cs, rest) ← takeValue quote fuel (rest.dropWhile (isValueChar quote))
      .ok (.chars (c :: run) :: cs, rest)
    else .error .invalidToken

/-- The end of a start tag: whether the element is closed at once. -/
def takeTagEnd (s : List Char) : Except Fault (Bool × List Char) :=
  match s with
  | [] => .error .unclosedToken
  | '>' :: rest => .ok (false, rest)
  | '/' :: [] => .error .unclosedToken
  | '/' :: '>' :: rest => .ok (true, rest)
  | _ => .error .invalidToken

/-- An attribute: a name, an equals sign and a quoted value. -/
def takeAttr (s : List Char) : Except Fault ((String × List Chunk) × List Char) := do
  let (name, rest) ← takeQualifiedName s
  match rest.dropWhile isSpace with
  | [] => .error .unclosedToken
  | '=' :: rest =>
    match rest.dropWhile isSpace with
    | [] => .error .unclosedToken
    | c :: rest =>
      if c.toNat == 0x22 || c.toNat == 0x27 then do
        let (value, rest) ← takeValue c (rest.length + 1) rest
        .ok ((String.ofList name, value), rest)
      else .error .invalidToken
  | _ => .error .invalidToken

/-- The attributes of a start tag and its end.  White space stands in front of each attribute. -/
def takeAttrs : Nat → List Char → Except Fault ((List (String × List Chunk) × Bool) × List Char)
  | 0, _ => .error .unclosedToken
  | fuel + 1, s =>
    match s with
    | [] => .error .unclosedToken
    | c :: _ =>
      if isSpace c then
        match s.dropWhile isSpace with
        | [] => .error .unclosedToken
        | d :: rest =>
          if isNameStart d then do
            let (a, rest) ← takeAttr (d :: rest)
            let ((as, closed), rest) ← takeAttrs fuel rest
            .ok ((a :: as, closed), rest)
          else do
            let (closed, rest) ← takeTagEnd (d :: rest)
            .ok (([], closed), rest)
      else do
        let (closed, rest) ← takeTagEnd s
        .ok (([], closed), rest)

/-- A start tag behind its opening bracket. -/
def takeStart (s : List Char) : Except Fault (Token × List Char) := do
  let (name, rest) ← takeQualifiedName s
  let ((attrs, closed), rest) ← takeAttrs (rest.length + 1) rest
  .ok (.start (String.ofList name) attrs closed, rest)

/-- An end tag behind its slash; any number of colons may stand in the name. -/
def takeStop (s : List Char) : Except Fault (Token × List Char) :=
  match s with
  | [] => .error .unclosedToken
  | c :: _ =>
    if !isNameStart c then .error .invalidToken
    else
      let inName (c : Char) : Bool := isNamePart c || c == ':'
      match (s.dropWhile inName).dropWhile isSpace with
      | [] => .error .unclosedToken
      | '>' :: rest => .ok (.stop (String.ofList (s.takeWhile inName)), rest)
      | _ => .error .invalidToken

/-! ## Comments, character data and instructions -/

/-- A text up to the first occurrence of `stop`, which is then dropped; every character in it must be
one that a document can hold. -/
def takeUntil (stop : List Char) (missing : Fault) (s : List Char) : Except Fault (List Char × List Char) :=
  match cutOnce? stop s with
  | some (body, rest) => if body.all isMarkupChar then .ok (body, rest) else .error .invalidToken
  | none => if s.all isMarkupChar then .error missing else .error .invalidToken

/-- A comment behind its opening; two hyphens can only stand at its end. -/
def takeComment (s : List Char) : Except Fault (List Char × List Char) := do
  let (body, rest) ← takeUntil ['-', '-'] .unclosedToken s
  match rest with
  | [] => .error .unclosedToken
  | '>' :: rest => .ok (body, rest)
  | _ => .error .invalidToken

/-- Character data up to its closing. -/
def takeCdata (s : List Char) : Except Fault (List Char × List Char) :=
  takeUntil [']', ']', '>'] .unclosedCdata s

/-- The data of an instruction up to its closing. -/
def takeData (s : List Char) : Except Fault (List Char × List Char) :=
  takeUntil ['?', '>'] .unclosedToken s

/-- Is the target reserved, being `xml` with some capital in it? -/
def isReservedTarget (target : List Char) : Bool :=
  target != ['x', 'm', 'l'] && target.map Char.toLower == ['x', 'm', 'l']

/-- An instruction behind its opening: its target, the blanks and data behind it, and the rest. -/
def takeInstruction (s : List Char) : Except Fault ((List Char × List Char) × List Char) := do
  let (target, rest) ← takeName s
  match rest with
  | [] => .error .unclosedToken
  | c :: after =>
    if isSpace c then
      if isReservedTarget target then .error .invalidToken
      else do
        let (data, after) ← takeData rest
        .ok ((target, data), after)
    else if c == '?' then
      if isReservedTarget target then .error .invalidToken
      else match after with
        | [] => .error .unclosedToken
        | '>' :: after => .ok ((target, []), after)
        | _ => .error .invalidToken
    else .error .invalidToken

/-! ## The declaration in front of a document -/

/-- Characters in the values of a declaration. -/
def isDeclarationChar (c : Char) : Bool :=
  ('a' ≤ c && c ≤ 'z') || ('A' ≤ c && c ≤ 'Z') || ('0' ≤ c && c ≤ '9') || c == '.' || c == '-' || c == '_'

/-- The next name and value of a declaration: `some none` at its end, `none` if it is malformed. -/
def takeSetting? (s : List Char) : Option (Option (List Char × List Char × List Char)) :=
  match s with
  | [] => some none
  | c :: _ =>
    if !isSpace c then none
    else match s.dropWhile isSpace with
      | [] => some none
      | s =>
        let inName (c : Char) : Bool := c != '=' && !isSpace c
        let name := s.takeWhile inName
        match (s.dropWhile inName).dropWhile isSpace with
        | '=' :: rest =>
          if name.isEmpty then none
          else match rest.dropWhile isSpace with
            | q :: rest =>
              if q.toNat == 0x22 || q.toNat == 0x27 then
                match rest.dropWhile isDeclarationChar with
                | d :: after =>
                  if d == q then some (some (name, rest.takeWhile isDeclarationChar, after)) else none
                | [] => none
              else none
            | [] => none
        | _ => none

/-- Is `s` a value of `standalone` and then the end? -/
def isStandaloneEnd (name value rest : List Char) : Bool :=
  name == "standalone".toList && (value == "yes".toList || value == "no".toList) &&
    (rest.dropWhile isSpace).isEmpty

/-- Does the text between `<?xml` and its end make a declaration: a version, then perhaps an encoding,
then perhaps whether the document stands alone? -/
def isDeclaration (s : List Char) : Bool :=
  match takeSetting? s with
  | some (some (name, _, rest)) =>
    name == "version".toList &&
      match takeSetting? rest with
      | some none => true
      | some (some (name, value, rest)) =>
        if name == "encoding".toList then
          (match value with
            | c :: _ => ('a' ≤ c && c ≤ 'z') || ('A' ≤ c && c ≤ 'Z')
            | [] => false) &&
          match takeSetting? rest with
          | some none => true
          | some (some (name, value, rest)) => isStandaloneEnd name value rest
          | none => false
        else isStandaloneEnd name value rest
      | none => false
  | _ => false

/-! ## Outside the root -/

/-- What comes next outside the root. -/
inductive Outside where
  | nothing
  | skip (rest : List Char)
  | start (s : List Char)
  | declaration (data : List Char) (rest : List Char)
  | reference
  | other
  | fault (f : Fault)

/-- Is the word a name, with a prefix or without one? -/
def isLooseName (word : List Char) : Bool :=
  let pieces := Text.cut (String.ofList word) ":"
  pieces.length ≤ 2 && (pieces.head?.bind (·.toList.head?)).any isNameStart && pieces.all (!·.isEmpty)

/-- Is the word a prefix and its colon, with the local part still to come? -/
def endsInPrefix (word : List Char) : Bool :=
  word.head?.any isNameStart && word.dropWhile isNamePart == [':']

/-- Looks at a word outside the root: it is out of place, or not even a word.  Behind a name there may be a
sign of repetition. -/
def looseWord (s : List Char) : Outside :=
  let isPart (c : Char) := isNamePart c || c == ':'
  match s.dropWhile isPart with
  | [] => if endsInPrefix s then .fault .unclosedToken else .other
  | c :: _ =>
    if isSpace c || ['>', ')', ',', '|', '[', '%'].contains c then .other
    else if ['+', '*', '?'].contains c && isLooseName (s.takeWhile isPart) then .other
    else .fault .invalidToken

/-- Looks at a name behind a number sign outside the root. -/
def looseKeyword (s : List Char) : Outside :=
  match s with
  | [] => .fault .unclosedToken
  | c :: _ =>
    if !isNameStart c then .fault .invalidToken
    else match s.dropWhile isNamePart with
      | [] => .other
      | d :: _ => if isSpace d || ['>', ')', '|', '%'].contains d then .other else .fault .invalidToken

/-- Looks at what stands behind a percent sign outside the root. -/
def looseReference (s : List Char) : Outside :=
  match s with
  | [] => .fault .unclosedToken
  | c :: _ =>
    if isSpace c || c == '%' then .other
    else if !isNameStart c then .fault .invalidToken
    else match s.dropWhile isNamePart with
      | [] => .fault .unclosedToken
      | d :: _ => if d == ';' then .reference else .fault .invalidToken

/-- Letters of the keywords of declarations. -/
def isKeywordChar (c : Char) : Bool := c.isAlpha || c == '_'

/-- Looks at a declaration outside the root, behind its opening; no declaration is known. -/
def looseDeclaration (s : List Char) : Outside :=
  match s with
  | [] => .fault .unclosedToken
  | ['-'] => .fault .unclosedToken
  | '[' :: _ => .other
  | c :: _ =>
    if !isKeywordChar c then .fault .invalidToken
    else match s.dropWhile isKeywordChar with
      | [] => .fault .unclosedToken
      | ['%'] => .fault .unclosedToken
      | '%' :: d :: _ => if isSpace d || d == '%' then .fault .invalidToken else .other
      | d :: _ => if isSpace d then .other else .fault .invalidToken

/-- Looks at a quoted text outside the root. -/
def looseLiteral (quote : Char) (s : List Char) : Outside :=
  match s.dropWhile fun c => c != quote && isMarkupChar c with
  | [] => .fault .unclosedToken
  | c :: rest =>
    if c != quote then .fault .invalidToken
    else match rest with
      | [] => .other
      | d :: _ => if isSpace d || ['>', '%', '['].contains d then .other else .fault .invalidToken

/-- Does `c` behind an opening bracket say that a start tag begins?  Outside the root every character beyond
the first 128 does, whether a name can begin with it or not. -/
def beginsTag (c : Char) : Bool := isNameStart c || 0x80 ≤ c.toNat

/-- Looks at what comes next outside the root. -/
def outside (s : List Char) : Outside :=
  match s with
  | [] => .nothing
  | '<' :: '!' :: '-' :: '-' :: rest =>
    match takeComment rest with
    | .ok (_, rest) => .skip rest
    | .error f => .fault f
  | '<' :: '!' :: rest => looseDeclaration rest
  | '<' :: '?' :: rest =>
    match takeInstruction rest with
    | .ok ((target, data), rest) =>
      if target == ['x', 'm', 'l'] then .declaration data rest else .skip rest
    | .error f => .fault f
  | ['<'] => .fault .unclosedToken
  | '<' :: c :: rest => if beginsTag c then .start (c :: rest) else .fault .invalidToken
  | c :: rest =>
    if isSpace c then .skip (rest.dropWhile isSpace)
    else if c.toNat == 0x22 || c.toNat == 0x27 then looseLiteral c rest
    else if [',', '[', '(', '|', '>'].contains c then .other
    else if c == ']' then if rest == [']'] then .fault .unclosedToken else .other
    else if c == '%' then looseReference rest
    else if c == ')' then
      match rest with
      | [] => .other
      | d :: _ =>
        if isSpace d || ['*', '+', '?', '>', ',', '|', ')'].contains d then .other
        else .fault .invalidToken
    else if c == '#' then looseKeyword rest
    else if isNamePart c || c == ':' then looseWord s
    else .fault .invalidToken

/-! ## The whole text -/

/-- Can `c` go on a run of text?  A closing bracket begins a run of its own. -/
def isTextChar (c : Char) : Bool := c != '<' && c != '&' && c != ']' && isMarkupChar c

/-- The length of a text in bytes. -/
def byteCount : List Char → Nat
  | [] => 0
  | c :: rest => c.utf8Size + byteCount rest

/-- The next token inside the root, and the rest.  Behind an opening bracket of character data six bytes
must follow before they are looked at. -/
def inside (s : List Char) : Except Fault (Token × List Char) :=
  match s with
  | [] => .error .noElement
  | '<' :: '!' :: rest =>
    match rest with
    | [] => .error .unclosedToken
    | ['-'] => .error .unclosedToken
    | '-' :: '-' :: rest => (takeComment rest).map fun (cs, rest) => (.comment cs, rest)
    | '[' :: rest =>
      if byteCount rest < 6 then .error .unclosedToken
      else if rest.take 6 == "CDATA[".toList then
        (takeCdata (rest.drop 6)).map fun (cs, rest) => (.cdata cs, rest)
      else .error .invalidToken
    | _ => .error .invalidToken
  | '<' :: '?' :: rest => do
    let ((target, data), rest) ← takeInstruction rest
    if target == ['x', 'm', 'l'] then .error .misplacedDeclaration
    else .ok (.instruction (String.ofList target) (data.dropWhile isSpace), rest)
  | '<' :: '/' :: rest => takeStop rest
  | '<' :: rest => takeStart rest
  | '&' :: rest => (takeReference rest).map fun (r, rest) => (.chunk r, rest)
  | ']' :: ']' :: '>' :: _ => .error .invalidToken
  | c :: rest =>
    if isMarkupChar c then
      .ok (.chunk (.chars (c :: rest.takeWhile isTextChar)), rest.dropWhile isTextChar)
    else .error .invalidToken

/-- Where in a document a text goes on. -/
inductive Place where
  /-- At the very start, where a declaration can stand. -/
  | start
  /-- In front of the root. -/
  | before
  /-- Inside the root, under `depth + 1` open tags. -/
  | within (depth : Nat)
  /-- Behind the root. -/
  | behind
deriving DecidableEq, Repr

/-- The place behind a token inside the root. -/
def Place.after (depth : Nat) : Token → Place
  | .start _ _ false => .within (depth + 1)
  | .stop _ => if depth = 0 then .behind else .within (depth - 1)
  | _ => .within depth

/-- The tokens of a text from a place on. -/
def tokensFrom : Nat → Place → List Char → List Token
  | 0, _, _ => [.fault .noElement]
  | fuel + 1, .within depth, s =>
    match inside s with
    | .ok (token, rest) => token :: tokensFrom fuel (Place.after depth token) rest
    | .error f => [.fault f]
  | fuel + 1, .behind, s =>
    match outside s with
    | .nothing => []
    | .skip rest => tokensFrom fuel .behind rest
    | .fault f => [.fault f]
    | _ => [.fault .junkAfterRoot]
  | fuel + 1, place, s =>
    match outside s with
    | .nothing => [.fault .noElement]
    | .skip rest => tokensFrom fuel .before rest
    | .fault f => [.fault f]
    | .other => [.fault .notMarkup]
    | .reference => [.fault .illegalReference]
    | .declaration data rest =>
      if place != .start then [.fault .misplacedDeclaration]
      else if isDeclaration data then tokensFrom fuel .before rest
      else [.fault .malformedDeclaration]
    | .start s =>
      match takeStart s with
      | .error f => [.fault f]
      | .ok (.start name attrs true, rest) => .start name attrs true :: tokensFrom fuel .behind rest
      | .ok (token, rest) => token :: tokensFrom fuel (.within 0) rest

/-- The tokens of a document; a byte-order mark in front of it is dropped. -/
def tokens (s : String) : List Token :=
  let cs := unifyLineEnds s.toList
  let cs := match cs with
    | c :: rest => if c.toNat == 0xFEFF then rest else c :: rest
    | [] => []
  tokensFrom (cs.length + 2) .start cs

end Stitchwork.Markup
