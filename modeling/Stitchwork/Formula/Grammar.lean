/- # Stitchwork.Formula.Grammar — from tokens to formulas.

From loosest to tightest: a choice `a if c else b`, `or`, `and`, `not`, chains of comparisons, the levels
of operators between two operands, operators before an operand, powers, and calls and positions behind an
operand.  Operators between two operands group to the left, powers to the right.  Every function takes the
depth to which it may still descend, which is reckoned from the number of tokens.
-/
import Stitchwork.Formula.Expr
import Stitchwork.Formula.Token
import Stitchwork.Text.Form

namespace Stitchwork.Formula

/-- What a piece of grammar reads: a result and the tokens behind it. -/
abbrev Parsed (α : Type) := Option (α × List Token)

/-- Words that cannot be names. -/
def reservedWords : List String :=
  ["False", "None", "True", "and", "as", "assert", "async", "await", "break", "class", "continue",
   "def", "del", "elif", "else", "except", "finally", "for", "from", "global", "if", "import", "in",
   "is", "lambda", "nonlocal", "not", "or", "pass", "raise", "return", "try", "while", "with", "yield"]

/-- The name that is always true, and that no argument can have. -/
def debugName : String := "__debug__"

/-- The formula that a word is, in its plain form, unless it is reserved as it is written. -/
def nameExpr? (word : String) : Option Expr :=
  if reservedWords.contains word then none
  else
    let name := Text.plainForm word
    some (if name == debugName then .literal (.bool true) else .name name)

/-- The name that a word gives to an argument. -/
def argumentName? (word : String) : Option String :=
  if reservedWords.contains word then none
  else
    let name := Text.plainForm word
    if name == debugName then none else some name

/-- Operators between two operands, by level, from loosest to tightest. -/
def binaryLevels : List (List (String × BinaryOp)) :=
  [[("|", .bitOr)], [("^", .bitXor)], [("&", .bitAnd)], [("<<", .shiftLeft), (">>", .shiftRight)],
   [("+", .add), ("-", .sub)], [("*", .mul), ("/", .div), ("//", .floorDiv), ("%", .mod)]]

/-- The operators of a level. -/
def binaryLevel (level : Nat) : List (String × BinaryOp) := binaryLevels.getD level []

/-- An operator before an operand. -/
def unaryOp? (s : String) : Option UnaryOp :=
  if s == "+" then some .plus
  else if s == "-" then some .minus
  else if s == "~" then some .invert
  else none

/-- A comparison sign at the front. -/
def comparison? : List Token → Parsed Comparison
  | .word "not" :: .word "in" :: rest => some (.notIn, rest)
  | .word "in" :: rest => some (.isIn, rest)
  | .word "is" :: .word "not" :: rest => some (.notSame, rest)
  | .word "is" :: rest => some (.same, rest)
  | .sign "<" :: rest => some (.lt, rest)
  | .sign "<=" :: rest => some (.le, rest)
  | .sign ">" :: rest => some (.gt, rest)
  | .sign ">=" :: rest => some (.ge, rest)
  | .sign "==" :: rest => some (.eq, rest)
  | .sign "!=" :: rest => some (.ne, rest)
  | _ => none

/-- Texts side by side are one text. -/
def adjacentTexts : List Token → String × List Token
  | .text s :: rest =>
    let (t, after) := adjacentTexts rest
    (s ++ t, after)
  | ts => ("", ts)

/-- The arguments of a call: by position, then by name. -/
structure Arguments where
  args : List Expr
  names : List String
  named : List Expr

mutual

/-- A formula: a choice or something tighter. -/
def parseExpr : Nat → List Token → Parsed Expr
  | 0, _ => none
  | fuel + 1, ts =>
    match parseOr fuel ts with
    | some (e, .word "if" :: rest) =>
      match parseOr fuel rest with
      | some (test, .word "else" :: rest) =>
        match parseExpr fuel rest with
        | some (no, rest) => some (.choice test e no, rest)
        | none => none
      | _ => none
    | r => r

/-- Operands with `or` between them. -/
def parseOr : Nat → List Token → Parsed Expr
  | 0, _ => none
  | fuel + 1, ts =>
    match parseAnd fuel ts with
    | some (a, .word "or" :: rest) =>
      match parseOr fuel rest with
      | some (b, rest) => some (.or a b, rest)
      | none => none
    | r => r

/-- Operands with `and` between them. -/
def parseAnd : Nat → List Token → Parsed Expr
  | 0, _ => none
  | fuel + 1, ts =>
    match parseNot fuel ts with
    | some (a, .word "and" :: rest) =>
      match parseAnd fuel rest with
      | some (b, rest) => some (.and a b, rest)
      | none => none
    | r => r

/-- A negation, or a chain of comparisons. -/
def parseNot : Nat → List Token → Parsed Expr
  | 0, _ => none
  | fuel + 1, .word "not" :: rest =>
    match parseNot fuel rest with
    | some (e, rest) => some (.unary .not e, rest)
    | none => none
  | fuel + 1, ts =>
    match parseBinary fuel 0 ts with
    | some (first, rest) =>
      match parseChain fuel rest with
      | some (([], _), _) => some (first, rest)
      | some ((ops, es), rest) => some (.chain first ops es, rest)
      | none => none
    | none => none

/-- The comparisons behind an operand. -/
def parseChain : Nat → List Token → Parsed (List Comparison × List Expr)
  | 0, _ => none
  | fuel + 1, ts =>
    match comparison? ts with
    | some (c, rest) =>
      match parseBinary fuel 0 rest with
      | some (e, rest) =>
        match parseChain fuel rest with
        | some ((ops, es), rest) => some ((c :: ops, e :: es), rest)
        | none => none
      | none => none
    | none => some (([], []), ts)

/-- Operands with operators of a level, or tighter ones, between them. -/
def parseBinary : Nat → Nat → List Token → Parsed Expr
  | 0, _, _ => none
  | fuel + 1, level, ts =>
    if level < binaryLevels.length then
      match parseBinary fuel (level + 1) ts with
      | some (e, rest) => parseBinaryTail fuel level e rest
      | none => none
    else parseFactor fuel ts

/-- Further operands of a level behind the operand `e`. -/
def parseBinaryTail : Nat → Nat → Expr → List Token → Parsed Expr
  | 0, _, _, _ => none
  | fuel + 1, level, e, .sign s :: rest =>
    match (binaryLevel level).lookup s with
    | some op =>
      match parseBinary fuel (level + 1) rest with
      | some (b, rest) => parseBinaryTail fuel level (.binary op e b) rest
      | none => none
    | none => some (e, .sign s :: rest)
  | _ + 1, _, e, ts => some (e, ts)

/-- An operand with operators before it, or a power. -/
def parseFactor : Nat → List Token → Parsed Expr
  | 0, _ => none
  | fuel + 1, .sign s :: rest =>
    match unaryOp? s with
    | some op =>
      match parseFactor fuel rest with
      | some (e, rest) => some (.unary op e, rest)
      | none => none
    | none => parsePower fuel (.sign s :: rest)
  | fuel + 1, ts => parsePower fuel ts

/-- An operand, perhaps raised to a power. -/
def parsePower : Nat → List Token → Parsed Expr
  | 0, _ => none
  | fuel + 1, ts =>
    match parseAtom fuel ts with
    | some (e, rest) =>
      match parseTrailers fuel e rest with
      | some (base, .sign "**" :: rest) =>
        match parseFactor fuel rest with
        | some (b, rest) => some (.binary .pow base b, rest)
        | none => none
      | r => r
    | none => none

/-- Calls and positions behind an operand. -/
def parseTrailers : Nat → Expr → List Token → Parsed Expr
  | 0, _, _ => none
  | fuel + 1, e, .sign "(" :: rest =>
    match parseArguments fuel rest with
    | some (a, rest) => parseTrailers fuel (.call e a.args a.names a.named) rest
    | none => none
  | fuel + 1, e, .sign "[" :: rest =>
    match parsePosition fuel e rest with
    | some (e, rest) => parseTrailers fuel e rest
    | none => none
  | _ + 1, e, ts => some (e, ts)

/-- The arguments of a call up to the closing bracket.  Behind an argument by name all others are by
name, and no name is given twice. -/
def parseArguments : Nat → List Token → Parsed Arguments
  | 0, _ => none
  | _ + 1, .sign ")" :: rest => some (⟨[], [], []⟩, rest)
  | fuel + 1, .word w :: .sign "=" :: rest =>
    match argumentName? w, parseExpr fuel rest with
    | some name, some (e, rest) =>
      match parseMoreArguments fuel rest with
      | some (a, rest) =>
        if a.args.isEmpty && !a.names.contains name then
          some (⟨[], name :: a.names, e :: a.named⟩, rest)
        else none
      | none => none
    | _, _ => none
  | fuel + 1, ts =>
    match parseExpr fuel ts with
    | some (e, rest) =>
      match parseMoreArguments fuel rest with
      | some (a, rest) => some (⟨e :: a.args, a.names, a.named⟩, rest)
      | none => none
    | none => none

/-- The arguments behind an argument. -/
def parseMoreArguments : Nat → List Token → Parsed Arguments
  | 0, _ => none
  | _ + 1, .sign ")" :: rest => some (⟨[], [], []⟩, rest)
  | fuel + 1, .sign "," :: rest => parseArguments fuel rest
  | _ + 1, _ => none

/-- Formulas with commas between them, up to a closing bracket; the last comma may be
superfluous. -/
def parseMembers : Nat → String → List Token → Parsed (List Expr)
  | 0, _, _ => none
  | fuel + 1, closing, ts =>
    if ts.head? == some (.sign closing) then some ([], ts.tail)
    else match parseExpr fuel ts with
      | some (e, .sign "," :: rest) =>
        match parseMembers fuel closing rest with
        | some (es, rest) => some (e :: es, rest)
        | none => none
      | some (e, rest) => if rest.head? == some (.sign closing) then some ([e], rest.tail) else none
      | none => none

/-- The position behind an opening bracket: a formula, a slice, or several of them, which no sequence
takes. -/
def parsePosition : Nat → Expr → List Token → Parsed Expr
  | 0, _, _ => none
  | fuel + 1, e, ts =>
    match parseBounds fuel ts with
    | some (bounds, .sign "]" :: rest) =>
      match bounds with
      | [i] => some (.index e i, rest)
      | [i, j, k] => some (.slice e i j k, rest)
      | _ => none
    | some (bounds, .sign "," :: rest) =>
      match parsePositions fuel rest with
      | some (more, rest) => some (.index e (.tuple (bounds ++ more)), rest)
      | none => none
    | _ => none

/-- Further positions, up to the closing bracket. -/
def parsePositions : Nat → List Token → Parsed (List Expr)
  | 0, _ => none
  | _ + 1, .sign "]" :: rest => some ([], rest)
  | fuel + 1, ts =>
    match parseBounds fuel ts with
    | some (bounds, .sign "]" :: rest) => some (bounds, rest)
    | some (bounds, .sign "," :: rest) =>
      match parsePositions fuel rest with
      | some (more, rest) => some (bounds ++ more, rest)
      | none => none
    | _ => none

/-- One formula, or the three bounds of a slice; an absent bound is nothing. -/
def parseBounds : Nat → List Token → Parsed (List Expr)
  | 0, _ => none
  | fuel + 1, ts =>
    match parseBound fuel ts with
    | some (start, .sign ":" :: rest) =>
      match parseBound fuel rest with
      | some (stop, .sign ":" :: rest) =>
        match parseBound fuel rest with
        | some (step, rest) => some ([start, stop, step], rest)
        | none => none
      | some (stop, rest) => some ([start, stop, .literal .nothing], rest)
      | none => none
    | some (e, rest) => if rest.length == ts.length then none else some ([e], rest)
    | none => none

/-- A bound of a slice, which is absent before a colon, a comma or the closing bracket. -/
def parseBound : Nat → List Token → Parsed Expr
  | 0, _ => none
  | fuel + 1, ts =>
    match ts with
    | .sign ":" :: _ => some (.literal .nothing, ts)
    | .sign "," :: _ => some (.literal .nothing, ts)
    | .sign "]" :: _ => some (.literal .nothing, ts)
    | ts => parseExpr fuel ts

/-- An operand: a name, a literal, or something in brackets. -/
def parseAtom : Nat → List Token → Parsed Expr
  | 0, _ => none
  | _ + 1, .int n :: rest => some (.literal (.int n), rest)
  | _ + 1, .float x :: rest => some (.literal (.float x), rest)
  | _ + 1, .text s :: rest =>
    let (t, after) := adjacentTexts rest
    some (.literal (.str (s ++ t)), after)
  | _ + 1, .word "None" :: rest => some (.literal .nothing, rest)
  | _ + 1, .word "True" :: rest => some (.literal (.bool true), rest)
  | _ + 1, .word "False" :: rest => some (.literal (.bool false), rest)
  | _ + 1, .word w :: rest => (nameExpr? w).map fun e => (e, rest)
  | fuel + 1, .sign "[" :: rest =>
    match parseMembers fuel "]" rest with
    | some (es, rest) => some (.list es, rest)
    | none => none
  | _ + 1, .sign "(" :: .sign ")" :: rest => some (.tuple [], rest)
  | fuel + 1, .sign "(" :: rest =>
    match parseExpr fuel rest with
    | some (e, .sign ")" :: rest) => some (e, rest)
    | some (e, .sign "," :: rest) =>
      match parseMembers fuel ")" rest with
      | some (es, rest) => some (.tuple (e :: es), rest)
      | none => none
    | _ => none
  | _ + 1, _ => none

end

/-- The depth that is enough for a number of tokens: no more than sixteen descents for each. -/
def depthFor (n : Nat) : Nat := 16 * (n + 2)

/-- A formula, or several with commas between them, which make a tuple, up to the end. -/
def parseAll : Nat → List Token → Option Expr
  | fuel, ts =>
    match parseExpr fuel ts with
    | some (e, []) => some e
    | some (e, [.lineEnd]) => some e
    | some (e, .sign "," :: rest) =>
      let rest := if rest.getLast? == some .lineEnd then rest.dropLast else rest
      match parseMembers fuel ")" (rest ++ [.sign ")"]) with
      | some (es, []) => some (.tuple (e :: es))
      | _ => none
    | _ => none

/-- The formula that a text says, if it says one. -/
def parse? (s : List Char) : Option Expr :=
  (tokens? s).bind fun ts => parseAll (depthFor ts.length) ts

end Stitchwork.Formula
