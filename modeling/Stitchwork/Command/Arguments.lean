/- # Stitchwork.Command.Arguments — the arguments of the command line.

Options may be shortened as long as only one option begins that way, and the value of an option may stand
behind an equals sign or in the next argument.  The last of repeated options counts.
-/
import Stitchwork.Text.Digit
import Stitchwork.Text.Pieces

namespace Stitchwork.Command

/-- The options. -/
inductive Flag where
  | help | input | output | package | compile | extractImages | config | colors | logLevel
deriving DecidableEq, Repr

/-- The spellings of the options. -/
def flagNames : List (String × Flag) :=
  [("-h", .help), ("--help", .help), ("--input", .input), ("--output", .output),
   ("--package", .package), ("--compile", .compile), ("--extract_images", .extractImages),
   ("--config", .config), ("--colors", .colors), ("--log_level", .logLevel)]

/-- Does the option have a value? -/
def Flag.takesValue : Flag → Bool
  | .help | .package | .extractImages => false
  | _ => true

/-- An argument, by what it looks like. -/
inductive Word where
  /-- An option, perhaps with what stands behind its name. -/
  | flag (f : Flag) (rest : Option String)
  /-- Something that looks like an option. -/
  | unknown
  /-- Anything else. -/
  | plain (s : String)
  /-- The mark behind which nothing is an option. -/
  | endMark
deriving DecidableEq, Repr

/-- The text without a line end behind it. -/
def dropLineEnd (s : List Char) : List Char :=
  if s.getLast? == some (Char.ofNat 10) then s.dropLast else s

/-- Is the text a negative number, perhaps with a line end behind it? -/
def isNegativeNumber (s : String) : Bool :=
  let isDigit (c : Char) := (Text.digitValue? c).isSome
  match dropLineEnd s.toList with
  | '-' :: rest =>
    let whole := rest.takeWhile isDigit
    match rest.dropWhile isDigit with
    | [] => !whole.isEmpty
    | '.' :: fraction => !fraction.isEmpty && fraction.all isDigit
    | _ => false
  | _ => false

/-- The name of an option and what stands behind an equals sign. -/
def splitValue (s : String) : String × Option String :=
  match Text.cutOnce? ['='] s.toList with
  | some (name, value) => (String.ofList name, some (String.ofList value))
  | none => (s, none)

/-- The options that a shortened name can stand for.  Behind the one letter of a short option other
letters may stand, which do not count. -/
def abbreviated (s : String) : List (Flag × Option String) :=
  if Text.startsWith s "--" then
    let (name, value) := splitValue s
    (flagNames.filter fun f => Text.startsWith f.1 name).map fun f => (f.2, value)
  else
    (flagNames.filter fun f => f.1 == String.ofList (s.toList.take 2)).map fun f => (f.2, none)

/-- What an argument looks like; none if it can stand for several options. -/
def classify (s : String) : Option Word :=
  if !Text.startsWith s "-" || s == "-" then some (.plain s)
  else
    let (name, value) := splitValue s
    match flagNames.lookup s, value.bind fun v => (flagNames.lookup name).map (·, v) with
    | some f, _ => some (.flag f none)
    | none, some (f, v) => some (.flag f (some v))
    | none, none =>
      match abbreviated s with
      | [(f, v)] => some (.flag f v)
      | _ :: _ :: _ => none
      | [] =>
        if isNegativeNumber s || Text.hasChar s ' ' then some (.plain s) else some .unknown

/-- What the arguments look like. -/
def classifyAll : List String → Option (List Word)
  | [] => some []
  | s :: rest =>
    if s == "--" then some (.endMark :: rest.map .plain)
    else do
      let w ← classify s
      let ws ← classifyAll rest
      some (w :: ws)

/-- Why the program does nothing. -/
inductive Exit where
  | help
  | misuse
deriving DecidableEq, Repr

/-- The status of a program that does nothing. -/
def Exit.status : Exit → Nat
  | .help => 0
  | .misuse => 2

/-- What the arguments say. -/
structure Arguments where
  input : Option String
  output : Option String
  package : Bool
  compile : Option String
  extractImages : Bool
  config : Option String
  colors : Option String
  logLevel : String
  /-- Is there something that is neither an option nor its value? -/
  stray : Bool
deriving DecidableEq, Repr

namespace Arguments

/-- No arguments. -/
def none : Arguments := ⟨.none, .none, false, .none, false, .none, .none, "INFO", false⟩

/-- Sets the value of an option. -/
def setValue (a : Arguments) (f : Flag) (v : String) : Arguments :=
  match f with
  | .input => { a with input := some v }
  | .output => { a with output := some v }
  | .compile => { a with compile := some v }
  | .config => { a with config := some v }
  | .colors => { a with colors := some v }
  | .logLevel => { a with logLevel := v }
  | _ => a

/-- Sets an option without a value. -/
def setFlag (a : Arguments) (f : Flag) : Arguments :=
  match f with
  | .package => { a with package := true }
  | .extractImages => { a with extractImages := true }
  | _ => a

/-- Reads arguments from left to right, up to a call for help. -/
def readWords : Arguments → List Word → Except Exit Arguments
  | a, [] => .ok a
  | a, .flag f rest :: ws =>
    if f.takesValue then
      match rest, ws with
      | some v, ws => readWords (a.setValue f v) ws
      | .none, .plain v :: ws => readWords (a.setValue f v) ws
      | .none, _ => .error .misuse
    else
      match rest with
      | .none => if f == .help then .error .help else readWords (a.setFlag f) ws
      | some _ => .error .misuse
  | a, _ :: ws => readWords { a with stray := true } ws

/-- Reads the arguments of the command line. -/
def read (args : List String) : Except Exit Arguments :=
  match classifyAll args with
  | .none => .error .misuse
  | some ws => do
    let a ← readWords .none ws
    if a.stray || a.input.isNone then .error .misuse else .ok a

end Arguments

/-! ## Levels of the log -/

/-- The levels of the log. -/
def logLevels : List (String × Nat) :=
  [("CRITICAL", 50), ("FATAL", 50), ("ERROR", 40), ("WARNING", 30), ("WARN", 30), ("INFO", 20),
   ("DEBUG", 10), ("NOTSET", 0)]

/-- The level of errors. -/
def errorLevel : Nat := 40

/-- The upper case of a letter in the name of a level; the dotless i and the long s have one too. -/
def upperLetter (c : Char) : Char :=
  if c == Char.ofNat 0x131 then 'I' else if c == Char.ofNat 0x17F then 'S' else c.toUpper

/-- The level that a text names, in any case; any other text counts as the usual one. -/
def logLevelOf (s : String) : Nat :=
  (logLevels.lookup (String.ofList (s.toList.map upperLetter))).getD 20

/-- Are errors logged? -/
def Arguments.logsErrors (a : Arguments) : Bool := logLevelOf a.logLevel ≤ errorLevel

end Stitchwork.Command
