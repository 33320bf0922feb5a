/- # Stitchwork.Error — why a pattern cannot be read, packaged or compiled.

An error is a cause; `Error.message` is the one place where it becomes text.
-/
import Stitchwork.Files.Tree
import Stitchwork.Formula.Template
import Stitchwork.Markup.Fault
import Stitchwork.Pattern.Kind

namespace Stitchwork

open Stitchwork.Pattern (Kind)

/-- Why the file of a pattern gives no tree. -/
inductive SourceFault where
  | file (f : Files.Fault)
  | markup (f : Markup.Fault)
deriving DecidableEq, Repr

/-- What is reported. -/
def SourceFault.message : SourceFault → String
  | .file f => f.message
  | .markup f => f.message

/-- Why a picture cannot be used. -/
inductive PictureFault where
  /-- The file holds no picture. -/
  | unknownFormat
  /-- The colours of the picture cannot be stored. -/
  | unsupportedColors
  /-- The picture is to be scaled to nothing. -/
  | zeroSize
  /-- The picture is to be scaled to less than nothing. -/
  | negativeSize
deriving DecidableEq, Repr

/-- Why a pattern cannot be read, packaged or compiled. -/
inductive Error where
  /-- A text cannot be expanded. -/
  | template (e : Formula.TemplateError)
  /-- A text is not a document. -/
  | markup (f : Markup.Fault)
  /-- The file of a pattern cannot be used. -/
  | source (f : SourceFault)
  /-- A file cannot be written. -/
  | file (f : Files.Fault)
  /-- A text with codes that are no characters is to be written. -/
  | notCharacters
  /-- A text is not a version number. -/
  | version (text : String)
  /-- A picture cannot be used. -/
  | picture (f : PictureFault)
  /-- A definition is not an element. -/
  | notAnElement
  /-- A definition has the name of another element. -/
  | unexpectedElement (wanted got : String)
  /-- An element that patterns do not have. -/
  | unknownElement (name : String)
  /-- An element that may not stand where it stands. -/
  | misplacedElement (name : String)
  /-- The name of a chart has a colon. -/
  | chartName (name : String)
  /-- A text is not a colour. -/
  | invalidColor (text : String)
  /-- A name is defined twice. -/
  | duplicate (kind : Kind) (name : String)
  /-- A name is not defined. -/
  | undefined (kind : Kind) (name : String)
  /-- The file of an include is not there. -/
  | includeNotFound (uri : String)
  /-- The file of an image is not there. -/
  | imageNotFound (uri : String)
  /-- The root of a document is not a pattern. -/
  | notAPattern
  /-- A pattern does not declare its namespace. -/
  | undeclaredNamespace
  /-- A condition is neither true nor false. -/
  | undecided (condition : String)
  /-- A config does not allow a value. -/
  | notAllowed (value config : String)
  /-- A config that must have a value has none. -/
  | valueRequired (config : String)
  /-- A repeat without a count. -/
  | repeatWithoutCount
  /-- A row without a type. -/
  | rowWithoutType
  /-- A parameter without a value. -/
  | undefinedParameter (parameter : String) (kind : Kind) (name : String)
  /-- An action in a colour that the pattern does not define. -/
  | undefinedColor (name : String)
  /-- There is nothing to compile. -/
  | nothingToCompile
  /-- The pattern has not been packaged. -/
  | notPackaged
  /-- No address has the name. -/
  | unknownAddress (name : String)
  /-- Bytes are written wrongly. -/
  | invalidData
  /-- A value has the wrong kind, or something that is wanted was not given. -/
  | wrongKind
  /-- A value of the right kind is not a right one. -/
  | wrongValue
  /-- Something that is not there was to be used. -/
  | absent
  /-- A document already has a root. -/
  | secondRoot
  /-- Blocks or files that refer to themselves. -/
  | tooDeep
deriving DecidableEq, Repr

/-- What is reported when a text cannot be expanded.  For some faults only the formula is given. -/
def Formula.TemplateError.message : Formula.TemplateError → String
  | .formula source f =>
    let head := "Failed to evaluate: <" ++ source ++ ">"
    match f.reason? with
    | some r => head ++ ", " ++ r
    | none => head
  | .unwritable => "Value is too long to be written"

/-- What is reported. -/
def Error.message : Error → String
  | .template e => e.message
  | .markup f => f.message
  | .source f => "OPAF namespace is not declared, " ++ f.message
  | .file f => f.message
  | .notCharacters => "Text cannot be encoded"
  | .version text => "Invalid version: '" ++ text ++ "'"
  | .picture .unknownFormat => "Cannot identify image file"
  | .picture .unsupportedColors => "Image mode cannot be written"
  | .picture .zeroSize => "Image size is zero"
  | .picture .negativeSize => "Image size must be greater than zero"
  | .notAnElement => "Unexpected node type"
  | .unexpectedElement wanted got =>
    "Expected node with name '" ++ wanted ++ "' and got '" ++ got ++ "'"
  | .unknownElement name => "Node with name '" ++ name ++ "' not recognized"
  | .misplacedElement name => "Node with name '" ++ name ++ "' is not allowed in this scope"
  | .chartName name => "Chart name '" ++ name ++ "' contains invalid character ':'"
  | .invalidColor text => "'" ++ text ++ "' is not a valid hex rgb color string"
  | .duplicate .color name => "Color with name '" ++ name ++ "' is already defined"
  | .duplicate kind name => kind.title ++ " with name '" ++ name ++ "' already exists"
  | .undefined kind name => kind.title ++ " with name '" ++ name ++ "' not found"
  | .includeNotFound uri => "Included OPAF file not found with uri： " ++ uri
  | .imageNotFound uri => "Image not found with uri： " ++ uri
  | .notAPattern => "'pattern' root node not found in OPAF file"
  | .undeclaredNamespace => "OPAF namespace is not declared in pattern attributes"
  | .undecided condition =>
    "Condition " ++ condition ++ " did not evaluate to 'true' or 'false' as expected"
  | .notAllowed value config => "\"" ++ value ++ "\" is not a valid value for \"" ++ config ++ "\""
  | .valueRequired config => "\"" ++ config ++ "\" is required but a value was not given"
  | .repeatWithoutCount => "Repeat attribute 'count' is missing"
  | .rowWithoutType => "Row attribute 'type' is missing"
  | .undefinedParameter parameter kind name =>
    "Parameter \"" ++ parameter ++ "\" is not defined for " ++ kind.word ++ " \"" ++ name ++ "\""
  | .undefinedColor name => "color \"" ++ name ++ "\" is not defined"
  | .nothingToCompile => "OPAF document is not set. Nothing to compile"
  | .notPackaged => "OPAF document has not been packaged. Compilation aborted."
  | .unknownAddress name => "No URL found in distribution metadata with name '" ++ name ++ "'"
  | .invalidData => "Invalid base64-encoded data"
  | .wrongKind => "Value has the wrong type"
  | .wrongValue => "Value is not valid"
  | .absent => "Value is missing"
  | .secondRoot => "Two document elements disallowed"
  | .tooDeep => "Definitions refer to themselves"

/-! ## Work that can fail -/

/-- Work that draws fresh identifiers and can fail.  Identifiers that were drawn stay drawn when the work
fails; the number counts them. -/
abbrev Work := ExceptT Error (StateM Nat)

/-- A result as work. -/
def liftExcept {α : Type} (r : Except Error α) : Work α := ExceptT.mk (pure r)

/-- The text of the `n`-th identifier. -/
def identifier (n : Nat) : String :=
  let digits := Nat.toDigits 10 n
  String.ofList ("00000000-0000-4000-8000-".toList ++ List.replicate (12 - digits.length) '0' ++ digits)

/-- Draws a fresh identifier. -/
def freshIdentifier : Work String := do
  let n ← getThe Nat
  set (n + 1)
  return identifier (n + 1)

end Stitchwork
