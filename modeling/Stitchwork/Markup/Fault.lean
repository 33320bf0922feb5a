/- # Stitchwork.Markup.Fault — why a text is not a document.
-/

namespace Stitchwork.Markup

/-- Why a text is not a document. -/
inductive Fault where
  | noElement
  | notMarkup
  | invalidToken
  | unclosedToken
  | unclosedCdata
  | mismatchedTag
  | duplicateAttribute
  | junkAfterRoot
  | undefinedEntity
  | illegalReference
  | badCharacterNumber
  | misplacedDeclaration
  | malformedDeclaration
  | unboundPrefix
  | undeclaredPrefix
  | reservedPrefixXml
  | reservedPrefixXmlns
  | reservedNamespace
deriving DecidableEq, Repr

/-- What is reported. -/
def Fault.message : Fault → String
  | .noElement => "no element found"
  | .notMarkup => "syntax error"
  | .invalidToken => "not well-formed (invalid token)"
  | .unclosedToken => "unclosed token"
  | .unclosedCdata => "unclosed CDATA section"
  | .mismatchedTag => "mismatched tag"
  | .duplicateAttribute => "duplicate attribute"
  | .junkAfterRoot => "junk after document element"
  | .undefinedEntity => "undefined entity"
  | .illegalReference => "illegal parameter entity reference"
  | .badCharacterNumber => "reference to invalid character number"
  | .misplacedDeclaration => "XML or text declaration not at start of entity"
  | .malformedDeclaration => "XML declaration not well-formed"
  | .unboundPrefix => "unbound prefix"
  | .undeclaredPrefix => "must not undeclare prefix"
  | .reservedPrefixXml =>
    "reserved prefix (xml) must not be undeclared or bound to another namespace name"
  | .reservedPrefixXmlns => "reserved prefix (xmlns) must not be declared or undeclared"
  | .reservedNamespace => "prefix must not be bound to one of the reserved namespace names"

end Stitchwork.Markup
