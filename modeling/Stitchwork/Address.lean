/- # Stitchwork.Address — the addresses of the format, by name.
-/
import Stitchwork.Error
import Stitchwork.Text.Pieces

namespace Stitchwork

/-- The names of the addresses and the addresses, as they are listed. -/
def addresses : List String :=
  ["homepage, https://openpatternformat.com",
   "documentation, https://docs.openpatternformat.com",
   "repository, https://github.com/open-pattern-format/opaf-python",
   "namespace, https://github.com/open-pattern-format/opaf"]

/-- The first address whose entry begins with the given text. -/
def addressOf (name : String) : Except Error String :=
  match addresses.find? (Text.startsWith · name) with
  | some entry => .ok ((Text.cut entry ", ").getD 1 "")
  | none => .error (.unknownAddress name)

/-- The namespace of the elements of a pattern. -/
def patternNamespace : String := "https://github.com/open-pattern-format/opaf"

/-- The address named for the namespace is the namespace. -/
theorem addressOf_namespace : (addressOf "namespace").toOption = some patternNamespace := by
  decide +kernel

end Stitchwork
