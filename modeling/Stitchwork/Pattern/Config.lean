/- # Stitchwork.Pattern.Config — configs: values that are chosen when a pattern is compiled.

The allowed values that are read from a document can be gone through once only: looking for a value uses up
the values up to the one that is found, and writing them uses up all.
-/
import Stitchwork.Pattern.Attribute

namespace Stitchwork.Pattern

open Stitchwork.Markup

/-- The values that a config allows. -/
structure Allowed where
  values : List String
  /-- Can the values be gone through once only? -/
  once : Bool
deriving Repr, DecidableEq

namespace Allowed

/-- No values were given. -/
def unrestricted : Allowed := ⟨[], false⟩

/-- Were values given?  Those that can be gone through once count as given, even if none is left. -/
def given (a : Allowed) : Bool := a.once || !a.values.isEmpty

/-- The values behind the first occurrence of `v`; none if it does not occur. -/
def after (v : String) : List String → List String
  | [] => []
  | w :: ws => if w == v then ws else after v ws

/-- Is the value among the allowed ones?  Also gives those that are left afterwards. -/
def find (a : Allowed) (v : String) : Bool × Allowed :=
  (a.values.contains v, if a.once then { a with values := after v a.values } else a)

/-- The allowed values as text, and those that are left afterwards. -/
def write (a : Allowed) : String × Allowed :=
  (Text.join "," a.values, if a.once then { a with values := [] } else a)

end Allowed

/-- The definition of a config. -/
structure Config where
  name : String
  value : String
  required : Bool
  allowed : Allowed
  title : Option String
  description : Option String
deriving Repr, DecidableEq

namespace Config

/-- Reads the definition of a config. -/
def ofElement (e : Element) : Config where
  name := e.attr "name"
  value := e.attr "value"
  required := saysTrue (e.attr "required")
  allowed :=
    match e.attr? "allowed_values" with
    | some s => ⟨(Text.cut s ",").map Text.trim, true⟩
    | none => .unrestricted
  title := e.attr? "title"
  description := e.attr? "description"

/-- The element that defines the config, and the config that is left after its allowed values have been
written. -/
def toElement (c : Config) : Element × Config :=
  let (text, left) := c.allowed.write
  (element Kind.config.tag
    ([("name", c.name), ("value", c.value), ("required", boolText c.required)] ++
      (if c.allowed.given then [("allowed_values", text)] else []) ++
      attrIfGiven "title" c.title ++ attrIfGiven "description" c.description),
    { c with allowed := left })

end Config

end Stitchwork.Pattern
