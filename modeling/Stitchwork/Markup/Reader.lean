/- # Stitchwork.Markup.Reader — from tokens to a tree.

References are resolved, prefixes must be bound, and tags must match.  The declarations of prefixes come
first among the attributes of an element, the others behind them, both in the order of the text.  White
space in an attribute becomes spaces, unless it was written as a reference.
-/
import Stitchwork.Markup.Node
import Stitchwork.Markup.Token

namespace Stitchwork.Markup

/-- The characters with a name. -/
def entities : List (String × Char) :=
  [("lt", '<'), ("amp", '&'), ("gt", '>'), ("quot", Char.ofNat 0x22), ("apos", Char.ofNat 0x27)]

/-- The character with a number, if a document can hold it. -/
def characterOf (n : Nat) : Except Fault Char :=
  if n < 0x110000 && !(0xD800 ≤ n && n ≤ 0xDFFF) && isMarkupChar (Char.ofNat n) then
    .ok (Char.ofNat n)
  else .error .badCharacterNumber

/-- The characters that a chunk stands for; `literal` says what becomes of those that are written as they
are. -/
def Chunk.resolve (literal : Char → Char) : Chunk → Except Fault (List Char)
  | .chars cs => .ok (cs.map literal)
  | .code n => (characterOf n).map ([·])
  | .entity name =>
    match entities.lookup name with
    | some c => .ok [c]
    | none => .error .undefinedEntity

/-- White space as a space. -/
def flatten (c : Char) : Char := if isSpace c then ' ' else c

/-- The text of an attribute. -/
def resolveValue : List Chunk → Except Fault (List Char)
  | [] => .ok []
  | r :: rs => do
    let cs ← r.resolve flatten
    let ds ← resolveValue rs
    .ok (cs ++ ds)

/-! ## Prefixes -/

/-- The namespace that belongs to the prefix `xml`. -/
def xmlNamespace : String := "http://www.w3.org/XML/1998/namespace"

/-- The namespace of declarations. -/
def xmlnsNamespace : String := "http://www.w3.org/2000/xmlns/"

/-- What prefixes are bound to. -/
abbrev Bindings := List (String × String)

/-- The prefix that an attribute declares; the empty one for the declaration without prefix. -/
def declaredPrefix? (name : String) : Option String :=
  if name == "xmlns" then some ""
  else match splitName name with
    | (some "xmlns", p) => some p
    | _ => none

/-- Binds a prefix to a namespace. -/
def bindPrefix (bound : Bindings) (p uri : String) : Except Fault Bindings :=
  if uri.isEmpty && !p.isEmpty then .error .undeclaredPrefix
  else if p == "xmlns" then .error .reservedPrefixXmlns
  else if Text.hasChar uri ' ' then .error .notMarkup
  else if p == "xml" && uri != xmlNamespace then .error .reservedPrefixXml
  else if p != "xml" && uri == xmlNamespace then .error .reservedNamespace
  else if uri == xmlnsNamespace then .error .reservedNamespace
  else .ok ((p, uri) :: bound)

/-- The attributes of a tag as they are read: declarations, other attributes, and bindings. -/
structure ReadAttrs where
  declared : List (String × String)
  plain : List (String × String)
  bound : Bindings

/-- Reads the attributes of a tag from left to right. -/
def readAttrs (bound : Bindings) : List String → List (String × List Chunk) → Except Fault ReadAttrs
  | _, [] => .ok ⟨[], [], bound⟩
  | seen, (name, value) :: rest => do
    if seen.contains name then throw .duplicateAttribute
    let v := String.ofList (← resolveValue value)
    match declaredPrefix? name with
    | some p =>
      let bound ← bindPrefix bound p v
      let r ← readAttrs bound (name :: seen) rest
      .ok { r with declared := (name, v) :: r.declared }
    | none =>
      let r ← readAttrs bound (name :: seen) rest
      .ok { r with plain := (name, v) :: r.plain }

/-- Checks the prefixes of attributes: each must be bound, and no two attributes may have one namespace
and one local name. -/
def checkPrefixes (bound : Bindings) : List (String × String) → List String → Except Fault Unit
  | _, [] => .ok ()
  | seen, name :: rest =>
    match splitName name with
    | (some p, l) =>
      match bound.lookup p with
      | none => .error .unboundPrefix
      | some uri =>
        if seen.contains (uri, l) then .error .duplicateAttribute
        else checkPrefixes bound ((uri, l) :: seen) rest
    | (none, _) => checkPrefixes bound seen rest

/-- The attributes of an element and the bindings inside it. -/
def readTag (bound : Bindings) (name : String) (attrs : List (String × List Chunk)) :
    Except Fault (Table String × Bindings) := do
  let r ← readAttrs bound [] attrs
  checkPrefixes r.bound [] (r.plain.map (·.1))
  match prefixOf name with
  | some p => if (r.bound.lookup p).isNone then throw .unboundPrefix
  | none => pure ()
  .ok (⟨r.declared ++ r.plain⟩, r.bound)

/-! ## The tree -/

/-- An open element: its children so far, last first, and the bindings outside it. -/
structure Frame where
  name : String
  attrs : Table String
  children : List Node
  outer : Bindings

/-- Puts a node behind the children. -/
def Frame.add (f : Frame) (n : Node) : Frame := { f with children := n :: f.children }

/-- Puts characters behind the children: into the text there, or into a new one. -/
def Frame.addText (f : Frame) (cs : List Char) : Frame :=
  match f.children with
  | .text s :: rest => { f with children := .text (s ++ String.ofList cs) :: rest }
  | ns => { f with children := .text (String.ofList cs) :: ns }

/-- The element that a frame becomes when it is closed. -/
def Frame.close (f : Frame) : Element := ⟨f.name, f.attrs, f.children.reverse⟩

/-- Builds the tree: `open` elements from the inside out, the bindings inside the innermost one, and the
root once it is closed. -/
def build : List Frame → Bindings → Option Element → List Token → Except Fault Element
  | _, _, some root, [] => .ok root
  | _, _, none, [] => .error .noElement
  | _, _, _, .fault f :: _ => .error f
  | frames, bound, root, .start name attrs closed :: rest => do
    let (table, inner) ← readTag bound name attrs
    if closed then
      match frames with
      | [] => build [] bound (some ⟨name, table, []⟩) rest
      | f :: frames => build (f.add (.element name table []) :: frames) bound root rest
    else build (⟨name, table, [], bound⟩ :: frames) inner root rest
  | f :: frames, _, root, .stop name :: rest =>
    if f.name == name then
      match frames with
      | [] => build [] f.outer (some f.close) rest
      | g :: frames => build (g.add f.close.toNode :: frames) f.outer root rest
    else .error .mismatchedTag
  | [], _, _, .stop _ :: _ => .error .mismatchedTag
  | f :: frames, bound, root, .chunk r :: rest => do
    let cs ← r.resolve id
    build (f.addText cs :: frames) bound root rest
  | f :: frames, bound, root, .cdata s :: rest =>
    if s.isEmpty then build (f :: frames) bound root rest
    else build (f.add (.cdata (String.ofList s)) :: frames) bound root rest
  | f :: frames, bound, root, .comment s :: rest =>
    build (f.add (.comment (String.ofList s)) :: frames) bound root rest
  | f :: frames, bound, root, .instruction target data :: rest =>
    build (f.add (.instruction target (String.ofList data)) :: frames) bound root rest
  | [], bound, root, _ :: rest => build [] bound root rest

/-- The root element of the document that a text is. -/
def read (s : String) : Except Fault Element := build [] [("xml", xmlNamespace)] none (tokens s)

end Stitchwork.Markup
