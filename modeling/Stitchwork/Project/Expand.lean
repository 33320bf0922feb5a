/- # Stitchwork.Project.Expand — what the elements of a pattern become.

Actions become the elements of their definitions, blocks become their content, and the other elements become
elements of a project with their formulas replaced.  Every element is expanded in a scope.  Outside of blocks
it holds the global values.  Inside a block it holds the parameters of the block and the global values, which
hide parameters of the same name.
-/
import Stitchwork.Pattern.Condition
import Stitchwork.Pattern.Document

namespace Stitchwork.Project

open Stitchwork.Formula Stitchwork.Markup Stitchwork.Pattern

/-! ## Results -/

/-- What nodes become.  An attribute that is a number other than zero cannot be written, which shows only
when the whole project is written. -/
structure Expansion where
  nodes : List Node
  writable : Bool
deriving Repr

namespace Expansion

/-- Nothing. -/
def none : Expansion := ⟨[], true⟩

/-- Nodes that can be written. -/
def ofNodes (ns : List Node) : Expansion := ⟨ns, true⟩

/-- One expansion behind the other. -/
def append (a b : Expansion) : Expansion := ⟨a.nodes ++ b.nodes, a.writable && b.writable⟩

/-- The expansion inside an element. -/
def wrap (e : Element) (a : Expansion) : Expansion := ⟨[(e.append a.nodes).toNode], a.writable⟩

end Expansion

/-- What the expansion of elements looks up. -/
structure Context where
  document : Document
  globals : Scope

/-! ## Attributes -/

/-- Attributes that are not arguments. -/
def protectedAttrs : List String := ["xmlns:opaf", "condition", "name"]

/-- The text of an attribute with its formulas replaced.  The declaration that takes back a namespace has
no text. -/
def expandAttr (scope : Scope) (a : String × String) : Except Error String :=
  if a.1 == "xmlns" && a.2.isEmpty then .error .wrongKind else expandText scope a.2

/-- The attributes of an element that are arguments. -/
def argumentsOf (e : Element) : List (String × String) :=
  e.attrs.entries.filter fun a => !protectedAttrs.contains a.1

/-- Sets an attribute of an element that is being built: an attribute with the same local name gives way
to a new one. -/
def setByLocalName (t : Table String) (k v : String) : Table String :=
  if t.contains k then t.insert k v
  else Table.insert ⟨t.entries.filter fun a => localName a.1 != localName k⟩ k v

/-- Copies arguments with their formulas replaced. -/
def copyArguments (scope : Scope) : Table String → List (String × String) → Except Error (Table String)
  | t, [] => .ok t
  | t, a :: rest => do
    let s ← expandAttr scope a
    copyArguments scope (setByLocalName t a.1 s) rest

/-- Sets parameters to the values of arguments. -/
def bindArguments (scope : Scope) : Table Value → List (String × String) → Except Error (Table Value)
  | params, [] => .ok params
  | params, a :: rest => do
    let s ← expandAttr scope a
    bindArguments scope (params.insert a.1 (coerce s)) rest

/-- Refuses parameters whose value is the empty text. -/
def checkParams (kind : Kind) (name : String) (params : Table Value) : Except Error Unit :=
  match params.entries.find? fun p => p.2.eq (.str "") with
  | some p => .error (.undefinedParameter p.1 kind name)
  | none => .ok ()

/-! ## Actions -/

/-- Checks that the colour of an action, if it has one, is defined. -/
def checkColor (d : Document) (params : Table Value) : Except Error Unit :=
  match params.get? "color" with
  | none => .ok ()
  | some (.str s) => if d.colorTable.contains s then .ok () else .error (.undefinedColor s)
  | some _ => .error .wrongKind

/-- Replaces the formulas in attributes. -/
def expandAttrs (scope : Scope) : List (String × String) → Except Error (List (String × String))
  | [] => .ok []
  | a :: rest => do
    let s ← expandAttr scope a
    let others ← expandAttrs scope rest
    .ok ((a.1, s) :: others)

/-- Texts without repetition, in the order of their characters. -/
def distinct (xs : List String) : List String := xs.eraseDups.mergeSort fun a b => decide (a ≤ b)

/-- An element of an action with the attributes that the parameter `attrs` adds to its own. -/
def addAttrs (params : Table Value) (e : Element) : Except Error Element :=
  match params.get? "attrs" with
  | none => .ok e
  | some (.str s) =>
    let own := ((e.attr? "attrs").map (Text.cut · ",")).getD []
    .ok (e.setAttr "attrs" (Text.join "," (distinct (Text.cut s "," ++ own))))
  | some _ => .error .absent

/-- The text of a parameter that is used as it is, and whether it can be written. -/
def rawText : Value → String × Bool
  | .str s => (s, true)
  | v => ("", !v.truth)

/-- An element of an action with its place in a chart. -/
def addChart (params : Table Value) (e : Element) : Expansion :=
  match params.get? "chart" with
  | none => .ofNodes [e.toNode]
  | some v => ⟨[(e.setAttr "chart" (rawText v).1).toNode], (rawText v).2⟩

/-- What an element of an action becomes. -/
def expandActionElement (params : Table Value) (e : Element) : Except Error Expansion := do
  let kept ← match e.attr? "condition" with
    | some condition => holds params condition
    | none => .ok true
  if !kept then .ok .none
  else
    let e := e.eraseAttr "condition"
    let attrs ← expandAttrs params e.attrs.entries
    let e ← addAttrs params { e with attrs := ⟨attrs⟩ }
    .ok (addChart params e)

/-- What the stored elements of an action become. -/
def expandActionTexts (params : Table Value) : List String → Except Error Expansion
  | [] => .ok .none
  | s :: rest => do
    let e ← restore s
    let a ← expandActionElement params e
    let b ← expandActionTexts params rest
    .ok (a.append b)

/-- What the use of an action becomes. -/
def expandAction (c : Context) (scope : Scope) (e : Element) : Except Error Expansion := do
  let name := e.attr "name"
  let action ← c.document.action name
  let params ← bindArguments scope action.params (argumentsOf e)
  checkParams .action name params
  checkColor c.document params
  match action.elements with
  | some texts => expandActionTexts params texts
  | none => .error .wrongKind

/-! ## Other elements -/

/-- What the use of an image becomes. -/
def expandImage (c : Context) (e : Element) : Except Error Expansion := do
  let name := e.attr "name"
  let _ ← c.document.image name
  let given (k : String) := ((e.attr? k).map (k, ·)).toList
  .ok (.ofNodes [(element "image" ([("name", name)] ++ given "tag" ++ given "caption")).toNode])

/-- What a text becomes. -/
def expandTextElement (scope : Scope) (e : Element) : Except Error Expansion := do
  let data ← (e.attr? "data").mapM (expandText scope)
  .ok (.ofNodes [(element "text" (data.map ("data", ·)).toList).toNode])

/-- What an instruction becomes, without its content. -/
def instructionHead (scope : Scope) (e : Element) : Except Error Element := do
  let name ← (e.attr? "name").mapM (expandText scope)
  .ok (element "instruction" (name.map ("name", ·)).toList)

/-- What a repeat becomes, without its content. -/
def repeatHead (scope : Scope) (e : Element) : Except Error Element := do
  if !e.hasAttr "count" then throw .repeatWithoutCount
  let attrs ← copyArguments scope Table.empty (argumentsOf e)
  .ok ⟨"repeat", attrs, []⟩

/-- What a row becomes, without its content. -/
def rowHead (scope : Scope) (e : Element) : Except Error Element := do
  if !e.hasAttr "type" then throw .rowWithoutType
  let attrs ← copyArguments scope Table.empty (argumentsOf e)
  .ok ⟨"row", attrs, []⟩

/-- The scope inside a block that is used, and the stored elements of the block. -/
def enterBlock (c : Context) (scope : Scope) (e : Element) : Except Error (Scope × List String) := do
  let name := e.attr "name"
  let block ← c.document.block name
  let params ← bindArguments (scope.update c.globals) block.params (argumentsOf e)
  checkParams .block name params
  .ok (params.update c.globals, block.elements)

/-! ## Nodes -/

mutual

/-- What a node becomes, which must be an element; `content` expands the stored elements of a block in the
scope inside it. -/
def expandNode (c : Context) (content : Scope → List String → Except Error Expansion)
    (scope : Scope) : Node → Except Error Expansion
  | .element name attrs children => do
    let e : Element := ⟨name, attrs, []⟩
    if !(← elementHolds scope e) then .ok .none
    else if name == "opaf:action" then expandAction c scope e
    else if name == "opaf:block" then do
      let (inner, texts) ← enterBlock c scope e
      content inner texts
    else if name == "opaf:instruction" then do
      let scope := scope.update c.globals
      let head ← instructionHead scope e
      let inner ← expandNodes c content scope children
      .ok (inner.wrap head)
    else if name == "opaf:repeat" then do
      let scope := scope.update c.globals
      let head ← repeatHead scope e
      let inner ← expandNodes c content scope children
      .ok (inner.wrap head)
    else if name == "opaf:row" then do
      let scope := scope.update c.globals
      let head ← rowHead scope e
      let inner ← expandNodes c content scope children
      .ok (inner.wrap head)
    else if name == "opaf:image" then expandImage c e
    else if name == "opaf:text" then expandTextElement scope e
    else .ok .none
  | .text _ => .error .absent
  | .cdata _ => .error .absent
  | .comment _ => .error .absent
  | .instruction _ _ => .error .absent

/-- What nodes become, one behind the other. -/
def expandNodes (c : Context) (content : Scope → List String → Except Error Expansion)
    (scope : Scope) : List Node → Except Error Expansion
  | [] => .ok .none
  | n :: ns => do
    let a ← expandNode c content scope n
    let b ← expandNodes c content scope ns
    .ok (a.append b)

end

/-- What stored elements become, each expanded by `expand` after it has been read. -/
def expandTexts (expand : Node → Except Error Expansion) : List String → Except Error Expansion
  | [] => .ok .none
  | s :: rest => do
    let e ← restore s
    let a ← expand e.toNode
    let b ← expandTexts expand rest
    .ok (a.append b)

/-- What a node becomes, with blocks in blocks up to the given depth. -/
def expandTo (c : Context) : Nat → Scope → Node → Except Error Expansion
  | 0, scope => expandNode c (fun _ _ => .error .tooDeep) scope
  | depth + 1, scope => expandNode c (fun inner => expandTexts (expandTo c depth inner)) scope

/-- How deep blocks may stand in blocks.  Blocks that do not refer to themselves stay below their number;
the rest is for blocks that refer to themselves under a condition. -/
def Context.depth (c : Context) : Nat := c.document.blocks.length + 1000

/-- What stored elements become in the scope of the global values. -/
def Context.expand (c : Context) (texts : List String) : Except Error Expansion :=
  expandTexts (expandTo c c.depth c.globals) texts

end Stitchwork.Project
