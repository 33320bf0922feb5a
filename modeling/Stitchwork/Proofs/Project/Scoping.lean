/- # Stitchwork.Proofs.Project.Scoping — what an element of a pattern sees.

Expansion hands every element a scope.  Here it is watched: a second expansion keeps the scope as one mutable
table that siblings share and that instructions, repeats, rows and blocks write the global values into, and it
records every call with the scope at that moment.  The two expansions give the same, the shared table never
changes, and every recorded scope is exactly one of two things:

* outside of blocks, the global values;
* inside the use of a block, the global values, then the evaluated arguments of that use, then the defaults of
  the block's parameters, and nothing else.

So no local of a caller is visible in a block that it uses.
-/
import Stitchwork.Project.Build
import Stitchwork.Proofs.Table

namespace Stitchwork.Project

open Stitchwork.Formula Stitchwork.Markup Stitchwork.Pattern

/-! ## Arguments -/

/-- The values of arguments, by name. -/
def evaluateArguments (scope : Scope) : List (String × String) → Except Error (List (String × Value))
  | [] => .ok []
  | a :: rest => do
    let s ← expandAttr scope a
    let others ← evaluateArguments scope rest
    .ok ((a.1, coerce s) :: others)

/-- Binding arguments is evaluating them and then setting them, the scope staying as it is. -/
theorem bindArguments_eq (scope : Scope) (params : Table Value) (args : List (String × String)) :
    bindArguments scope params args = (evaluateArguments scope args).map params.insertAll := by
  induction args generalizing params with
  | nil => rfl
  | cons a rest ih =>
    cases hs : expandAttr scope a with
    | error e => simp [bindArguments, evaluateArguments, hs, Except.map, bind, Except.bind]
    | ok s =>
      have hrest := ih (params.insert a.1 (coerce s))
      cases hr : evaluateArguments scope rest <;>
        simpa [bindArguments, evaluateArguments, hs, hr, Except.map, bind, Except.bind] using hrest

/-- Arguments that expand to the same texts have the same values. -/
theorem evaluateArguments_congr {s₁ s₂ : Scope} {args : List (String × String)}
    (h : ∀ a ∈ args, expandAttr s₁ a = expandAttr s₂ a) :
    evaluateArguments s₁ args = evaluateArguments s₂ args := by
  induction args with
  | nil => rfl
  | cons a rest ih =>
    have hrest := ih fun b hb => h b (List.mem_cons_of_mem _ hb)
    simp [evaluateArguments, h a (by simp), hrest]

/-! ## Uses of blocks -/

/-- The use of a block: the scope and the element that use it, the block, and the values of the arguments. -/
structure Invocation where
  caller : Scope
  element : Element
  block : Block
  arguments : List (String × Value)

namespace Invocation

/-- The parameters of the block with the arguments set. -/
def params (i : Invocation) : Table Value := i.block.params.insertAll i.arguments

/-- The scope inside the block. -/
def scope (globals : Scope) (i : Invocation) : Scope := i.params.update globals

/-- What a name means inside the block: a global value first, then an argument, then a default. -/
def meaning (globals : Scope) (i : Invocation) (k : String) : Option Value :=
  (globals.get? k).or (((Table.ofList i.arguments).get? k).or (i.block.params.get? k))

/-- The block is the one that the element names, and the arguments are the values of the attributes of the
element in the scope of the caller. -/
def Proper (c : Context) (i : Invocation) : Prop :=
  c.document.block (i.element.attr "name") = .ok i.block ∧
    evaluateArguments i.caller (argumentsOf i.element) = .ok i.arguments

theorem get?_scope {globals : Scope} (hg : globals.keys.Nodup) (i : Invocation) (k : String) :
    (i.scope globals).get? k = i.meaning globals k := by
  rw [scope, Table.get?_update _ hg, params, Table.get?_insertAll_ofList]
  rfl

theorem scope_update {globals : Scope} (hg : globals.keys.Nodup) (i : Invocation) :
    (i.scope globals).update globals = i.scope globals :=
  Table.update_update hg

end Invocation

/-- Using a block, in the parts that the watched expansion takes one by one. -/
theorem enterBlock_eq (c : Context) (scope : Scope) (e : Element) :
    enterBlock c scope e = (do
      let block ← c.document.block (e.attr "name")
      let args ← evaluateArguments (scope.update c.globals) (argumentsOf e)
      let i : Invocation := ⟨scope.update c.globals, e, block, args⟩
      checkParams .block (e.attr "name") i.params
      .ok (i.scope c.globals, block.elements)) := by
  simp only [enterBlock, bindArguments_eq, Invocation.scope, Invocation.params]
  cases c.document.block (e.attr "name") with
  | error err => rfl
  | ok block => cases evaluateArguments (scope.update c.globals) (argumentsOf e) <;> rfl

/-! ## The watched expansion -/

/-- A call of the expansion: the use of a block that it stands in, if any, the scope, and the node. -/
structure Call where
  invocation : Option Invocation
  scope : Scope
  node : Node

/-- The scope is exactly what the rules of scoping say: the global values outside of blocks, and inside the
use of a block what names mean there. -/
def ScopeIs (c : Context) (scope : Scope) : Option Invocation → Prop
  | none => scope = c.globals
  | some i => i.Proper c ∧ ∀ k, scope.get? k = i.meaning c.globals k

/-- The scope of a call is exactly what the rules of scoping say. -/
def Call.Exact (c : Context) (call : Call) : Prop := ScopeIs c call.scope call.invocation

/-- The shared table as it is now, and the calls so far. -/
structure Watch where
  scope : Scope
  calls : List Call

/-- Expansion that is watched. -/
abbrev Watched := ExceptT Error (StateM Watch)

namespace Watched

/-- A result that needs no watching. -/
def lift {α : Type} (r : Except Error α) : Watched α := ExceptT.mk (pure r)

/-- Records a call with the table as it is. -/
def record (i : Option Invocation) (n : Node) : Watched Unit :=
  modifyThe Watch fun w => { w with calls := w.calls ++ [⟨i, w.scope, n⟩] }

/-- The table as it is. -/
def scope : Watched Scope := do return (← getThe Watch).scope

/-- Writes the global values into the table. -/
def refresh (globals : Scope) : Watched Unit :=
  modifyThe Watch fun w => { w with scope := w.scope.update globals }

/-- Goes on with a table of its own, and back to the old one afterwards. -/
def within {α : Type} (inner : Scope) (x : Watched α) : Watched α :=
  ExceptT.mk fun w =>
    let (r, v) := x.run.run ⟨inner, w.calls⟩
    (r, ⟨w.scope, v.calls⟩)

end Watched

open Watched (lift record refresh within)

mutual

/-- What a node becomes; `content` expands the stored elements of a block. -/
def watchNode (c : Context) (content : Invocation → List String → Watched Expansion)
    (i : Option Invocation) : Node → Watched Expansion
  | .element name attrs children => do
    let e : Element := ⟨name, attrs, []⟩
    record i (.element name attrs children)
    let scope ← Watched.scope
    if !(← lift (elementHolds scope e)) then return .none
    else if name == "opaf:action" then lift (expandAction c scope e)
    else if name == "opaf:block" then do
      let block ← lift (c.document.block (e.attr "name"))
      refresh c.globals
      let caller ← Watched.scope
      let args ← lift (evaluateArguments caller (argumentsOf e))
      let use : Invocation := ⟨caller, e, block, args⟩
      lift (checkParams .block (e.attr "name") use.params)
      within (use.scope c.globals) (content use block.elements)
    else if name == "opaf:instruction" then do
      refresh c.globals
      let head ← lift (instructionHead (← Watched.scope) e)
      let inner ← watchNodes c content i children
      return inner.wrap head
    else if name == "opaf:repeat" then do
      refresh c.globals
      let head ← lift (repeatHead (← Watched.scope) e)
      let inner ← watchNodes c content i children
      return inner.wrap head
    else if name == "opaf:row" then do
      refresh c.globals
      let head ← lift (rowHead (← Watched.scope) e)
      let inner ← watchNodes c content i children
      return inner.wrap head
    else if name == "opaf:image" then lift (expandImage c e)
    else if name == "opaf:text" then lift (expandTextElement scope e)
    else return .none
  | n => do
    record i n
    throw .absent

/-- What nodes become, one behind the other, all with the same table. -/
def watchNodes (c : Context) (content : Invocation → List String → Watched Expansion)
    (i : Option Invocation) : List Node → Watched Expansion
  | [] => return .none
  | n :: ns => do
    let a ← watchNode c content i n
    let b ← watchNodes c content i ns
    return a.append b

end

/-- What stored elements become. -/
def watchTexts (expand : Node → Watched Expansion) : List String → Watched Expansion
  | [] => return .none
  | s :: rest => do
    let e ← lift (restore s)
    let a ← expand e.toNode
    let b ← watchTexts expand rest
    return a.append b

/-- What a node becomes, with blocks in blocks up to the given depth. -/
def watchTo (c : Context) : Nat → Option Invocation → Node → Watched Expansion
  | 0, i => watchNode c (fun _ _ => throw .tooDeep) i
  | depth + 1, i => watchNode c (fun use => watchTexts (watchTo c depth (some use))) i

/-- What things become, one behind the other. -/
def watchEach {α : Type} (f : α → Watched Expansion) : List α → Watched Expansion
  | [] => return .none
  | x :: xs => do
    let a ← f x
    let b ← watchEach f xs
    return a.append b

/-- A chart of the project, unless its condition does not hold. -/
def watchChart (c : Context) (chart : Chart) : Watched Expansion := do
  if ← lift (holdsIfGiven c.globals chart.condition) then
    let rows ← watchTexts (watchTo c c.depth none) chart.rows
    return rows.wrap (element "chart" [("name", chart.name)])
  else return .none

/-- A component of the project, unless its condition does not hold. -/
def watchComponent (c : Context) (component : Component) : Watched Expansion := do
  if ← lift (holdsIfGiven c.globals component.condition) then
    match component.elements with
    | none => throw .wrongKind
    | some texts =>
      let content ← watchTexts (watchTo c c.depth none) texts
      return content.wrap (element "component"
        [("name", component.name), ("unique_id", component.uniqueId.getD "")])
  else return .none

/-- The charts and components of a project. -/
def watchParts (c : Context) : Watched Expansion := do
  let charts ← watchEach (watchChart c) c.document.charts
  let components ← watchEach (watchComponent c) c.document.components
  return charts.append components

/-! ## Following the plain expansion

`Follows` says of a watched step that, from the given table, it gives the given result, leaves the table as it
is, and records only calls whose scopes are exact. -/

/-- From the table `scope` the step gives `r`, keeps the table, and records exact calls only. -/
def Follows {α : Type} (c : Context) (scope : Scope) (x : Watched α) (r : Except Error α) : Prop :=
  ∀ log, ∃ calls, x.run.run ⟨scope, log⟩ = (r, ⟨scope, log ++ calls⟩) ∧
    ∀ call ∈ calls, call.Exact c ∧ call.scope.update c.globals = call.scope

section Follows

variable {α β : Type} {c : Context} {scope : Scope}

theorem follows_lift (r : Except Error α) : Follows c scope (lift r) r := by
  intro log
  exact ⟨[], by rw [List.append_nil]; rfl, by simp⟩

theorem follows_pure (a : α) : Follows c scope (pure a : Watched α) (.ok a) :=
  follows_lift (.ok a)

theorem follows_throw (e : Error) : Follows c scope (throw e : Watched α) (.error e) :=
  follows_lift (.error e)

/-- One step behind another. -/
theorem follows_bind {x : Watched α} {r : Except Error α} {f : α → Watched β}
    {g : α → Except Error β} (hx : Follows c scope x r)
    (hf : ∀ a, r = .ok a → Follows c scope (f a) (g a)) : Follows c scope (x >>= f) (r >>= g) := by
  intro log
  obtain ⟨calls, hrun, hcalls⟩ := hx log
  cases r with
  | error e =>
    refine ⟨calls, ?_, hcalls⟩
    simp only [ExceptT.run_bind, StateT.run_bind, hrun]
    rfl
  | ok a =>
    obtain ⟨more, hrun', hmore⟩ := hf a rfl (log ++ calls)
    refine ⟨calls ++ more, ?_, ?_⟩
    · simp only [ExceptT.run_bind, StateT.run_bind, hrun]
      rw [← List.append_assoc]
      exact hrun'
    · intro call hcall
      rcases List.mem_append.mp hcall with h | h
      · exact hcalls call h
      · exact hmore call h

/-- Reading the table. -/
theorem follows_scope_bind {f : Scope → Watched β} {r : Except Error β}
    (hf : Follows c scope (f scope) r) : Follows c scope (Watched.scope >>= f) r := by
  have hscope : Follows c scope Watched.scope (.ok scope) :=
    fun log => ⟨[], by rw [List.append_nil]; rfl, by simp⟩
  exact follows_bind (g := fun _ => r) hscope fun a ha => by cases ha; exact hf

/-- Writing the global values into a table that has them already. -/
theorem follows_refresh_bind {f : Unit → Watched β} {r : Except Error β}
    (hs : scope.update c.globals = scope) (hf : Follows c scope (f ()) r) :
    Follows c scope (refresh c.globals >>= f) r := by
  have hrefresh : Follows c scope (refresh c.globals) (.ok ()) := by
    intro log
    refine ⟨[], ?_, by simp⟩
    show (Except.ok (), (⟨scope.update c.globals, log⟩ : Watch)) = _
    rw [hs, List.append_nil]
  exact follows_bind (g := fun _ => r) hrefresh fun _ _ => hf

/-- Recording a call whose scope is exact. -/
theorem follows_record_bind {i : Option Invocation} {n : Node} {f : Unit → Watched β}
    {r : Except Error β} (hi : Call.Exact c ⟨i, scope, n⟩) (hs : scope.update c.globals = scope)
    (hf : Follows c scope (f ()) r) : Follows c scope (record i n >>= f) r := by
  have hrecord : Follows c scope (record i n) (.ok ()) :=
    fun log => ⟨[⟨i, scope, n⟩], rfl, by simpa using ⟨hi, hs⟩⟩
  exact follows_bind (g := fun _ => r) hrecord fun _ _ => hf

/-- A step with a table of its own. -/
theorem follows_within {inner : Scope} {x : Watched α} {r : Except Error α}
    (hx : Follows c inner x r) : Follows c scope (within inner x) r := by
  intro log
  obtain ⟨calls, hrun, hcalls⟩ := hx log
  refine ⟨calls, ?_, hcalls⟩
  show (let (r, v) := x.run.run ⟨inner, log⟩; (r, (⟨scope, v.calls⟩ : Watch))) = _
  rw [hrun]

end Follows

/-! ## One node, one block, one project -/

section Nodes

variable {c : Context} {scope : Scope} {i : Option Invocation}
  {content : Scope → List String → Except Error Expansion}
  {watched : Invocation → List String → Watched Expansion}

mutual

/-- What a node becomes is the same when it is watched, if that is so for the blocks that it uses. -/
theorem watchNode_follows
    (hcontent : ∀ use texts, use.Proper c →
      Follows c (use.scope c.globals) (watched use texts) (content (use.scope c.globals) texts))
    (hi : ScopeIs c scope i) (hs : scope.update c.globals = scope) (n : Node) :
    Follows c scope (watchNode c watched i n) (expandNode c content scope n) := by
  cases n with
  | text s => exact follows_record_bind hi hs (follows_throw _)
  | cdata s => exact follows_record_bind hi hs (follows_throw _)
  | comment s => exact follows_record_bind hi hs (follows_throw _)
  | instruction target data => exact follows_record_bind hi hs (follows_throw _)
  | element name attrs children =>
    simp only [watchNode, expandNode, hs, enterBlock_eq]
    refine follows_record_bind hi hs (follows_scope_bind ?_)
    refine follows_bind (follows_lift _) fun kept _ => ?_
    have hchildren := watchNodes_follows hcontent hi hs children
    split
    · exact follows_pure _
    split
    · exact follows_lift _
    split
    · -- The use of a block: its arguments are evaluated in the shared table, which has the global values.
      simp only [bind_assoc]
      refine follows_bind (follows_lift _) fun block hblock => ?_
      refine follows_refresh_bind hs (follows_scope_bind ?_)
      refine follows_bind (follows_lift _) fun args hargs => ?_
      refine follows_bind (follows_lift _) fun _ _ => ?_
      exact follows_within (hcontent ⟨scope, _, block, args⟩ block.elements ⟨hblock, hargs⟩)
    split
    · refine follows_refresh_bind hs (follows_scope_bind ?_)
      exact follows_bind (follows_lift _) fun head _ => follows_bind hchildren fun _ _ => follows_pure _
    split
    · refine follows_refresh_bind hs (follows_scope_bind ?_)
      exact follows_bind (follows_lift _) fun head _ => follows_bind hchildren fun _ _ => follows_pure _
    split
    · refine follows_refresh_bind hs (follows_scope_bind ?_)
      exact follows_bind (follows_lift _) fun head _ => follows_bind hchildren fun _ _ => follows_pure _
    split
    · exact follows_lift _
    split
    · exact follows_lift _
    · exact follows_pure _

theorem watchNodes_follows
    (hcontent : ∀ use texts, use.Proper c →
      Follows c (use.scope c.globals) (watched use texts) (content (use.scope c.globals) texts))
    (hi : ScopeIs c scope i) (hs : scope.update c.globals = scope) (ns : List Node) :
    Follows c scope (watchNodes c watched i ns) (expandNodes c content scope ns) := by
  cases ns with
  | nil => exact follows_pure _
  | cons n ns =>
    simp only [watchNodes, expandNodes]
    exact follows_bind (watchNode_follows hcontent hi hs n) fun a _ =>
      follows_bind (watchNodes_follows hcontent hi hs ns) fun b _ => follows_pure _

end

end Nodes

section Project

variable {c : Context} {scope : Scope}

/-- What stored elements become is the same when it is watched, if that is so for each of them. -/
theorem watchTexts_follows {expand : Node → Except Error Expansion} {watched : Node → Watched Expansion}
    (h : ∀ n, Follows c scope (watched n) (expand n)) (texts : List String) :
    Follows c scope (watchTexts watched texts) (expandTexts expand texts) := by
  induction texts with
  | nil => exact follows_pure _
  | cons s rest ih =>
    refine follows_bind (follows_lift _) fun e _ => ?_
    exact follows_bind (h e.toNode) fun a _ => follows_bind ih fun b _ => follows_pure _

/-- **Every depth of blocks in blocks.**  The scope inside the use of a block has the global values and is what
names mean there, so what holds of the outer node holds of the block's elements again. -/
theorem watchTo_follows (hg : c.globals.keys.Nodup) (depth : Nat) {i : Option Invocation}
    (hi : ScopeIs c scope i) (hs : scope.update c.globals = scope) (n : Node) :
    Follows c scope (watchTo c depth i n) (expandTo c depth scope n) := by
  induction depth generalizing scope i n with
  | zero => exact watchNode_follows (fun _ _ _ => follows_throw _) hi hs n
  | succ depth ih =>
    refine watchNode_follows (fun use texts hproper => ?_) hi hs n
    have hinside : ScopeIs c (use.scope c.globals) (some use) := ⟨hproper, use.get?_scope hg⟩
    exact watchTexts_follows (fun m => ih hinside (use.scope_update hg) m) texts

theorem watchEach_follows {α : Type} {f : α → Except Error Expansion} {g : α → Watched Expansion}
    (h : ∀ x, Follows c scope (g x) (f x)) (xs : List α) :
    Follows c scope (watchEach g xs) (expandEach f xs) := by
  induction xs with
  | nil => exact follows_pure _
  | cons x xs ih => exact follows_bind (h x) fun a _ => follows_bind ih fun b _ => follows_pure _

/-- The stored elements of a chart or a component are expanded in the scope of the global values. -/
theorem watchTop_follows (hg : c.globals.keys.Nodup) (texts : List String) :
    Follows c c.globals (watchTexts (watchTo c c.depth none) texts) (c.expand texts) :=
  watchTexts_follows (fun n => watchTo_follows hg c.depth (i := none) rfl (Table.update_self hg) n) texts

theorem watchChart_follows (hg : c.globals.keys.Nodup) (chart : Chart) :
    Follows c c.globals (watchChart c chart) (chartExpansion c chart) := by
  refine follows_bind (follows_lift _) fun kept _ => ?_
  split
  · exact follows_bind (watchTop_follows hg chart.rows) fun rows _ => follows_pure _
  · exact follows_pure _

theorem watchComponent_follows (hg : c.globals.keys.Nodup) (component : Component) :
    Follows c c.globals (watchComponent c component) (componentExpansion c component) := by
  refine follows_bind (follows_lift _) fun kept _ => ?_
  split
  · cases component.elements with
    | none => exact follows_throw _
    | some texts => exact follows_bind (watchTop_follows hg texts) fun content _ => follows_pure _
  · exact follows_pure _

theorem watchParts_follows (hg : c.globals.keys.Nodup) :
    Follows c c.globals (watchParts c) (parts c) :=
  follows_bind (watchEach_follows (watchChart_follows hg) c.document.charts) fun _ _ =>
    follows_bind (watchEach_follows (watchComponent_follows hg) c.document.components) fun _ _ =>
      follows_pure _

end Project

/-! ## The global values -/

theorem nodup_keys_configure (chosen : Table String) (configs : List Config) {globals : Scope}
    (hg : globals.keys.Nodup) : (configure chosen globals configs).globals.keys.Nodup := by
  induction configs generalizing globals with
  | nil => exact hg
  | cons c rest ih =>
    simp only [configure]
    split
    · exact hg
    · rename_i v left _
      have hset : (globals.insert c.name v).keys.Nodup := Table.nodup_keys_insert c.name v hg
      split
      · exact hset
      · exact ih hset

theorem nodup_keys_evaluateValue {globals globals' : Scope} {v : NamedValue}
    (hg : globals.keys.Nodup) (h : evaluateValue globals v = .ok globals') : globals'.keys.Nodup := by
  simp only [evaluateValue, bind, Except.bind] at h
  split at h
  · cases h
  split at h
  · split at h
    · cases h
    · cases h
      exact Table.nodup_keys_insert _ _ hg
  · cases h
    exact hg

theorem nodup_keys_evaluateValues (values : List NamedValue) {globals : Scope}
    (hg : globals.keys.Nodup) : (evaluateValues globals values).1.keys.Nodup := by
  induction values generalizing globals with
  | nil => exact hg
  | cons v rest ih =>
    simp only [evaluateValues]
    split
    · exact hg
    · rename_i globals' h
      exact ih (nodup_keys_evaluateValue hg h)

/-- The names of the global values of a project are distinct. -/
theorem nodup_keys_globals (d : Document) (choices : Choices) (name id : String) :
    (build d choices name id).globals.keys.Nodup := by
  have hempty : (Table.empty : Scope).keys.Nodup := by simp
  have hconfigured := nodup_keys_configure choices.configs d.configs hempty
  have hvalues := nodup_keys_evaluateValues d.values hconfigured
  simp only [build]
  split
  · simp
  split
  · exact hconfigured
  split
  · rename_i h; rw [h] at hvalues; exact hvalues
  · rename_i h; rw [h] at hvalues; exact hvalues

/-! ## What a block sees of its caller -/

/-- Two callers in whose scopes the arguments expand to the same texts enter the same block with the same
scope. -/
theorem enterBlock_congr (c : Context) {s₁ s₂ : Scope} {e : Element}
    (h : ∀ a ∈ argumentsOf e,
      expandAttr (s₁.update c.globals) a = expandAttr (s₂.update c.globals) a) :
    enterBlock c s₁ e = enterBlock c s₂ e := by
  simp only [enterBlock_eq, evaluateArguments_congr h, Invocation.scope, Invocation.params]

/-- The use of a block, as a node, is its condition and then the content of the block in the scope inside. -/
theorem expandNode_block (c : Context) (content : Scope → List String → Except Error Expansion)
    (scope : Scope) {e : Element} (he : e.name = "opaf:block") :
    expandNode c content scope e.toNode = (do
      if !(← elementHolds scope e) then .ok .none
      else
        let (inner, texts) ← enterBlock c scope e
        content inner texts) := by
  obtain ⟨name, attrs, children⟩ := e
  subst he
  simp only [Element.toNode, expandNode]
  rfl

/-- The expansion of a use of a block depends on the scope of the caller only through the condition of the
element and the texts of its arguments. -/
theorem expandTo_block_congr (c : Context) (depth : Nat) {s₁ s₂ : Scope} {e : Element}
    (he : e.name = "opaf:block") (hcondition : elementHolds s₁ e = elementHolds s₂ e)
    (h : ∀ a ∈ argumentsOf e,
      expandAttr (s₁.update c.globals) a = expandAttr (s₂.update c.globals) a) :
    expandTo c depth s₁ e.toNode = expandTo c depth s₂ e.toNode := by
  cases depth <;>
    simp only [expandTo, expandNode_block c _ _ he, hcondition, enterBlock_congr c h]

end Stitchwork.Project
