/- # Stitchwork.Proofs.Project.Order — values that do not read each other can change places.

What a project becomes depends on the table of global values only through what the names in it mean, not through
their order.  Two values that stand side by side, have different names and do not read each other's name can be
evaluated in either order: both orders succeed or both fail, and names mean the same afterwards.  So the text of the
project is the same.
-/
import Stitchwork.Proofs.Formula.Names
import Stitchwork.Proofs.Project.Expansion
import Stitchwork.Proofs.Project.Scoping

namespace Stitchwork.Pattern

open Stitchwork.Formula

/-- The names that the value and the condition of a definition read. -/
def NamedValue.reads (v : NamedValue) : List String := namesInGiven v.condition ++ namesIn v.value

end Stitchwork.Pattern

namespace Stitchwork.Project

open Stitchwork.Formula Stitchwork.Markup Stitchwork.Pattern

/-! ## Scopes that look the same

Every step of an expansion reads its scope by name, so scopes with the same view give the same. -/

section

variable {s t : Scope} (h : SameView s t)

include h

theorem expandText_sameView : expandText s = expandText t :=
  funext fun _ => expandText_congr (h.agreeOn _)

theorem holdsIfGiven_sameView : holdsIfGiven s = holdsIfGiven t :=
  funext fun _ => holdsIfGiven_congr (h.agreeOn _)

theorem expandAttr_sameView : expandAttr s = expandAttr t := by
  funext a
  rw [expandAttr, expandAttr, expandText_sameView h]

theorem bindArguments_sameView : bindArguments s = bindArguments t := by
  funext params args
  rw [bindArguments_eq, bindArguments_eq,
    evaluateArguments_congr fun a _ => congrFun (expandAttr_sameView h) a]

theorem copyArguments_sameView : copyArguments s = copyArguments t := by
  funext attrs args
  induction args generalizing attrs with
  | nil => rfl
  | cons a rest ih =>
    rw [copyArguments, copyArguments, expandAttr_sameView h]
    simp only [ih]

theorem expandTextElement_sameView : expandTextElement s = expandTextElement t := by
  funext e
  rw [expandTextElement, expandTextElement, expandText_sameView h]

theorem instructionHead_sameView : instructionHead s = instructionHead t := by
  funext e
  rw [instructionHead, instructionHead, expandText_sameView h]

theorem repeatHead_sameView : repeatHead s = repeatHead t := by
  funext e
  rw [repeatHead, repeatHead, copyArguments_sameView h]

theorem rowHead_sameView : rowHead s = rowHead t := by
  funext e
  rw [rowHead, rowHead, copyArguments_sameView h]

end

theorem sameView_update {s t g g' : Scope} (hs : SameView s t) (hg : g.keys.Nodup) (hg' : g'.keys.Nodup)
    (h : SameView g g') : SameView (s.update g) (t.update g') := by
  intro k
  rw [Table.get?_update s hg, Table.get?_update t hg', hs k, h k]

/-! ## Global values that look the same -/

/-- Tables of global values, with distinct names, that look the same. -/
structure SameGlobals (g g' : Scope) : Prop where
  left : g.keys.Nodup
  right : g'.keys.Nodup
  view : SameView g g'

section

variable {d : Document} {g g' s t : Scope}

theorem SameGlobals.update (hg : SameGlobals g g') (h : SameView s t) : SameView (s.update g) (t.update g') :=
  sameView_update h hg.left hg.right hg.view

theorem expandAction_sameView (h : SameView s t) : expandAction ⟨d, g⟩ s = expandAction ⟨d, g'⟩ t := by
  funext e
  rw [expandAction, expandAction, bindArguments_sameView h]

/-- A block is entered with scopes that look the same, so what is done there is the same. -/
theorem enterBlock_sameView (hg : SameGlobals g g') (h : SameView s t) (e : Element)
    {content other : Scope → List String → Except Error Expansion}
    (hcontent : ∀ inner inner' texts, SameView inner inner' → content inner texts = other inner' texts) :
    (enterBlock ⟨d, g⟩ s e >>= fun p => content p.1 p.2) =
      (enterBlock ⟨d, g'⟩ t e >>= fun p => other p.1 p.2) := by
  simp only [enterBlock, bind_assoc, bindArguments_sameView (hg.update h)]
  refine bind_congr_ok fun block _ => bind_congr_ok fun params _ => bind_congr_ok fun _ _ => ?_
  exact hcontent _ _ _ (hg.update (SameView.refl params))

variable {content other : Scope → List String → Except Error Expansion}

mutual

/-- What a node becomes is the same where the global values and the scopes look the same, if that is so for the
content of blocks. -/
theorem expandNode_sameView (hg : SameGlobals g g')
    (hcontent : ∀ inner inner' texts, SameView inner inner' → content inner texts = other inner' texts)
    {s t : Scope} (h : SameView s t) (n : Node) :
    expandNode ⟨d, g⟩ content s n = expandNode ⟨d, g'⟩ other t n := by
  cases n with
  | element name attrs children =>
    -- global values are written over the scope before the children are expanded, so both have to look the same
    have hupdate := hg.update h
    have hinner := expandNodes_sameView hg hcontent hupdate children
    rw [expandNode, expandNode, elementHolds, elementHolds, holdsIfGiven_sameView h]
    refine bind_congr_ok fun kept _ => ?_
    split
    · rfl
    split
    · rw [expandAction_sameView h]
    split
    · exact enterBlock_sameView hg h _ hcontent
    split
    · simp only [instructionHead_sameView hupdate, hinner]
    split
    · simp only [repeatHead_sameView hupdate, hinner]
    split
    · simp only [rowHead_sameView hupdate, hinner]
    split
    · rfl
    split
    · rw [expandTextElement_sameView h]
    · rfl
  | _ => rfl

theorem expandNodes_sameView (hg : SameGlobals g g')
    (hcontent : ∀ inner inner' texts, SameView inner inner' → content inner texts = other inner' texts)
    {s t : Scope} (h : SameView s t) (ns : List Node) :
    expandNodes ⟨d, g⟩ content s ns = expandNodes ⟨d, g'⟩ other t ns := by
  cases ns with
  | nil => rfl
  | cons n ns =>
    rw [expandNodes, expandNodes, expandNode_sameView hg hcontent h n, expandNodes_sameView hg hcontent h ns]

end

theorem expandTo_sameView (hg : SameGlobals g g') (depth : Nat) (h : SameView s t) (n : Node) :
    expandTo ⟨d, g⟩ depth s n = expandTo ⟨d, g'⟩ depth t n := by
  induction depth generalizing s t n with
  | zero => exact expandNode_sameView hg (fun _ _ _ _ => rfl) h n
  | succ depth ih =>
    refine expandNode_sameView hg (fun inner inner' texts hinner => ?_) h n
    exact expandTexts_congr fun _ _ e _ => ih hinner e.toNode

theorem expand_sameView (hg : SameGlobals g g') : Context.expand ⟨d, g⟩ = Context.expand ⟨d, g'⟩ := by
  funext texts
  exact expandTexts_congr fun _ _ e _ => expandTo_sameView hg _ hg.view e.toNode

/-- The charts and components of a project are the same where the global values look the same. -/
theorem parts_sameView (hg : SameGlobals g g') : parts ⟨d, g⟩ = parts ⟨d, g'⟩ := by
  have hcharts : chartExpansion ⟨d, g⟩ = chartExpansion ⟨d, g'⟩ := by
    funext chart
    rw [chartExpansion, chartExpansion, expand_sameView hg, holdsIfGiven_sameView hg.view]
  have hcomponents : componentExpansion ⟨d, g⟩ = componentExpansion ⟨d, g'⟩ := by
    funext component
    rw [componentExpansion, componentExpansion, expand_sameView hg, holdsIfGiven_sameView hg.view]
  rw [parts, parts, hcharts, hcomponents]

/-- The charts and components of a project do not depend on the definitions of values. -/
theorem parts_values (values : List NamedValue) : parts ⟨{ d with values := values }, g⟩ = parts ⟨d, g⟩ := by
  -- an expansion looks up actions, blocks, colours and images, never the definition of a value
  have halike : Alike ⟨d, g⟩ ⟨{ d with values := values }, g⟩ := ⟨rfl, rfl, rfl, rfl, rfl⟩
  rw [parts, chartExpansion_alike halike, componentExpansion_alike halike]
  rfl

end

/-! ## Values -/

/-- What a definition of a value adds to the global values: nothing if its condition does not hold. -/
def addition (globals : Scope) (v : NamedValue) : Except Error (Option Value) := do
  if ← holdsIfGiven globals v.condition then
    let s ← expandText globals v.value
    .ok (some (coerce s))
  else .ok none

/-- Adds a value to the global values, if there is one. -/
def addTo (globals : Scope) (name : String) : Option Value → Scope
  | some v => globals.insert name v
  | none => globals

theorem evaluateValue_eq (globals : Scope) (v : NamedValue) :
    evaluateValue globals v = (addition globals v).map (addTo globals v.name) := by
  rw [evaluateValue, addition]
  cases holdsIfGiven globals v.condition with
  | error e => rfl
  | ok kept =>
    cases kept with
    | false => rfl
    | true => cases expandText globals v.value <;> rfl

theorem addition_congr {s t : Scope} {v : NamedValue} (h : AgreeOn v.reads s t) : addition s v = addition t v := by
  obtain ⟨hcondition, hvalue⟩ := agreeOn_append.1 h
  rw [addition, addition, holdsIfGiven_congr hcondition, expandText_congr hvalue]

theorem get?_addTo (globals : Scope) (name : String) (o : Option Value) (k : String) :
    (addTo globals name o).get? k = if k = name then o.or (globals.get? k) else globals.get? k := by
  cases o with
  | none => simp [addTo]
  | some v => simp [addTo]

theorem sameView_addTo {s t : Scope} (h : SameView s t) (name : String) (o : Option Value) :
    SameView (addTo s name o) (addTo t name o) := by
  intro k
  rw [get?_addTo, get?_addTo, h k]

theorem agreeOn_addTo {names : List String} {name : String} (h : name ∉ names) (globals : Scope)
    (o : Option Value) : AgreeOn names (addTo globals name o) globals := by
  cases o with
  | none => exact (SameView.refl globals).agreeOn names
  | some v => exact agreeOn_insert h globals v

/-- Additions under different names can be made in either order. -/
theorem sameView_addTo_comm {globals : Scope} {j k : String} (h : j ≠ k) (o p : Option Value) :
    SameView (addTo (addTo globals j o) k p) (addTo (addTo globals k p) j o) := by
  intro x
  simp only [get?_addTo]
  by_cases hk : x = k
  -- the two names differ, so at most one of the additions is seen under a name
  · rw [if_pos hk, if_neg (hk ▸ h.symm), if_neg (hk ▸ h.symm), if_pos hk]
  · rw [if_neg hk, if_neg hk]

/-! ## Runs over values -/

/-- Runs over values that both succeed or both fail, and that leave, if they succeed, global values that look the
same. -/
structure Interchangeable (r r' : Scope × Except Error Unit) : Prop where
  succeeds : r.2 = .ok () ↔ r'.2 = .ok ()
  view : r.2 = .ok () → SameView r.1 r'.1

theorem evaluateValues_append (globals : Scope) (xs ys : List NamedValue) :
    evaluateValues globals (xs ++ ys) =
      match evaluateValues globals xs with
      | (globals', .ok ()) => evaluateValues globals' ys
      | (globals', .error e) => (globals', .error e) := by
  induction xs generalizing globals with
  | nil => rfl
  | cons v xs ih =>
    rw [List.cons_append, evaluateValues, evaluateValues]
    cases evaluateValue globals v with
    | error e => rfl
    | ok globals' => exact ih globals'

/-- Values are evaluated alike where the global values look the same. -/
theorem interchangeable_of_sameView (values : List NamedValue) {s t : Scope} (h : SameView s t) :
    Interchangeable (evaluateValues s values) (evaluateValues t values) := by
  induction values generalizing s t with
  | nil => exact ⟨Iff.rfl, fun _ => h⟩
  | cons v rest ih =>
    rw [evaluateValues, evaluateValues, evaluateValue_eq, evaluateValue_eq, addition_congr (h.agreeOn v.reads)]
    cases addition t v with
    | error e => exact ⟨Iff.rfl, fun h => by cases h⟩
    | ok o => exact ih (sameView_addTo h v.name o)

/-- Two values, one behind the other, where the second does not read the first: both are evaluated with the global
values as they were. -/
theorem evaluateValues_pair {v w : NamedValue} (h : v.name ∉ w.reads) (globals : Scope) :
    evaluateValues globals [v, w] =
      match addition globals v, addition globals w with
      | .ok o, .ok p => (addTo (addTo globals v.name o) w.name p, .ok ())
      | .ok o, .error e => (addTo globals v.name o, .error e)
      | .error e, _ => (globals, .error e) := by
  rw [evaluateValues, evaluateValue_eq]
  cases addition globals v with
  | error e => rfl
  | ok o =>
    show evaluateValues (addTo globals v.name o) [w] = _
    rw [evaluateValues, evaluateValue_eq, addition_congr (agreeOn_addTo h globals o)]
    cases addition globals w with
    | error e => rfl
    | ok p => rfl

/-- Neither value reads the name of the other, and the names differ. -/
structure Independent (v w : NamedValue) : Prop where
  names : v.name ≠ w.name
  left : w.name ∉ v.reads
  right : v.name ∉ w.reads

/-- Independent values can change places. -/
theorem Independent.interchangeable {v w : NamedValue} (h : Independent v w) (globals : Scope) :
    Interchangeable (evaluateValues globals [v, w]) (evaluateValues globals [w, v]) := by
  rw [evaluateValues_pair h.right, evaluateValues_pair h.left]
  cases addition globals v with
  | error e =>
    cases addition globals w with
    | error e' => exact ⟨by simp, nofun⟩
    | ok p => exact ⟨by simp, nofun⟩
  | ok o =>
    cases addition globals w with
    | error e' => exact ⟨by simp, nofun⟩
    | ok p => exact ⟨Iff.rfl, fun _ => sameView_addTo_comm h.names o p⟩

/-- Runs that are interchangeable stay so with further values behind them. -/
theorem Interchangeable.append {s t : Scope} {xs ys : List NamedValue}
    (h : Interchangeable (evaluateValues s xs) (evaluateValues t ys)) (back : List NamedValue) :
    Interchangeable (evaluateValues s (xs ++ back)) (evaluateValues t (ys ++ back)) := by
  rw [evaluateValues_append, evaluateValues_append]
  rcases hx : evaluateValues s xs with ⟨s', _ | _⟩ <;> rcases hy : evaluateValues t ys with ⟨t', _ | _⟩ <;>
    rw [hx, hy] at h
  · exact ⟨by simp, nofun⟩
  · exact absurd (h.succeeds.2 rfl) (by simp)
  · exact absurd (h.succeeds.1 rfl) (by simp)
  · exact interchangeable_of_sameView back (h.view rfl)

/-- Independent values can change places among other values. -/
theorem Independent.interchangeable_among {v w : NamedValue} (h : Independent v w) (front back : List NamedValue)
    (globals : Scope) :
    Interchangeable (evaluateValues globals (front ++ v :: w :: back))
      (evaluateValues globals (front ++ w :: v :: back)) := by
  rw [evaluateValues_append, evaluateValues_append]
  rcases evaluateValues globals front with ⟨globals', _ | _⟩
  · exact ⟨Iff.rfl, nofun⟩
  · exact (h.interchangeable globals').append back

/-! ## Projects -/

/-- Builds that both give the same project, with global values that look the same, or both fail. -/
structure SameBuild (b b' : Built) : Prop where
  tree : ∀ project, b.tree = .ok project ↔ b'.tree = .ok project
  view : ∀ project, b.tree = .ok project → SameView b.globals b'.globals

/-- A document whose values can be evaluated in either of two orders gives the same project with both. -/
theorem sameBuild_of_interchangeable {d : Document} {choices : Choices} {values : List NamedValue}
    (h : Interchangeable (evaluateValues (configure choices.configs Table.empty d.configs).globals d.values)
      (evaluateValues (configure choices.configs Table.empty d.configs).globals values)) (name id : String) :
    SameBuild (build d choices name id) (build { d with values := values } choices name id) := by
  have hempty : (Table.empty : Scope).keys.Nodup := by simp
  have hconfigured := nodup_keys_configure choices.configs d.configs hempty
  have hleft := nodup_keys_evaluateValues d.values hconfigured
  have hright := nodup_keys_evaluateValues values hconfigured
  have hpattern : patternElement { d with values := values } = patternElement d := rfl
  simp only [build, hpattern]
  cases patternElement d with
  | error e => exact ⟨fun _ => Iff.rfl, fun _ h => by cases h⟩
  | ok pattern =>
    cases (configure choices.configs Table.empty d.configs).elements with
    | error e => exact ⟨fun _ => Iff.rfl, fun _ h => by cases h⟩
    | ok configs =>
      rcases hd : evaluateValues (configure choices.configs Table.empty d.configs).globals d.values with ⟨g, _ | _⟩ <;>
        rcases hd' : evaluateValues (configure choices.configs Table.empty d.configs).globals values with ⟨g', _ | _⟩ <;>
        rw [hd, hd'] at h <;> rw [hd] at hleft <;> rw [hd'] at hright
      -- one run cannot succeed where the other fails; where both fail there is no project
      · exact ⟨by simp, fun _ h => by cases h⟩
      · exact absurd (h.succeeds.2 rfl) (by simp)
      · exact absurd (h.succeeds.1 rfl) (by simp)
      · have hparts := parts_sameView (d := d) ⟨hleft, hright, h.view rfl⟩
        rw [← parts_values (g := g') values] at hparts
        refine ⟨fun project => ?_, fun _ _ => h.view rfl⟩
        dsimp only
        rw [hparts]
        rfl

/-- What compiling does, case by case. -/
theorem compile_run (c : Compilation) (choices : Choices) (name : String) (d : Document) (n : Nat) :
    (compile c choices name d).run n =
      if (d.pkgVersion.getD "").isEmpty then (⟨.error .notPackaged, c, d⟩, n)
      else if c.started then (⟨.error .secondRoot, c, d⟩, n + 1)
      else
        let b := build d choices name (identifier (n + 1))
        (⟨b.tree >>= write, ⟨true, b.globals⟩, { d with configs := b.left }⟩, n + 1) := by
  rw [compile]
  split
  · rfl
  · cases c.started with
    | false => rfl
    | true => rfl

/-- A value that doubles `c`. -/
def doubled : NamedValue := ⟨"a", "$\x7bc * 2\x7d", none, none⟩

/-- A value that follows `c`, if that is positive. -/
def following : NamedValue := ⟨"b", "$\x7bc + 1\x7d", none, some "$\x7bGT(c, 0)\x7d"⟩

/-- A packaged pattern whose component is there if the two values add up to ten. -/
def sumPattern (first second : NamedValue) : Document :=
  { Document.empty with
    pkgVersion := some "p"
    values := [⟨"c", "3", none, none⟩] ++ first :: second :: [⟨"d", "$\x7ba + b\x7d", none, none⟩]
    components := [⟨"k", none, some [], some "$\x7bEQ(d, 10)\x7d"⟩] }

end Stitchwork.Project
