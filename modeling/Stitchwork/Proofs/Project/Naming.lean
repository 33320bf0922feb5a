/- # Stitchwork.Proofs.Project.Naming — results that have been given a name.

A value of a pattern is evaluated to a text, and what that text says is stored.  An integer is stored as itself.  A
truth value is stored as a text, and every text but the empty one counts as true.  So the connectives `IF`, `NOT`, `AND`
and `OR` cannot tell an integer, or the truth value `True`, from the name that it has been given.  `False` they can
tell: a formula gets it back from the stored text by `BOOL`.
-/
import Stitchwork.Project.Globals
import Stitchwork.Proofs.Formula.Coerce
import Stitchwork.Proofs.Formula.Names
import Stitchwork.Proofs.Formula.Template

namespace Stitchwork.Formula

open Stitchwork.Number

variable {f : Function} {source : List Char}

/-! ## Templates that say formulas -/

/-- The text says the formula, and can stand between the braces of a template. -/
structure Says (source : List Char) (e : Expr) : Prop where
  closed : closeBrace ∉ source
  characters : Text.hasSurrogates source = false
  parses : parse? source = some e

/-- A text whose words say the formula says the formula. -/
theorem says_of_tokens {words : List Token} {e : Expr} (htokens : tokens? source = some words)
    (hparse : parseAll (depthFor words.length) words = some e) (hclosed : closeBrace ∉ source)
    (hcharacters : Text.hasSurrogates source = false) : Says source e := by
  refine ⟨hclosed, hcharacters, ?_⟩
  rw [parse?, htokens]
  exact hparse

/-- Why a template has no text: the fault of a formula, or none if a value is too long to be written. -/
def TemplateError.fault? : TemplateError → Option Fault
  | .formula _ fault => some fault
  | .unwritable => none

/-- What a template becomes: a text, or the fault that keeps it from becoming one, wherever that stands. -/
def outcome (scope : Scope) (s : String) : Except (Option Fault) String :=
  (expand scope s).mapError TemplateError.fault?

/-- What a template that is one formula becomes, from the text of the value of the formula. -/
def outcomeOf : Except Fault (Option String) → Except (Option Fault) String
  | .error fault => .error (some fault)
  | .ok none => .error none
  | .ok (some s) => .ok s

theorem Says.evaluate {e : Expr} (h : Says source e) (scope : Scope) : evaluate scope source = e.eval scope := by
  rw [Formula.evaluate, h.characters, h.parses]
  rfl

/-- What a template that says a formula becomes depends on the text of the value of the formula only. -/
theorem Says.outcome {e : Expr} (h : Says source e) (scope : Scope) :
    outcome scope (formulaText source) = outcomeOf ((e.eval scope).map Value.text?) := by
  rw [Formula.outcome, expand_formulaText h.closed, Piece.expand, h.evaluate]
  cases e.eval scope with
  | error fault => rfl
  | ok v =>
    simp only [Except.map]
    cases v.text? with
    | none => rfl
    | some s => exact congrArg Except.ok String.ofList_toList

/-! ## Connectives -/

/-- The functions that look at the truth of their first argument. -/
def connectives : List Function := [.ite, .not, .and, .or]

theorem ofName?_name (f : Function) : Function.ofName? f.name = some f := by
  cases f <;> decide

/-- A connective has a first parameter without a value to fall back on. -/
theorem exists_params_of_connective (hf : f ∈ connectives) : ∃ p ps, f.params = (p, none) :: ps := by
  simp only [connectives, List.mem_cons, List.not_mem_nil, or_false] at hf
  rcases hf with rfl | rfl | rfl | rfl <;> exact ⟨_, _, rfl⟩

theorem run_connective (hf : f ∈ connectives) {v w : Value} (htruth : v.truth = w.truth) (htext : v.text? = w.text?)
    (vs : List Value) : (f.run (v :: vs)).map Value.text? = (f.run (w :: vs)).map Value.text? := by
  simp only [connectives, List.mem_cons, List.not_mem_nil, or_false] at hf
  rcases hf with rfl | rfl | rfl | rfl <;> rcases vs with _ | ⟨a, _ | ⟨b, _ | ⟨c, vs⟩⟩⟩ <;>
    simp only [Function.run, htruth, Except.map] <;> split <;> simp only [htext]

/-- A connective gives results with the same text for first arguments of the same truth and with the same text. -/
theorem call_connective (hf : f ∈ connectives) {v w : Value} (htruth : v.truth = w.truth) (htext : v.text? = w.text?)
    (vs : List Value) (named : List (String × Value)) :
    (f.call (v :: vs) named).map Value.text? = (f.call (w :: vs) named).map Value.text? := by
  obtain ⟨p, ps, hparams⟩ := exists_params_of_connective hf
  rw [Function.call, Function.call, hparams, Function.bind?, Function.bind?]
  by_cases htwice : (named.lookup p).isSome
  · rw [if_pos htwice, if_pos htwice]
  · rw [if_neg htwice, if_neg htwice]
    cases Function.bind? ps vs named with
    | none => rfl
    | some ws => exact run_connective hf htruth htext ws

/-! ## Calls of connectives -/

/-- No value that has the name is a function.  This is so for every name in the scopes of a project, which hold
numbers and texts only. -/
def FreeOf (scope : Scope) (f : Function) : Prop := ∀ g, scope.get? f.name ≠ some (.function g)

/-- Under the name of a function stands the function, or something that cannot be called. -/
theorem lookup_name {scope : Scope} (h : FreeOf scope f) :
    ∃ g, lookup scope f.name = .ok g ∧ (g = .function f ∨ ∀ vs named, g.call vs named = .error .wrongKind) := by
  rw [lookup]
  cases hget : scope.get? f.name with
  | none => exact ⟨.function f, by simp [ofName?_name], .inl rfl⟩
  | some v =>
    refine ⟨v.placed f.name [], rfl, .inr fun vs named => ?_⟩
    cases v with
    | function g => exact absurd hget (h g)
    | float x => cases x <;> rfl
    | _ => rfl

/-- A call whose first argument has a value. -/
theorem eval_call_of_first {scope : Scope} {f a : Expr} {v : Value} (ha : a.eval scope = .ok v) (rest : List Expr)
    (names : List String) (named : List Expr) :
    (Expr.call f (a :: rest) names named).eval scope = (do
      let g ← f.eval scope
      let vs ← Expr.evalAll scope rest
      let ws ← Expr.evalAll scope named
      g.call (v :: vs) (names.zip ws)) := by
  rw [Expr.eval, Expr.evalAll, ha]
  cases f.eval scope with
  | error e => rfl
  | ok g => cases Expr.evalAll scope rest <;> rfl

/-- Calls of a connective with first arguments of the same truth and with the same text give the same text, where the
scopes agree on all else that stands in the calls. -/
theorem call_congr_first {s t : Scope} (hf : f ∈ connectives) (hfree : FreeOf s f) {a b : Expr} {v w : Value}
    (ha : a.eval s = .ok v) (hb : b.eval t = .ok w) (htruth : v.truth = w.truth) (htext : v.text? = w.text?)
    {rest named : List Expr} (names : List String)
    (hagree : AgreeOn (f.name :: (Expr.namesOfAll rest ++ Expr.namesOfAll named)) s t) :
    ((Expr.call (.name f.name) (a :: rest) names named).eval s).map Value.text? =
      ((Expr.call (.name f.name) (b :: rest) names named).eval t).map Value.text? := by
  obtain ⟨hname, hothers⟩ := List.forall_mem_cons.1 hagree
  obtain ⟨hrest, hnamed⟩ := agreeOn_append.1 hothers
  obtain ⟨g, hg, hcall⟩ := lookup_name hfree
  have hg' : lookup t f.name = .ok g := (Expr.lookup_congr hname).symm.trans hg
  rw [eval_call_of_first ha, eval_call_of_first hb, Expr.eval, Expr.eval, hg, hg', Expr.evalAll_congr rest hrest,
    Expr.evalAll_congr named hnamed]
  cases Expr.evalAll t rest with
  | error e => rfl
  | ok vs =>
    cases Expr.evalAll t named with
    | error e => rfl
    | ok ws =>
      show (g.call (v :: vs) _).map Value.text? = (g.call (w :: vs) _).map Value.text?
      -- under the name of the connective stands the connective, or what can be called with neither argument
      rcases hcall with rfl | hcall
      · exact call_connective hf htruth htext vs _
      · rw [hcall, hcall]

end Stitchwork.Formula

namespace Stitchwork.Project

open Stitchwork.Formula Stitchwork.Number Stitchwork.Pattern

/-! ## Results that are stored -/

/-- A value whose condition holds is stored as what the text that it expands to says. -/
theorem evaluateValue_of_holds {G : Scope} {v : NamedValue} (hcondition : holdsIfGiven G v.condition = .ok true) :
    evaluateValue G v = (expandText G v.value).map fun t => G.insert v.name (coerce t) := by
  rw [evaluateValue, hcondition]
  change (expandText G v.value >>= fun s => Except.ok (G.insert v.name (coerce s))) = _
  cases expandText G v.value <;> rfl

/-- A value whose text is one formula is stored as what the text of the result says. -/
theorem evaluateValue_of_formula {G : Scope} {v : NamedValue} {source : List Char} {e : Expr} {r : Value} {t : String}
    (hvalue : v.value = formulaText source) (hsource : Says source e) (hcondition : holdsIfGiven G v.condition = .ok true)
    (he : e.eval G = .ok r) (ht : r.text? = some t) : evaluateValue G v = .ok (G.insert v.name (coerce t)) := by
  have hexpand : expandText G v.value = .ok t := by
    rw [expandText, hvalue, expand_formulaText hsource.closed, Piece.expand, hsource.evaluate, he]
    simp only [ht]
    exact congrArg Except.ok String.ofList_toList
  rw [evaluateValue_of_holds hcondition, hexpand]
  rfl

theorem lookup_insert (G : Scope) (x : String) (v : Value) : lookup (G.insert x v) x = .ok (v.placed x []) := by
  rw [lookup, Table.get?_insert, if_pos rfl]

/-- A truth value is stored as a text. -/
theorem coerce_boolText (b : Bool) : coerce (if b then "True" else "False") = .str (if b then "True" else "False") := by
  have hint : readInt? (if b then "True" else "False") = none := by cases b <;> decide +kernel
  have hdouble : readBinary64? (if b then "True" else "False") = none := by cases b <;> decide +kernel
  rw [coerce, hint, hdouble]

/-- A result that lasts when it is given a name: an integer that can be written, or the truth value `True`. -/
def Lasting (r : Value) : Prop := r = .bool true ∨ ∃ n : Int, n.natAbs < pow10 maxDigits ∧ r = .int n

/-- What a name stands for that was given to a result: a value of the same truth and with the same text. -/
theorem Lasting.stored {r : Value} (hr : Lasting r) (G : Scope) (x : String) :
    ∃ t w, r.text? = some t ∧ lookup (G.insert x (coerce t)) x = .ok w ∧ w.truth = r.truth ∧ w.text? = r.text? := by
  rcases hr with rfl | ⟨n, hn, rfl⟩
  -- stored as a text: not the same value, but no connective can tell
  · refine ⟨"True", .str "True", rfl, ?_, by decide, rfl⟩
    rw [lookup_insert, show coerce "True" = .str "True" from coerce_boolText true]
    rfl
  · have htext : (Value.int n).text? = some (intText n) := by
      show intText? n = _
      rw [intText?, if_pos hn]
    refine ⟨intText n, .int n, htext, ?_, rfl, rfl⟩
    rw [lookup_insert, coerce, readInt?_intText hn]
    rfl

/-- `BOOL` reads a truth value back from the name that it was given. -/
theorem eval_bool_stored {G : Scope} {x : String} (hname : Function.ofName? x = none)
    (hbool : G.get? Function.bool.name = none) (b : Bool) :
    (Expr.call (.name Function.bool.name) [.name x] [] []).eval
      (G.insert x (coerce (if b then "True" else "False"))) = .ok (.bool b) := by
  have hne : Function.bool.name ≠ x := by
    rintro rfl
    cases hname
  have hlookup : lookup (G.insert x (.str (if b then "True" else "False"))) Function.bool.name =
      .ok (.function .bool) := by
    rw [lookup, Table.get?_insert, if_neg hne, hbool]
    rfl
  have harg : (Expr.name x).eval (G.insert x (.str (if b then "True" else "False"))) =
      .ok (.str (if b then "True" else "False")) := lookup_insert G x _
  rw [coerce_boolText, eval_call_of_first harg, Expr.eval, hlookup]
  have hback : (Value.str (if b then "True" else "False")).asBool = b := by cases b <;> decide +kernel
  show Except.ok (Value.bool (Value.asBool _)) = _
  rw [hback]

section

variable {G : Scope} {x : String} {f : Function} (hname : Function.ofName? x = none) (hf : f ∈ connectives)
  (hfree : FreeOf G f) {rest named : List Expr} (hrest : x ∉ Expr.namesOfAll rest) (hnamed : x ∉ Expr.namesOfAll named)

include hname hrest hnamed

theorem not_mem_names_of_call : x ∉ f.name :: (Expr.namesOfAll rest ++ Expr.namesOfAll named) := by
  have hne : x ≠ f.name := by
    rintro rfl
    rw [ofName?_name] at hname
    cases hname
  simp [hne, hrest, hnamed]

include hf hfree

/-- A template that says a call of a connective becomes the same, once a name has been set, with another first
argument that has the same truth and the same text. -/
theorem outcome_of_first {stored w r : Value} {a e : Expr} {names : List String} {byName direct : List Char}
    (ha : a.eval (G.insert x stored) = .ok w) (he : e.eval G = .ok r) (htruth : w.truth = r.truth)
    (htext : w.text? = r.text?) (hbyName : Says byName (.call (.name f.name) (a :: rest) names named))
    (hdirect : Says direct (.call (.name f.name) (e :: rest) names named)) :
    outcome (G.insert x stored) (formulaText byName) = outcome G (formulaText direct) := by
  -- the new name stands nowhere in the calls but in the first argument, so all else keeps its value
  have hagree := agreeOn_insert (not_mem_names_of_call (f := f) hname hrest hnamed) G stored
  have hfree' : FreeOf (G.insert x stored) f := by
    intro g
    rw [hagree f.name (by simp)]
    exact hfree g
  rw [hbyName.outcome, hdirect.outcome, call_congr_first hf hfree' ha he htruth htext names hagree]

end

/-- **Naming a result does not change it.**  When a value has been evaluated whose text is one formula, and the result
is an integer that can be written or the truth value `True`, every template that says a call of a connective with the
name as its first argument becomes the same as one that says the call with the formula itself there, before or after.
The name must not be that of a function and must not stand in the formulas. -/
theorem naming_keeps_result {G : Scope} {v : NamedValue} {source : List Char} {e : Expr} {r : Value}
    (hvalue : v.value = formulaText source) (hsource : Says source e) (hcondition : holdsIfGiven G v.condition = .ok true)
    (he : e.eval G = .ok r) (hr : Lasting r) (hname : Function.ofName? v.name = none) (hfresh : v.name ∉ e.names) :
    ∃ G', evaluateValue G v = .ok G' ∧ ∀ f ∈ connectives, FreeOf G f → ∀ rest names named,
      v.name ∉ Expr.namesOfAll rest → v.name ∉ Expr.namesOfAll named → ∀ byName direct,
        Says byName (.call (.name f.name) (.name v.name :: rest) names named) →
        Says direct (.call (.name f.name) (e :: rest) names named) →
        outcome G' (formulaText byName) = outcome G (formulaText direct) ∧
          outcome G' (formulaText direct) = outcome G (formulaText direct) := by
  obtain ⟨t, w, ht, hw, htruth, htext⟩ := hr.stored G v.name
  refine ⟨_, evaluateValue_of_formula hvalue hsource hcondition he ht, ?_⟩
  intro f hf hfree rest names named hrest hnamed byName direct hbyName hdirect
  have he' : e.eval (G.insert v.name (coerce t)) = .ok r := by
    rw [Expr.eval_congr e (agreeOn_insert hfresh G (coerce t)), he]
  exact ⟨outcome_of_first hname hf hfree hrest hnamed (a := .name v.name) hw he htruth htext hbyName hdirect,
    outcome_of_first hname hf hfree hrest hnamed he' he rfl rfl hdirect hdirect⟩

/-- **`BOOL` keeps truth values.**  When a value has been evaluated whose text is one formula, and the result is a truth
value, either of the two, every template that says a call of a connective with `BOOL` of the name as its first argument
becomes the same as one that says the call with the formula itself there. -/
theorem naming_kept_by_bool {G : Scope} {v : NamedValue} {source : List Char} {e : Expr} {b : Bool}
    (hvalue : v.value = formulaText source) (hsource : Says source e) (hcondition : holdsIfGiven G v.condition = .ok true)
    (he : e.eval G = .ok (.bool b)) (hname : Function.ofName? v.name = none) (hbool : G.get? Function.bool.name = none) :
    ∃ G', evaluateValue G v = .ok G' ∧ ∀ f ∈ connectives, FreeOf G f → ∀ rest names named,
      v.name ∉ Expr.namesOfAll rest → v.name ∉ Expr.namesOfAll named → ∀ byName direct,
        Says byName
          (.call (.name f.name) (.call (.name Function.bool.name) [.name v.name] [] [] :: rest) names named) →
        Says direct (.call (.name f.name) (e :: rest) names named) →
        outcome G' (formulaText byName) = outcome G (formulaText direct) := by
  refine ⟨_, evaluateValue_of_formula hvalue hsource hcondition he rfl, ?_⟩
  intro f hf hfree rest names named hrest hnamed byName direct hbyName hdirect
  exact outcome_of_first hname hf hfree hrest hnamed (eval_bool_stored hname hbool b) he rfl rfl hbyName hdirect

/-- The formula `n - 1`. -/
def oneLess : Expr := .binary .sub (.name "n") (.literal (.int 1))

/-- A call of `IF` with two numbers to choose from. -/
def chooseBy (test : Expr) : Expr := .call (.name "IF") (test :: [.literal (.int 7), .literal (.int 8)]) [] []

/-- With two for `n - 1`, the choice by its name is the choice by the formula. -/
theorem naming_two_keeps_result : ∃ G', evaluateValue ⟨[("n", .int 3)]⟩ ⟨"m", "$\x7bn - 1\x7d", none, none⟩ = .ok G' ∧
    outcome G' "$\x7bIF(m, 7, 8)\x7d" = outcome ⟨[("n", .int 3)]⟩ "$\x7bIF(n - 1, 7, 8)\x7d" := by
  have hsource : Says "n - 1".toList oneLess :=
    says_of_tokens (show _ = some [.word "n", .sign "-", .int 1] by decide +kernel) rfl (by decide +kernel)
      (by decide +kernel)
  have hbyName : Says "IF(m, 7, 8)".toList (chooseBy (.name "m")) := by
    refine says_of_tokens (show _ = some [.word "IF", .sign "(", .word "m", .sign ",", .int 7, .sign ",", .int 8, .sign ")"]
      by decide +kernel) ?_ (by decide +kernel) (by decide +kernel)
    set_option maxRecDepth 20000 in rfl
  have hdirect : Says "IF(n - 1, 7, 8)".toList (chooseBy oneLess) := by
    refine says_of_tokens (show _ = some [.word "IF", .sign "(", .word "n", .sign "-", .int 1, .sign ",", .int 7, .sign ",",
      .int 8, .sign ")"] by decide +kernel) ?_ (by decide +kernel) (by decide +kernel)
    set_option maxRecDepth 20000 in rfl
  obtain ⟨G', hG', hkeeps⟩ := naming_keeps_result (v := ⟨"m", "$\x7bn - 1\x7d", none, none⟩) (by decide +kernel) hsource rfl
    (show oneLess.eval ⟨[("n", .int 3)]⟩ = .ok (.int 2) from rfl) (.inr ⟨2, by decide +kernel, rfl⟩) (by decide +kernel)
    (by decide)
  have htexts : "$\x7bIF(m, 7, 8)\x7d" = formulaText "IF(m, 7, 8)".toList ∧
      "$\x7bIF(n - 1, 7, 8)\x7d" = formulaText "IF(n - 1, 7, 8)".toList := by decide +kernel
  rw [htexts.1, htexts.2]
  exact ⟨G', hG', (hkeeps .ite (by decide) nofun _ _ _ (by decide) (by decide) _ _ hbyName hdirect).1⟩

/-- `False` is stored as a text, which counts as true: by its name the other branch is chosen. -/
theorem naming_false_changes_result : ∃ G', evaluateValue .empty ⟨"x", "$\x7bEQ(1, 2)\x7d", none, none⟩ = .ok G' ∧
    evaluate .empty "EQ(1, 2)".toList = .ok (.bool false) ∧ Function.ofName? "x" = none ∧
    outcome G' "$\x7bIF(x, 7, 8)\x7d" = .ok "7" ∧ outcome .empty "$\x7bIF(EQ(1, 2), 7, 8)\x7d" = .ok "8" := by
  have hcompare : Says "EQ(1, 2)".toList (.call (.name "EQ") [.literal (.int 1), .literal (.int 2)] [] []) := by
    refine says_of_tokens (show _ = some [.word "EQ", .sign "(", .int 1, .sign ",", .int 2, .sign ")"] by decide +kernel) ?_
      (by decide +kernel) (by decide +kernel)
    set_option maxRecDepth 20000 in rfl
  have hfalse : evaluate .empty "EQ(1, 2)".toList = .ok (.bool false) := (hcompare.evaluate .empty).trans rfl
  have hstored : (evaluateValue .empty ⟨"x", "$\x7bEQ(1, 2)\x7d", none, none⟩).toOption.map
      (outcome · "$\x7bIF(x, 7, 8)\x7d") = some (.ok "7") := by decide +kernel
  cases hG : evaluateValue .empty ⟨"x", "$\x7bEQ(1, 2)\x7d", none, none⟩ with
  | error e =>
    rw [hG] at hstored
    cases hstored
  | ok G' =>
    rw [hG] at hstored
    exact ⟨G', rfl, hfalse, by decide +kernel, Option.some.inj hstored, by decide +kernel⟩

end Stitchwork.Project
