/- # Stitchwork.Proofs.Project.Arguments — arguments reach the parameters of a block.

The use of a block passes texts for names.  Wherever a text is expanded inside the block, and not inside another block
that is used there, a formula that is such a name becomes the text of what the argument says, unless a global value has
the name: then it becomes the text of that.
-/
import Mathlib.Data.List.Forall2
import Stitchwork.Proofs.Formula.Names
import Stitchwork.Proofs.Formula.Variable
import Stitchwork.Proofs.Project.Scoping
import Stitchwork.Proofs.Work

namespace Stitchwork.Project

open Stitchwork.Formula Stitchwork.Markup Stitchwork.Pattern

/-! ## What is passed -/

/-- The text that the use of a block passes for a name. -/
def Invocation.passed? (i : Invocation) (p : String) : Option String := (Table.ofList (argumentsOf i.element)).get? p

/-- The value of an argument: what the expanded text says. -/
def ArgumentValue (scope : Scope) (a : String × String) (x : String × Value) : Prop :=
  x.1 = a.1 ∧ ∃ s, expandAttr scope a = .ok s ∧ x.2 = coerce s

theorem forall₂_evaluateArguments {scope : Scope} {args : List (String × String)} {values : List (String × Value)}
    (h : evaluateArguments scope args = .ok values) : List.Forall₂ (ArgumentValue scope) args values := by
  induction args generalizing values with
  | nil =>
    cases h
    exact .nil
  | cons a rest ih =>
    obtain ⟨s, hs, h⟩ := bind_eq_ok.1 h
    obtain ⟨others, hothers, h⟩ := bind_eq_ok.1 h
    cases h
    exact .cons ⟨rfl, s, hs, rfl⟩ (ih hothers)

/-- Where arguments are found by name, so are their values. -/
theorem valueIn?_of_forall₂ {scope : Scope} {args : List (String × String)} {values : List (String × Value)}
    (h : List.Forall₂ (ArgumentValue scope) args values) {p v : String} (hv : Table.valueIn? p args = some v) :
    ∃ s, expandAttr scope (p, v) = .ok s ∧ Table.valueIn? p values = some (coerce s) := by
  induction h with
  | nil => cases hv
  | @cons a x args values hx _ ih =>
    obtain ⟨k, text⟩ := a
    obtain ⟨j, value⟩ := x
    obtain ⟨rfl, s, hs, rfl⟩ := hx
    by_cases hk : j = p
    · subst hk
      rw [Table.valueIn?, if_pos rfl] at hv
      cases hv
      exact ⟨s, hs, by rw [Table.valueIn?, if_pos rfl]⟩
    · rw [Table.valueIn?, if_neg hk] at hv ⊢
      exact ih hv

/-- An argument without formulas is what its text says. -/
theorem Invocation.get?_arguments {c : Context} {i : Invocation} (hi : i.Proper c) {p v : String}
    (hpassed : i.passed? p = some v) (hliteral : Literal v) : (Table.ofList i.arguments).get? p = some (coerce v) := by
  -- a table gives the last entry of a name, so both lists are searched from the back
  have hvalues := List.rel_reverse (forall₂_evaluateArguments hi.2)
  rw [passed?, Table.ofList, Table.get?_insertAll, Table.get?_empty, Option.or_none] at hpassed
  obtain ⟨s, hs, hvalue⟩ := valueIn?_of_forall₂ hvalues hpassed
  have htext : s = v := by
    rw [expandAttr] at hs
    split at hs
    · cases hs
    · rw [expandText, expand_of_literal hliteral] at hs
      cases hs
      rfl
  rw [Table.ofList, Table.get?_insertAll, Table.get?_empty, Option.or_none, hvalue, htext]

/-! ## What names mean inside a block -/

/-- A text with the text `t` in the place of the formula `source`, and the values of the other formulas in theirs. -/
def expandWith (source t : List Char) (scope : Scope) (s : String) : Except Error String :=
  ((expandAll scope ((pieces s).flatMap (Piece.settle source t))).map String.ofList).mapError .template

theorem expandText_eq_expandWith {scope : Scope} {source t : List Char}
    (h : Piece.expand scope (.formula source) = .ok t) (s : String) :
    expandText scope s = expandWith source t scope s := by
  rw [expandText, expand, expandWith, expandAll_settle h]

/-- A name is the same formula in scopes in which it means the same. -/
theorem expand_name_congr {p : String} (hp : isName p) {s t : Scope} (h : s.get? p = t.get? p) :
    Piece.expand s (.formula p.toList) = Piece.expand t (.formula p.toList) := by
  rw [Piece.expand, Piece.expand, evaluate_name hp, evaluate_name hp, Expr.lookup_congr h]

/-- The watched expansion of the charts and components, from the global values on. -/
def watchAll (c : Context) : Except Error Expansion × Watch := (watchParts c).run.run ⟨c.globals, []⟩

/-- The watched expansion gives the plain one, and its calls are exact. -/
theorem watchAll_spec {c : Context} (hg : c.globals.keys.Nodup) : (watchAll c).1 = parts c ∧
    ∀ call ∈ (watchAll c).2.calls, call.Exact c ∧ call.scope.update c.globals = call.scope := by
  obtain ⟨calls, hrun, hexact⟩ := watchParts_follows hg []
  rw [watchAll, hrun]
  exact ⟨rfl, hexact⟩

/-- A packaged pattern that uses a block with `1` for `p`; the block is a text that shows `p`. -/
def showing (configs : List Config) : Document :=
  { Document.empty with
    pkgVersion := some "p"
    configs
    blocks := [⟨"b", ["<opaf:text data=\"$\x7bp\x7d\" xmlns:opaf=\"u\"/>"], ⟨[("p", .int 0)]⟩⟩]
    components := [⟨"k", none, some ["<opaf:block name=\"b\" p=\"1\" xmlns:opaf=\"u\"/>"], none⟩] }

/-- The calls of the expansion of the pattern. -/
def showingCalls : List Call :=
  (watchAll ⟨showing [], (build (showing []) ⟨.empty, .empty⟩ "k" "i").globals⟩).2.calls

end Stitchwork.Project
