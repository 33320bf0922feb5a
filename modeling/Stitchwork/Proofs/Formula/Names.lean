/- # Stitchwork.Proofs.Formula.Names — the names that a formula reads.

The value of a formula depends on its scope only through the names that stand in the formula.  So do the text that
a template expands to and the truth of a condition: in two scopes that agree on these names they are the same, and so
are the errors.
-/
import Stitchwork.Pattern.Condition

namespace Stitchwork.Formula

/-! ## Scopes that agree -/

/-- By each of the names, the scopes mean the same. -/
def AgreeOn (names : List String) (s t : Scope) : Prop := ∀ x ∈ names, s.get? x = t.get? x

/-- By every name, the scopes mean the same. -/
def SameView (s t : Scope) : Prop := ∀ x, s.get? x = t.get? x

namespace SameView

variable {s t : Scope}

theorem refl (s : Scope) : SameView s s := fun _ => rfl

theorem agreeOn (h : SameView s t) (names : List String) : AgreeOn names s t := fun x _ => h x

end SameView

theorem agreeOn_append {xs ys : List String} {s t : Scope} :
    AgreeOn (xs ++ ys) s t ↔ AgreeOn xs s t ∧ AgreeOn ys s t :=
  List.forall_mem_append

/-- Setting a name that is not read changes nothing that is. -/
theorem agreeOn_insert {names : List String} {k : String} (h : k ∉ names) (s : Scope) (v : Value) :
    AgreeOn names (s.insert k v) s := by
  intro x hx
  have hxk : x ≠ k := by
    rintro rfl
    exact h hx
  rw [Table.get?_insert, if_neg hxk]

/-! ## Formulas -/

namespace Expr

mutual

/-- The names that stand in a formula. -/
def names : Expr → List String
  | .literal _ => []
  | .name s => [s]
  | .list es => namesOfAll es
  | .tuple es => namesOfAll es
  | .unary _ e => names e
  | .binary _ a b => names a ++ names b
  | .and a b => names a ++ names b
  | .or a b => names a ++ names b
  | .chain first _ rest => names first ++ namesOfAll rest
  | .choice test yes no => names test ++ (names yes ++ names no)
  | .call f args _ named => names f ++ (namesOfAll args ++ namesOfAll named)
  | .index e i => names e ++ names i
  | .slice e start stop step => names e ++ (names start ++ (names stop ++ names step))

/-- The names that stand in formulas. -/
def namesOfAll : List Expr → List String
  | [] => []
  | e :: es => names e ++ namesOfAll es

end

variable {s t : Scope}

theorem lookup_congr {x : String} (h : s.get? x = t.get? x) : lookup s x = lookup t x := by
  rw [lookup, lookup, h]

mutual

/-- **A formula reads the names that stand in it, and no other.** -/
theorem eval_congr (e : Expr) (h : AgreeOn e.names s t) : e.eval s = e.eval t := by
  cases e with
  | literal v => rfl
  | name x => exact lookup_congr (h x (List.mem_singleton_self x))
  | list es => rw [eval, eval, evalAll_congr es h]
  | tuple es => rw [eval, eval, evalAll_congr es h]
  | unary op e => rw [eval, eval, eval_congr e h]
  | binary op a b =>
    obtain ⟨ha, hb⟩ := agreeOn_append.1 h
    rw [eval, eval, eval_congr a ha, eval_congr b hb]
  | and a b =>
    obtain ⟨ha, hb⟩ := agreeOn_append.1 h
    rw [eval, eval, eval_congr a ha, eval_congr b hb]
  | or a b =>
    obtain ⟨ha, hb⟩ := agreeOn_append.1 h
    rw [eval, eval, eval_congr a ha, eval_congr b hb]
  | chain first ops rest =>
    obtain ⟨hfirst, hrest⟩ := agreeOn_append.1 h
    have hchain : ∀ x, evalChain s x ops rest = evalChain t x ops rest := fun x => evalChain_congr x ops rest hrest
    rw [eval, eval, eval_congr first hfirst]
    simp only [hchain]
  | choice test yes no =>
    obtain ⟨htest, h⟩ := agreeOn_append.1 h
    obtain ⟨hyes, hno⟩ := agreeOn_append.1 h
    rw [eval, eval, eval_congr test htest, eval_congr yes hyes, eval_congr no hno]
  | call f args names named =>
    obtain ⟨hf, h⟩ := agreeOn_append.1 h
    obtain ⟨hargs, hnamed⟩ := agreeOn_append.1 h
    rw [eval, eval, eval_congr f hf, evalAll_congr args hargs, evalAll_congr named hnamed]
  | index e i =>
    obtain ⟨he, hi⟩ := agreeOn_append.1 h
    rw [eval, eval, eval_congr e he, eval_congr i hi]
  | slice e start stop step =>
    obtain ⟨he, h⟩ := agreeOn_append.1 h
    obtain ⟨hstart, h⟩ := agreeOn_append.1 h
    obtain ⟨hstop, hstep⟩ := agreeOn_append.1 h
    rw [eval, eval, eval_congr e he, eval_congr start hstart, eval_congr stop hstop, eval_congr step hstep]

theorem evalAll_congr (es : List Expr) (h : AgreeOn (namesOfAll es) s t) : evalAll s es = evalAll t es := by
  cases es with
  | nil => rfl
  | cons e es =>
    obtain ⟨he, hes⟩ := agreeOn_append.1 h
    rw [evalAll, evalAll, eval_congr e he, evalAll_congr es hes]

theorem evalChain_congr (x : Value) (ops : List Comparison) (es : List Expr) (h : AgreeOn (namesOfAll es) s t) :
    evalChain s x ops es = evalChain t x ops es := by
  cases es with
  | nil => cases ops <;> rfl
  | cons e es =>
    cases ops with
    | nil => rfl
    | cons c ops =>
      obtain ⟨he, hes⟩ := agreeOn_append.1 h
      have hchain : ∀ y, evalChain s y ops es = evalChain t y ops es := fun y => evalChain_congr y ops es hes
      rw [evalChain, evalChain, eval_congr e he]
      simp only [hchain]

end

end Expr

/-! ## Templates -/

/-- The names that stand in the formula that a text says. -/
def namesOf (source : List Char) : List String := ((parse? source).map Expr.names).getD []

/-- The names that stand in a piece. -/
def Piece.names : Piece → List String
  | .plain _ => []
  | .formula source => namesOf source

/-- The names that stand in the formulas of a template. -/
def namesIn (s : String) : List String := (pieces s).flatMap Piece.names

section

variable {s t : Scope}

theorem evaluate_congr {source : List Char} (h : AgreeOn (namesOf source) s t) :
    evaluate s source = evaluate t source := by
  rw [evaluate, evaluate]
  rw [namesOf] at h
  cases hparse : parse? source with
  | none => rfl
  | some e =>
    rw [hparse] at h
    simp only [Expr.eval_congr e h]

theorem Piece.expand_congr {p : Piece} (h : AgreeOn p.names s t) : p.expand s = p.expand t := by
  cases p with
  | plain c => rfl
  | formula source => rw [Piece.expand, Piece.expand, evaluate_congr h]

theorem expandAll_congr {ps : List Piece} (h : AgreeOn (ps.flatMap Piece.names) s t) :
    expandAll s ps = expandAll t ps := by
  induction ps with
  | nil => rfl
  | cons p ps ih =>
    rw [List.flatMap_cons, agreeOn_append] at h
    rw [expandAll, expandAll, Piece.expand_congr h.1, ih h.2]

end

end Stitchwork.Formula

namespace Stitchwork.Pattern

open Stitchwork.Formula

/-- The names that stand in a condition that need not be given. -/
def namesInGiven (condition : Option String) : List String := (condition.map namesIn).getD []

variable {s t : Scope}

/-- A template is expanded in the same way where the scopes agree on the names in it. -/
theorem expandText_congr {text : String} (h : AgreeOn (namesIn text) s t) : expandText s text = expandText t text := by
  rw [expandText, expandText, expand, expand, expandAll_congr h]

theorem holdsIfGiven_congr {condition : Option String} (h : AgreeOn (namesInGiven condition) s t) :
    holdsIfGiven s condition = holdsIfGiven t condition := by
  cases condition with
  | none => rfl
  | some text =>
    have htext : expandText s text = expandText t text := expandText_congr h
    rw [holdsIfGiven, holdsIfGiven, holds, holds, htext]

end Stitchwork.Pattern
