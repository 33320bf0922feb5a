/- # Stitchwork.Proofs.Formula.Template — the pieces of a template.

A text in which no formula begins is made of plain characters and expands to itself.  A text that is one formula
between its braces is that one piece, and expands to the text of the value of the formula.
-/
import Stitchwork.Formula.Template

namespace Stitchwork.Formula

/-! ## Plain texts -/

/-- No formula begins in the text. -/
def Literal (s : String) : Prop := ¬['$', openBrace] <:+: s.toList

instance (s : String) : Decidable (Literal s) := inferInstanceAs (Decidable ¬_)

theorem piecesFrom_of_literal {cs : List Char} (h : ¬['$', openBrace] <:+: cs) :
    piecesFrom none cs = cs.map .plain := by
  induction cs with
  | nil => rfl
  | cons c cs ih =>
    have hrest := ih fun hcs => h (hcs.trans (List.suffix_cons c cs).isInfix)
    cases cs with
    | nil => rfl
    | cons d rest =>
      have hpair : (c == '$' && d == openBrace) = false := by
        rw [Bool.eq_false_iff, ne_eq, Bool.and_eq_true, beq_iff_eq, beq_iff_eq]
        rintro ⟨rfl, rfl⟩
        exact h (List.prefix_append ['$', openBrace] rest).isInfix
      rw [piecesFrom, hpair, hrest]
      rfl

theorem expandAll_append (scope : Scope) (ps qs : List Piece) :
    expandAll scope (ps ++ qs) = (do
      let s ← expandAll scope ps
      let t ← expandAll scope qs
      .ok (s ++ t)) := by
  induction ps with
  | nil => cases h : expandAll scope qs <;> simp [expandAll, bind, Except.bind, h]
  | cons p ps ih =>
    cases hp : p.expand scope with
    | error e => simp [expandAll, bind, Except.bind, hp]
    | ok s =>
      cases hps : expandAll scope ps with
      | error e => simp [expandAll, bind, Except.bind, hp, hps, ih]
      | ok t => cases hqs : expandAll scope qs <;> simp [expandAll, bind, Except.bind, hp, hps, hqs, ih]

theorem expandAll_plain (scope : Scope) (cs : List Char) : expandAll scope (cs.map .plain) = .ok cs := by
  induction cs with
  | nil => rfl
  | cons c cs ih => rw [List.map_cons, expandAll, ih]; rfl

/-- A text in which no formula begins expands to itself. -/
theorem expand_of_literal {s : String} (h : Literal s) (scope : Scope) : expand scope s = .ok s := by
  rw [expand, pieces, piecesFrom_of_literal h, expandAll_plain]
  show Except.ok (String.ofList s.toList) = _
  rw [String.ofList_toList]

/-! ## Formulas -/

/-- The template that is one formula. -/
def formulaText (source : List Char) : String := String.ofList ('$' :: openBrace :: (source ++ [closeBrace]))

theorem piecesFrom_formula {source : List Char} (h : closeBrace ∉ source) (before rest : List Char) :
    piecesFrom (some before) (source ++ closeBrace :: rest) =
      .formula (before.reverse ++ source) :: piecesFrom none rest := by
  induction source generalizing before with
  | nil => rw [List.nil_append, piecesFrom, beq_self_eq_true, if_pos rfl, List.append_nil]
  | cons c source ih =>
    rw [List.mem_cons, not_or] at h
    rw [List.cons_append, piecesFrom, if_neg (by simpa using Ne.symm h.1), ih h.2, List.reverse_cons,
      List.append_assoc, List.singleton_append]

theorem pieces_formulaText {source : List Char} (h : closeBrace ∉ source) :
    pieces (formulaText source) = [.formula source] := by
  rw [pieces, formulaText, String.toList_ofList, piecesFrom, if_pos (by decide), piecesFrom_formula h]
  rfl

/-- A template that is one formula expands to the text of its value. -/
theorem expand_formulaText {source : List Char} (h : closeBrace ∉ source) (scope : Scope) :
    expand scope (formulaText source) = (Piece.expand scope (.formula source)).map String.ofList := by
  rw [expand, pieces_formulaText h, expandAll, expandAll]
  cases Piece.expand scope (.formula source) with
  | error e => rfl
  | ok s =>
    show Except.ok (String.ofList (s ++ [])) = .ok (String.ofList s)
    rw [List.append_nil]

/-! ## Formulas whose text is known -/

/-- A piece with the text `t` in the place of the formula `source`. -/
def Piece.settle (source t : List Char) : Piece → List Piece
  | .plain c => [.plain c]
  | .formula s => if s = source then t.map .plain else [.formula s]

/-- Pieces expand to the same with the text of a formula in its place. -/
theorem expandAll_settle {scope : Scope} {source t : List Char}
    (h : Piece.expand scope (.formula source) = .ok t) (ps : List Piece) :
    expandAll scope (ps.flatMap (Piece.settle source t)) = expandAll scope ps := by
  have hone : ∀ p : Piece, expandAll scope (p.settle source t) = p.expand scope := by
    have hsingle : ∀ p : Piece, expandAll scope [p] = p.expand scope := by
      intro p
      rw [expandAll, expandAll]
      cases p.expand scope with
      | error e => rfl
      | ok s => exact congrArg Except.ok (List.append_nil s)
    intro p
    cases p with
    | plain c => exact hsingle _
    | formula s =>
      rw [Piece.settle]
      split
      · next hs => rw [hs, h, expandAll_plain]
      · exact hsingle _
  induction ps with
  | nil => rfl
  | cons p ps ih =>
    rw [List.flatMap_cons, expandAll_append, hone, ih]
    rfl

end Stitchwork.Formula
