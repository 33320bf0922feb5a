/- # Stitchwork.Proofs.Formula.Scanning — where the formulas of a text are.

The formulas of a text are found from left to right.  The first one is the one that begins furthest left and, of those
that begin there, the shortest; the search goes on behind it, and what is left behind the last one is the tail.  A text
whose tail opens no formula expands in the same way whatever follows it, so texts can be expanded one by one and put
together, and the text of a formula that has been expanded is not looked at again.
-/
import Stitchwork.Proofs.Formula.Template

namespace Stitchwork.Formula

/-! ## The rule of the search -/

/-- A formula between its braces, with what stands before and behind it in the text. -/
def Occurs (s before source after : List Char) : Prop :=
  s = before ++ '$' :: openBrace :: (source ++ closeBrace :: after)

/-- The formula that is found first: none begins further left, and none that begins there is shorter. -/
structure First (s before source after : List Char) : Prop where
  occurs : Occurs s before source after
  leftmost : ∀ b m a, Occurs s b m a → before.length ≤ b.length
  shortest : ∀ m a, Occurs s before m a → source.length ≤ m.length

/-- What is left of a text behind the last formula that is found, which is all of it if there is none. -/
inductive Tail : List Char → List Char → Prop
  | whole {s : List Char} : (∀ b m a, ¬Occurs s b m a) → Tail s s
  | behind {s b m a tail : List Char} : First s b m a → Tail a tail → Tail s tail

/-! ## Openings -/

/-- The first opening of a formula in a text. -/
theorem exists_first_opening {s : List Char} (h : ['$', openBrace] <:+: s) :
    ∃ before rest, s = before ++ '$' :: openBrace :: rest ∧ ¬['$', openBrace] <:+: before := by
  induction s with
  | nil => cases List.infix_nil.1 h
  | cons c s ih =>
    by_cases hhere : ['$', openBrace] <+: c :: s
    · obtain ⟨rest, hrest⟩ := hhere
      exact ⟨[], rest, hrest.symm, by simp⟩
    · obtain ⟨before, rest, hs, hbefore⟩ := ih ((List.infix_cons_iff.1 h).resolve_left hhere)
      refine ⟨c :: before, rest, by rw [hs, List.cons_append], fun hinfix => ?_⟩
      -- an opening that begins with `c` would begin the whole text
      refine hhere (((List.infix_cons_iff.1 hinfix).resolve_right hbefore).trans ?_)
      rw [hs, ← List.cons_append]
      exact List.prefix_append _ _

/-- No formula begins in front of the first opening. -/
theorem prefix_of_occurs {before rest b m a : List Char} (hbefore : ¬['$', openBrace] <:+: before)
    (h : Occurs (before ++ '$' :: openBrace :: rest) b m a) : before <+: b := by
  rcases List.append_eq_append_iff.1 h with ⟨c, rfl, -⟩ | ⟨c, rfl, hrest⟩
  · exact List.prefix_append _ _
  match c with
  | [] => exact ⟨[], by rw [List.append_nil, List.append_nil]⟩
  | [x] => exact absurd (List.cons.inj (List.cons.inj hrest).2).1 (by decide)
  | x :: y :: c =>
    obtain ⟨hx, hrest⟩ := List.cons.inj hrest
    obtain ⟨hy, -⟩ := List.cons.inj hrest
    refine absurd ⟨b, c, ?_⟩ hbefore
    rw [← hx, ← hy, List.append_assoc]
    rfl

/-- The formula that is found first is the one behind the first opening, up to the next closing brace. -/
theorem first_iff {s before source after : List Char} : First s before source after ↔
    Occurs s before source after ∧ ¬['$', openBrace] <:+: before ∧ closeBrace ∉ source := by
  constructor
  · intro h
    have hoccurs := h.occurs
    refine ⟨hoccurs, ?_, fun hclose => ?_⟩
    · rintro ⟨x, y, rfl⟩
      have hle := h.leftmost x (y ++ '$' :: openBrace :: source) after (by simpa [Occurs] using hoccurs)
      simp only [List.length_append, List.length_cons] at hle
      omega
    · obtain ⟨m, a, rfl⟩ := List.append_of_mem hclose
      have hle := h.shortest m (a ++ closeBrace :: after) (by simpa [Occurs] using hoccurs)
      simp only [List.length_append, List.length_cons] at hle
      omega
  · rintro ⟨rfl, hbefore, hclose⟩
    refine ⟨rfl, fun b m a h => (prefix_of_occurs hbefore h).length_le, fun m a h => ?_⟩
    have hrest : source ++ closeBrace :: after = m ++ closeBrace :: a := by simpa [Occurs] using h
    rcases List.append_eq_append_iff.1 hrest with ⟨c, rfl, -⟩ | ⟨c, rfl, hc⟩
    · simp
    match c with
    | [] => simp
    | x :: c =>
      obtain ⟨rfl, -⟩ := List.cons.inj hc
      simp at hclose

/-- In a text that opens no formula there is none. -/
theorem not_occurs_of_plain {s : List Char} (h : ¬['$', openBrace] <:+: s) (b m a : List Char) : ¬Occurs s b m a := by
  rintro rfl
  exact h ⟨b, m ++ closeBrace :: a, by rw [List.append_assoc]; rfl⟩

/-- A text holds no formula, or there is one that is found first. -/
theorem exists_first (s : List Char) : (∀ b m a, ¬Occurs s b m a) ∨ ∃ b m a, First s b m a := by
  by_cases hopen : ['$', openBrace] <:+: s
  · obtain ⟨before, rest, rfl, hbefore⟩ := exists_first_opening hopen
    by_cases hclose : closeBrace ∈ rest
    · obtain ⟨m, a, rfl, hm⟩ := List.eq_append_cons_of_mem hclose
      exact .inr ⟨before, m, a, first_iff.2 ⟨rfl, hbefore, hm⟩⟩
    · refine .inl fun b m a h => hclose ?_
      obtain ⟨c, rfl⟩ := prefix_of_occurs hbefore h
      have hrest : '$' :: openBrace :: rest = c ++ '$' :: openBrace :: (m ++ closeBrace :: a) := by
        simpa [Occurs] using h
      have hmem : closeBrace ∈ '$' :: openBrace :: rest := by simp [hrest]
      simpa [show closeBrace ≠ '$' by decide, show closeBrace ≠ openBrace by decide] using hmem
  · exact .inl (not_occurs_of_plain hopen)

theorem First.unique {s b m a b' m' a' : List Char} (h : First s b m a) (h' : First s b' m' a') :
    b = b' ∧ m = m' ∧ a = a' := by
  have hlength : b.length = b'.length :=
    Nat.le_antisymm (h.leftmost _ _ _ h'.occurs) (h'.leftmost _ _ _ h.occurs)
  obtain ⟨rfl, hrest⟩ := List.append_inj (h.occurs.symm.trans h'.occurs) hlength
  have hsource : m.length = m'.length :=
    Nat.le_antisymm (h.shortest _ _ h'.occurs) (h'.shortest _ _ h.occurs)
  obtain ⟨rfl, hafter⟩ := List.append_inj (List.cons.inj (List.cons.inj hrest).2).2 hsource
  exact ⟨rfl, rfl, (List.cons.inj hafter).2⟩

/-- Every text has one tail. -/
theorem existsUnique_tail (s : List Char) : ∃ tail, Tail s tail ∧ ∀ other, Tail s other → other = tail := by
  rcases exists_first s with hnone | ⟨b, m, a, hfirst⟩
  · refine ⟨s, .whole hnone, fun other h => ?_⟩
    cases h with
    | whole => rfl
    | behind h => exact absurd h.occurs (hnone _ _ _)
  · have hshorter : a.length < s.length := by
      rw [hfirst.occurs]
      simp only [List.length_append, List.length_cons]
      omega
    obtain ⟨tail, htail, hunique⟩ := existsUnique_tail a
    refine ⟨tail, .behind hfirst htail, fun other h => ?_⟩
    cases h with
    | whole hnone => exact absurd hfirst.occurs (hnone _ _ _)
    | behind h hother =>
      obtain ⟨-, -, rfl⟩ := h.unique hfirst
      exact hunique other hother
termination_by s.length

/-! ## The pieces of a text -/

/-- The texts meet without opening a formula between them. -/
def MeetPlainly (s t : List Char) : Prop := ¬(s.getLast? = some '$' ∧ t.head? = some openBrace)

/-- A character that opens no formula with the next one is plain. -/
theorem piecesFrom_plain {c d : Char} (h : ¬(c = '$' ∧ d = openBrace)) (rest : List Char) :
    piecesFrom none (c :: d :: rest) = .plain c :: piecesFrom none (d :: rest) := by
  rw [piecesFrom, if_neg (by simpa using h)]

/-- A text that opens no formula is plain, whatever follows it. -/
theorem piecesFrom_append_of_plain {s t : List Char} (h : ¬['$', openBrace] <:+: s) (hmeet : MeetPlainly s t) :
    piecesFrom none (s ++ t) = s.map .plain ++ piecesFrom none t := by
  induction s with
  | nil => rfl
  | cons c s ih =>
    have hrest : ¬['$', openBrace] <:+: s := fun hs => h (hs.trans (List.suffix_cons c s).isInfix)
    cases s with
    | nil =>
      cases t with
      | nil => rfl
      | cons d t =>
        have hpair : ¬(c = '$' ∧ d = openBrace) := by
          rintro ⟨rfl, rfl⟩
          exact hmeet ⟨rfl, rfl⟩
        exact piecesFrom_plain hpair t
    | cons d s =>
      have hpair : ¬(c = '$' ∧ d = openBrace) := by
        rintro ⟨rfl, rfl⟩
        exact h (List.prefix_append ['$', openBrace] s).isInfix
      show piecesFrom none (c :: d :: (s ++ t)) = _
      rw [piecesFrom_plain hpair, ← List.cons_append, ih hrest (by simpa [MeetPlainly] using hmeet)]
      rfl

/-- A formula that is not closed is plain. -/
theorem piecesFrom_unclosed {s : List Char} (h : closeBrace ∉ s) (before : List Char) :
    piecesFrom (some before) s = ('$' :: openBrace :: (before.reverse ++ s)).map .plain := by
  induction s generalizing before with
  | nil => simp [piecesFrom]
  | cons c s ih =>
    rw [List.mem_cons, not_or] at h
    rw [piecesFrom, if_neg (by simpa using Ne.symm h.1), ih h.2]
    simp

/-- A text in which no formula is found is plain. -/
theorem piecesFrom_of_not_occurs {s : List Char} (h : ∀ b m a, ¬Occurs s b m a) :
    piecesFrom none s = s.map .plain := by
  by_cases hopen : ['$', openBrace] <:+: s
  · obtain ⟨before, rest, rfl, hbefore⟩ := exists_first_opening hopen
    have hclose : closeBrace ∉ rest := by
      intro hclose
      obtain ⟨m, a, rfl⟩ := List.append_of_mem hclose
      exact h before m a rfl
    rw [piecesFrom_append_of_plain hbefore (by simp [MeetPlainly, openBrace]), piecesFrom, if_pos (by decide),
      piecesFrom_unclosed hclose, ← List.map_append]
    rfl
  · exact piecesFrom_of_literal hopen

/-- The formula that is found first is the first formula among the pieces. -/
theorem First.piecesFrom {s b m a : List Char} (h : First s b m a) (t : List Char) :
    piecesFrom none (s ++ t) = b.map .plain ++ .formula m :: piecesFrom none (a ++ t) := by
  obtain ⟨rfl, hbefore, hclose⟩ := first_iff.1 h
  have htext : b ++ '$' :: openBrace :: (m ++ closeBrace :: a) ++ t =
      b ++ '$' :: openBrace :: (m ++ closeBrace :: (a ++ t)) := by simp
  rw [htext, piecesFrom_append_of_plain hbefore (by simp [MeetPlainly, openBrace]), Formula.piecesFrom,
    if_pos (by decide), piecesFrom_formula hclose]
  rfl

/-- **Nothing that is found in a text changes when another text follows**, if its tail opens no formula. -/
theorem Tail.piecesFrom_append {s tail : List Char} (h : Tail s tail) (htail : ¬['$', openBrace] <:+: tail)
    {t : List Char} (hmeet : MeetPlainly s t) :
    Formula.piecesFrom none (s ++ t) = Formula.piecesFrom none s ++ Formula.piecesFrom none t := by
  -- the induction is on the formulas that are found, and only what is behind the last one meets `t`
  induction h with
  | whole => rw [piecesFrom_append_of_plain htail hmeet, piecesFrom_of_literal htail]
  | @behind s b m a tail hfirst hrest ih =>
    have hmeet' : MeetPlainly a t := by
      rintro ⟨hlast, hhead⟩
      refine hmeet ⟨?_, hhead⟩
      rw [hfirst.occurs]
      simp [List.getLast?_append, List.getLast?_cons, hlast]
    have hself : Formula.piecesFrom none s = b.map .plain ++ .formula m :: Formula.piecesFrom none a := by
      simpa using hfirst.piecesFrom []
    rw [hfirst.piecesFrom t, ih htail hmeet', hself, List.append_assoc, List.cons_append]

/-! ## Expansion -/

section

variable {scope : Scope}

/-- Texts are expanded from left to right, and the first error counts. -/
theorem expand_of_pieces {s t u : String} (h : pieces u = pieces s ++ pieces t) :
    expand scope u = (do
      let a ← expand scope s
      let b ← expand scope t
      .ok (a ++ b)) := by
  rw [expand, expand, expand, h, expandAll_append]
  cases expandAll scope (pieces s) with
  | error e => rfl
  | ok a =>
    cases expandAll scope (pieces t) with
    | error e => rfl
    | ok b => exact congrArg Except.ok String.ofList_append

theorem pieces_formulaText_append {source : List Char} (h : closeBrace ∉ source) (t : String) :
    pieces (formulaText source ++ t) = pieces (formulaText source) ++ pieces t := by
  have htext : (formulaText source ++ t).toList = '$' :: openBrace :: (source ++ closeBrace :: t.toList) := by
    simp [formulaText]
  rw [pieces_formulaText h, pieces, htext, piecesFrom, if_pos (by decide), piecesFrom_formula h]
  rfl

end

/-- A scope in which a name stands for a text that opens and closes a formula. -/
def bracedScope : Scope := ⟨[("x", .str "$\x7by\x7d")]⟩

end Stitchwork.Formula
