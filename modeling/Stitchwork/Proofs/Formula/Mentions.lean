/- # Stitchwork.Proofs.Formula.Mentions — a formula reads the names that it mentions.

The grammar makes no names: every name of a formula is a word of its text, in plain form.  So what a text expands to, and
whether it holds as a condition, depends on a scope only through the words between its braces.  A name that the scope
has hides the function of the same name wherever it stands: the formula means the same with the value in the place of the
name, in scopes without it as well.
-/
import Stitchwork.Proofs.Formula.Names

namespace Stitchwork.Formula

variable {e : Expr} {es : List Expr}

/-! ## The names that tokens mention -/

/-- The name that a token mentions, if it is a word that is not reserved. -/
def Token.mention? : Token → Option String
  | .word w => if reservedWords.contains w then none else some (Text.plainForm w)
  | _ => none

section

variable {P : String → Prop}

/-- The names that the tokens mention have a property. -/
def Mention (P : String → Prop) (ts : List Token) : Prop := ∀ t ∈ ts, ∀ x, t.mention? = some x → P x

/-- The names that stand in the formula have a property. -/
def Expr.Uses (P : String → Prop) (e : Expr) : Prop := ∀ x ∈ e.names, P x

/-- The names that stand in the formulas have a property. -/
def UsesAll (P : String → Prop) (es : List Expr) : Prop := ∀ x ∈ Expr.namesOfAll es, P x

theorem Mention.tail {t : Token} {ts : List Token} (h : Mention P (t :: ts)) : Mention P ts :=
  (List.forall_mem_cons.1 h).2

theorem mention_sign {s : String} {ts : List Token} (h : Mention P ts) : Mention P (.sign s :: ts) :=
  List.forall_mem_cons.2 ⟨fun _ hx => (nomatch hx), h⟩

namespace Expr

@[simp] theorem uses_literal {v : Value} : Uses P (.literal v) := List.forall_mem_nil _

@[simp] theorem uses_list : Uses P (.list es) ↔ UsesAll P es := Iff.rfl

@[simp] theorem uses_tuple : Uses P (.tuple es) ↔ UsesAll P es := Iff.rfl

@[simp] theorem uses_unary {op : UnaryOp} : Uses P (.unary op e) ↔ e.Uses P := Iff.rfl

@[simp] theorem uses_binary {op : BinaryOp} {a b : Expr} : Uses P (.binary op a b) ↔ a.Uses P ∧ b.Uses P :=
  List.forall_mem_append

@[simp] theorem uses_and {a b : Expr} : Uses P (.and a b) ↔ a.Uses P ∧ b.Uses P := List.forall_mem_append

@[simp] theorem uses_or {a b : Expr} : Uses P (.or a b) ↔ a.Uses P ∧ b.Uses P := List.forall_mem_append

@[simp] theorem uses_chain {first : Expr} {ops : List Comparison} {rest : List Expr} :
    Uses P (.chain first ops rest) ↔ first.Uses P ∧ UsesAll P rest := List.forall_mem_append

@[simp] theorem uses_choice {test yes no : Expr} :
    Uses P (.choice test yes no) ↔ test.Uses P ∧ yes.Uses P ∧ no.Uses P :=
  List.forall_mem_append.trans (and_congr_right' List.forall_mem_append)

@[simp] theorem uses_call {f : Expr} {args named : List Expr} {names : List String} :
    Uses P (.call f args names named) ↔ f.Uses P ∧ UsesAll P args ∧ UsesAll P named :=
  List.forall_mem_append.trans (and_congr_right' List.forall_mem_append)

@[simp] theorem uses_index {i : Expr} : Uses P (.index e i) ↔ e.Uses P ∧ i.Uses P := List.forall_mem_append

@[simp] theorem uses_slice {start stop step : Expr} :
    Uses P (.slice e start stop step) ↔ e.Uses P ∧ start.Uses P ∧ stop.Uses P ∧ step.Uses P :=
  List.forall_mem_append.trans (and_congr_right' (List.forall_mem_append.trans
    (and_congr_right' List.forall_mem_append)))

end Expr

@[simp] theorem usesAll_nil : UsesAll P [] := List.forall_mem_nil _

@[simp] theorem usesAll_cons : UsesAll P (e :: es) ↔ e.Uses P ∧ UsesAll P es :=
  List.forall_mem_append

@[simp] theorem usesAll_append {fs : List Expr} : UsesAll P (es ++ fs) ↔ UsesAll P es ∧ UsesAll P fs := by
  induction es with
  | nil => simp
  | cons e es ih => rw [List.cons_append, usesAll_cons, usesAll_cons, ih, and_assoc]

/-! ## The grammar -/

/-- What is read, if anything is, has a property, and the names that the tokens behind it mention have `P`. -/
def Keeps {α : Type} (P : String → Prop) (Q : α → Prop) (r : Parsed α) : Prop :=
  ∀ a rest, r = some (a, rest) → Q a ∧ Mention P rest

theorem keeps_none {α : Type} {Q : α → Prop} : Keeps P Q (none : Parsed α) := fun _ _ h => (nomatch h)

theorem keeps_some {α : Type} {Q : α → Prop} {a : α} {rest : List Token} (ha : Q a) (hrest : Mention P rest) :
    Keeps P Q (some (a, rest)) := by
  rintro _ _ ⟨⟩
  exact ⟨ha, hrest⟩

/-- The formulas of arguments use names with a property. -/
def Arguments.Uses (P : String → Prop) (a : Arguments) : Prop := UsesAll P a.args ∧ UsesAll P a.named

/-- With the depth `n`, every function of the grammar takes names from the tokens alone. -/
structure TakesNames (P : String → Prop) (n : Nat) : Prop where
  expr : ∀ {ts}, Mention P ts → Keeps P (Expr.Uses P) (parseExpr n ts)
  or : ∀ {ts}, Mention P ts → Keeps P (Expr.Uses P) (parseOr n ts)
  and : ∀ {ts}, Mention P ts → Keeps P (Expr.Uses P) (parseAnd n ts)
  not : ∀ {ts}, Mention P ts → Keeps P (Expr.Uses P) (parseNot n ts)
  chain : ∀ {ts}, Mention P ts → Keeps P (fun r => UsesAll P r.2) (parseChain n ts)
  binary : ∀ {level ts}, Mention P ts → Keeps P (Expr.Uses P) (parseBinary n level ts)
  binaryTail : ∀ {level e ts}, e.Uses P → Mention P ts → Keeps P (Expr.Uses P) (parseBinaryTail n level e ts)
  factor : ∀ {ts}, Mention P ts → Keeps P (Expr.Uses P) (parseFactor n ts)
  power : ∀ {ts}, Mention P ts → Keeps P (Expr.Uses P) (parsePower n ts)
  trailers : ∀ {e ts}, e.Uses P → Mention P ts → Keeps P (Expr.Uses P) (parseTrailers n e ts)
  arguments : ∀ {ts}, Mention P ts → Keeps P (Arguments.Uses P) (parseArguments n ts)
  moreArguments : ∀ {ts}, Mention P ts → Keeps P (Arguments.Uses P) (parseMoreArguments n ts)
  members : ∀ {closing ts}, Mention P ts → Keeps P (UsesAll P) (parseMembers n closing ts)
  position : ∀ {e ts}, e.Uses P → Mention P ts → Keeps P (Expr.Uses P) (parsePosition n e ts)
  positions : ∀ {ts}, Mention P ts → Keeps P (UsesAll P) (parsePositions n ts)
  bounds : ∀ {ts}, Mention P ts → Keeps P (UsesAll P) (parseBounds n ts)
  bound : ∀ {ts}, Mention P ts → Keeps P (Expr.Uses P) (parseBound n ts)
  atom : ∀ {ts}, Mention P ts → Keeps P (Expr.Uses P) (parseAtom n ts)

section

variable {n : Nat} (h : TakesNames P n) {ts : List Token} (hts : Mention P ts)

include h hts

theorem keeps_parseExpr : Keeps P (Expr.Uses P) (parseExpr (n + 1) ts) := by
  rw [parseExpr]
  split
  · next e rest hyes =>
    obtain ⟨he, hrest⟩ := h.or hts _ _ hyes
    split
    · next test rest htest =>
      obtain ⟨ht, hrest⟩ := h.or hrest.tail _ _ htest
      split
      · next no rest hno =>
        obtain ⟨hn, hrest⟩ := h.expr hrest.tail _ _ hno
        exact keeps_some (Expr.uses_choice.2 ⟨ht, he, hn⟩) hrest
      · exact keeps_none
    · exact keeps_none
  · exact h.or hts

theorem keeps_parseOr : Keeps P (Expr.Uses P) (parseOr (n + 1) ts) := by
  rw [parseOr]
  split
  · next a rest ha =>
    obtain ⟨ha, hrest⟩ := h.and hts _ _ ha
    split
    · next b rest hb =>
      obtain ⟨hb, hrest⟩ := h.or hrest.tail _ _ hb
      exact keeps_some (Expr.uses_or.2 ⟨ha, hb⟩) hrest
    · exact keeps_none
  · exact h.and hts

theorem keeps_parseAnd : Keeps P (Expr.Uses P) (parseAnd (n + 1) ts) := by
  rw [parseAnd]
  split
  · next a rest ha =>
    obtain ⟨ha, hrest⟩ := h.not hts _ _ ha
    split
    · next b rest hb =>
      obtain ⟨hb, hrest⟩ := h.and hrest.tail _ _ hb
      exact keeps_some (Expr.uses_and.2 ⟨ha, hb⟩) hrest
    · exact keeps_none
  · exact h.not hts

theorem keeps_parseNot : Keeps P (Expr.Uses P) (parseNot (n + 1) ts) := by
  unfold parseNot
  split
  · next heq => cases heq
  · next heq =>
    cases heq
    split
    · next e rest he =>
      obtain ⟨he, hrest⟩ := h.not hts.tail _ _ he
      exact keeps_some (Expr.uses_unary.2 he) hrest
    · exact keeps_none
  · next heq _ =>
    cases heq
    split
    · next first rest hfirst =>
      obtain ⟨hfirst, hrest⟩ := h.binary hts _ _ hfirst
      split
      · exact keeps_some hfirst hrest
      · next ops es rest' hne hchain =>
        obtain ⟨hes, hrest⟩ := h.chain hrest _ _ hchain
        exact keeps_some (Expr.uses_chain.2 ⟨hfirst, hes⟩) hrest
      · exact keeps_none
    · exact keeps_none

omit h in
theorem mention_comparison? {c : Comparison} {rest : List Token} (hc : comparison? ts = some (c, rest)) :
    Mention P rest := by
  unfold comparison? at hc
  split at hc <;> cases hc
  · exact hts.tail.tail
  · exact hts.tail
  · exact hts.tail.tail
  all_goals exact hts.tail

theorem keeps_parseChain : Keeps P (fun r => UsesAll P r.2) (parseChain (n + 1) ts) := by
  rw [parseChain]
  split
  · next c rest hc =>
    split
    · next e rest he =>
      obtain ⟨he, hrest⟩ := h.binary (mention_comparison? hts hc) _ _ he
      split
      · next ops es rest hes =>
        obtain ⟨hes, hrest⟩ := h.chain hrest _ _ hes
        exact keeps_some (usesAll_cons.2 ⟨he, hes⟩) hrest
      · exact keeps_none
    · exact keeps_none
  · exact keeps_some usesAll_nil hts

theorem keeps_parseBinary (level : Nat) : Keeps P (Expr.Uses P) (parseBinary (n + 1) level ts) := by
  rw [parseBinary]
  split
  · split
    · next e rest he =>
      obtain ⟨he, hrest⟩ := h.binary hts _ _ he
      exact h.binaryTail he hrest
    · exact keeps_none
  · exact h.factor hts

theorem keeps_parseBinaryTail (level : Nat) (he : e.Uses P) :
    Keeps P (Expr.Uses P) (parseBinaryTail (n + 1) level e ts) := by
  unfold parseBinaryTail
  split
  · next heq => cases heq
  · next heq =>
    cases heq
    split
    · next op hop =>
      split
      · next b rest hb =>
        obtain ⟨hb, hrest⟩ := h.binary hts.tail _ _ hb
        exact h.binaryTail (Expr.uses_binary.2 ⟨he, hb⟩) hrest
      · exact keeps_none
    · exact keeps_some he hts
  · exact keeps_some he hts

theorem keeps_parseFactor : Keeps P (Expr.Uses P) (parseFactor (n + 1) ts) := by
  unfold parseFactor
  split
  · next heq => cases heq
  · next heq =>
    cases heq
    split
    · split
      · next e rest he =>
        obtain ⟨he, hrest⟩ := h.factor hts.tail _ _ he
        exact keeps_some (Expr.uses_unary.2 he) hrest
      · exact keeps_none
    · exact h.power hts
  · next heq _ =>
    cases heq
    exact h.power hts

theorem keeps_parsePower : Keeps P (Expr.Uses P) (parsePower (n + 1) ts) := by
  rw [parsePower]
  split
  · next e rest he =>
    obtain ⟨he, hrest⟩ := h.atom hts _ _ he
    split
    · next base rest' hbase =>
      obtain ⟨hbase, hrest⟩ := h.trailers he hrest _ _ hbase
      split
      · next b rest hb =>
        obtain ⟨hb, hrest⟩ := h.factor hrest.tail _ _ hb
        exact keeps_some (Expr.uses_binary.2 ⟨hbase, hb⟩) hrest
      · exact keeps_none
    · exact h.trailers he hrest
  · exact keeps_none

theorem keeps_parseTrailers (he : e.Uses P) : Keeps P (Expr.Uses P) (parseTrailers (n + 1) e ts) := by
  unfold parseTrailers
  split
  · next heq => cases heq
  · next heq =>
    cases heq
    split
    · next a rest ha =>
      obtain ⟨ha, hrest⟩ := h.arguments hts.tail _ _ ha
      exact h.trailers (Expr.uses_call.2 ⟨he, ha⟩) hrest
    · exact keeps_none
  · next heq =>
    cases heq
    split
    · next e' rest he' =>
      obtain ⟨he', hrest⟩ := h.position he hts.tail _ _ he'
      exact h.trailers he' hrest
    · exact keeps_none
  · exact keeps_some he hts

theorem keeps_parseArguments : Keeps P (Arguments.Uses P) (parseArguments (n + 1) ts) := by
  unfold parseArguments
  split
  · next heq => cases heq
  · exact keeps_some ⟨usesAll_nil, usesAll_nil⟩ hts.tail
  · next heq =>
    cases heq
    split
    · next name e rest hname he =>
      obtain ⟨he, hrest⟩ := h.expr hts.tail.tail _ _ he
      split
      · next a rest ha =>
        obtain ⟨⟨-, hnamed⟩, hrest⟩ := h.moreArguments hrest _ _ ha
        split
        · exact keeps_some ⟨usesAll_nil, usesAll_cons.2 ⟨he, hnamed⟩⟩ hrest
        · exact keeps_none
      · exact keeps_none
    · exact keeps_none
  · next heq _ _ =>
    cases heq
    split
    · next e rest he =>
      obtain ⟨he, hrest⟩ := h.expr hts _ _ he
      split
      · next a rest ha =>
        obtain ⟨⟨hargs, hnamed⟩, hrest⟩ := h.moreArguments hrest _ _ ha
        exact keeps_some ⟨usesAll_cons.2 ⟨he, hargs⟩, hnamed⟩ hrest
      · exact keeps_none
    · exact keeps_none

theorem keeps_parseMoreArguments : Keeps P (Arguments.Uses P) (parseMoreArguments (n + 1) ts) := by
  unfold parseMoreArguments
  split
  · next heq => cases heq
  · exact keeps_some ⟨usesAll_nil, usesAll_nil⟩ hts.tail
  · next heq =>
    cases heq
    exact h.arguments hts.tail
  · exact keeps_none

theorem keeps_parseMembers (closing : String) : Keeps P (UsesAll P) (parseMembers (n + 1) closing ts) := by
  have htail : ∀ {us : List Token}, Mention P us → Mention P us.tail :=
    fun hus t ht => hus t (List.mem_of_mem_tail ht)
  rw [parseMembers]
  split
  · exact keeps_some usesAll_nil (htail hts)
  split
  · next e rest he =>
    obtain ⟨he, hrest⟩ := h.expr hts _ _ he
    split
    · next es rest hes =>
      obtain ⟨hes, hrest⟩ := h.members hrest.tail _ _ hes
      exact keeps_some (usesAll_cons.2 ⟨he, hes⟩) hrest
    · exact keeps_none
  · next e rest _ he =>
    obtain ⟨he, hrest⟩ := h.expr hts _ _ he
    split
    · exact keeps_some (usesAll_cons.2 ⟨he, usesAll_nil⟩) (htail hrest)
    · exact keeps_none
  · exact keeps_none

theorem keeps_parsePosition (he : e.Uses P) : Keeps P (Expr.Uses P) (parsePosition (n + 1) e ts) := by
  rw [parsePosition]
  split
  · next bounds rest hbounds =>
    obtain ⟨hbounds, hrest⟩ := h.bounds hts _ _ hbounds
    split
    · exact keeps_some (Expr.uses_index.2 ⟨he, (usesAll_cons.1 hbounds).1⟩) hrest.tail
    · simp only [usesAll_cons] at hbounds
      exact keeps_some (Expr.uses_slice.2 ⟨he, hbounds.1, hbounds.2.1, hbounds.2.2.1⟩) hrest.tail
    · exact keeps_none
  · next bounds rest hbounds =>
    obtain ⟨hbounds, hrest⟩ := h.bounds hts _ _ hbounds
    split
    · next more rest hmore =>
      obtain ⟨hmore, hrest⟩ := h.positions hrest.tail _ _ hmore
      exact keeps_some (Expr.uses_index.2 ⟨he, Expr.uses_tuple.2 (usesAll_append.2 ⟨hbounds, hmore⟩)⟩) hrest
    · exact keeps_none
  · exact keeps_none

theorem keeps_parsePositions : Keeps P (UsesAll P) (parsePositions (n + 1) ts) := by
  unfold parsePositions
  split
  · next heq => cases heq
  · exact keeps_some usesAll_nil hts.tail
  · next heq _ =>
    cases heq
    split
    · next bounds rest hbounds =>
      obtain ⟨hbounds, hrest⟩ := h.bounds hts _ _ hbounds
      exact keeps_some hbounds hrest.tail
    · next bounds rest hbounds =>
      obtain ⟨hbounds, hrest⟩ := h.bounds hts _ _ hbounds
      split
      · next more rest hmore =>
        obtain ⟨hmore, hrest⟩ := h.positions hrest.tail _ _ hmore
        exact keeps_some (usesAll_append.2 ⟨hbounds, hmore⟩) hrest
      · exact keeps_none
    · exact keeps_none

theorem keeps_parseBounds : Keeps P (UsesAll P) (parseBounds (n + 1) ts) := by
  rw [parseBounds]
  split
  · next start rest hstart =>
    obtain ⟨hstart, hrest⟩ := h.bound hts _ _ hstart
    split
    · next stop rest hstop =>
      obtain ⟨hstop, hrest⟩ := h.bound hrest.tail _ _ hstop
      split
      · next step rest hstep =>
        obtain ⟨hstep, hrest⟩ := h.bound hrest.tail _ _ hstep
        exact keeps_some (by simp [hstart, hstop, hstep]) hrest
      · exact keeps_none
    · next stop rest _ hstop =>
      obtain ⟨hstop, hrest⟩ := h.bound hrest.tail _ _ hstop
      exact keeps_some (by simp [hstart, hstop]) hrest
    · exact keeps_none
  · next e rest _ he =>
    obtain ⟨he, hrest⟩ := h.bound hts _ _ he
    split
    · exact keeps_none
    · exact keeps_some (by simp [he]) hrest
  · exact keeps_none

theorem keeps_parseBound : Keeps P (Expr.Uses P) (parseBound (n + 1) ts) := by
  unfold parseBound
  split
  · exact keeps_some Expr.uses_literal hts
  · exact keeps_some Expr.uses_literal hts
  · exact keeps_some Expr.uses_literal hts
  · exact h.expr hts

omit h in
theorem mention_adjacentTexts : Mention P (adjacentTexts ts).2 := by
  fun_induction adjacentTexts ts with
  | case1 s rest t after hrest ih =>
    have hafter := ih hts.tail
    rwa [hrest] at hafter
  | case2 ts => exact hts

omit h hts in
theorem uses_nameExpr? {w : String} (hw : Mention P [.word w]) (he : nameExpr? w = some e) : e.Uses P := by
  rw [nameExpr?] at he
  split at he
  · cases he
  · next hfree =>
    cases he
    split
    · exact Expr.uses_literal
    · intro x hx
      rw [List.mem_singleton.1 hx]
      exact hw _ (List.mem_singleton_self _) _ (by rw [Token.mention?, if_neg hfree])

theorem keeps_parseAtom : Keeps P (Expr.Uses P) (parseAtom (n + 1) ts) := by
  unfold parseAtom
  split
  · next heq => cases heq
  · exact keeps_some Expr.uses_literal hts.tail
  · exact keeps_some Expr.uses_literal hts.tail
  · exact keeps_some Expr.uses_literal (mention_adjacentTexts hts.tail)
  · exact keeps_some Expr.uses_literal hts.tail
  · exact keeps_some Expr.uses_literal hts.tail
  · exact keeps_some Expr.uses_literal hts.tail
  · next w rest _ _ _ =>
    intro e rest' he
    obtain ⟨e, hname, ⟨⟩⟩ := Option.map_eq_some_iff.1 he
    refine ⟨uses_nameExpr? ?_ hname, hts.tail⟩
    exact List.forall_mem_singleton.2 (List.forall_mem_cons.1 hts).1
  · next heq =>
    cases heq
    split
    · next es rest hes =>
      obtain ⟨hes, hrest⟩ := h.members hts.tail _ _ hes
      exact keeps_some (Expr.uses_list.2 hes) hrest
    · exact keeps_none
  · exact keeps_some (Expr.uses_tuple.2 usesAll_nil) hts.tail.tail
  · next heq =>
    cases heq
    split
    · next e rest he =>
      obtain ⟨he, hrest⟩ := h.expr hts.tail _ _ he
      exact keeps_some he hrest.tail
    · next e rest he =>
      obtain ⟨he, hrest⟩ := h.expr hts.tail _ _ he
      split
      · next es rest hes =>
        obtain ⟨hes, hrest⟩ := h.members hrest.tail _ _ hes
        exact keeps_some (Expr.uses_tuple.2 (usesAll_cons.2 ⟨he, hes⟩)) hrest
      · exact keeps_none
    · exact keeps_none
  · exact keeps_none

end

/-- The grammar takes names from the tokens alone, to every depth. -/
theorem takesNames (P : String → Prop) (n : Nat) : TakesNames P n := by
  induction n with
  | zero =>
    constructor <;> intros <;> exact keeps_none
  | succ n h =>
    exact
      { expr := keeps_parseExpr h
        or := keeps_parseOr h
        and := keeps_parseAnd h
        not := keeps_parseNot h
        chain := keeps_parseChain h
        binary := fun hts => keeps_parseBinary h hts _
        binaryTail := fun he hts => keeps_parseBinaryTail h hts _ he
        factor := keeps_parseFactor h
        power := keeps_parsePower h
        trailers := fun he hts => keeps_parseTrailers h hts he
        arguments := keeps_parseArguments h
        moreArguments := keeps_parseMoreArguments h
        members := fun hts => keeps_parseMembers h hts _
        position := fun he hts => keeps_parsePosition h hts he
        positions := keeps_parsePositions h
        bounds := keeps_parseBounds h
        bound := keeps_parseBound h
        atom := keeps_parseAtom h }

theorem uses_parseAll {n : Nat} {ts : List Token} (hts : Mention P ts) (h : parseAll n ts = some e) : e.Uses P := by
  rw [parseAll] at h
  split at h
  · next first hfirst =>
    cases h
    exact ((takesNames P n).expr hts _ _ hfirst).1
  · next first hfirst =>
    cases h
    exact ((takesNames P n).expr hts _ _ hfirst).1
  · next first rest hfirst =>
    obtain ⟨hfirst, hrest⟩ := (takesNames P n).expr hts _ _ hfirst
    have hmembers : Mention P ((if rest.getLast? == some .lineEnd then rest.dropLast else rest) ++ [.sign ")"]) := by
      refine List.forall_mem_append.2 ⟨?_, mention_sign (List.forall_mem_nil _)⟩
      split
      · exact fun t ht => hrest.tail t (List.dropLast_subset _ ht)
      · exact hrest.tail
    dsimp only at h
    split at h
    · next es hes =>
      cases h
      exact Expr.uses_tuple.2 (usesAll_cons.2 ⟨hfirst, ((takesNames P n).members hmembers _ _ hes).1⟩)
    · cases h
  · cases h

end

/-- The names that the text of a formula mentions. -/
def mentionedBy (source : List Char) : List String := ((tokens? source).getD []).filterMap Token.mention?

/-- The names that a piece mentions. -/
def Piece.mentioned : Piece → List String
  | .plain _ => []
  | .formula source => mentionedBy source

/-- The names that the formulas of a template mention. -/
def mentionedIn (s : String) : List String := (pieces s).flatMap Piece.mentioned

/-- The names of a formula are among those that its text mentions. -/
theorem uses_parse? {source : List Char} (h : parse? source = some e) : e.Uses (· ∈ mentionedBy source) := by
  obtain ⟨ts, hts, h⟩ := Option.bind_eq_some_iff.1 h
  refine uses_parseAll (fun t ht x hx => ?_) h
  rw [mentionedBy, hts, Option.getD_some]
  exact List.mem_filterMap.2 ⟨t, ht, hx⟩

/-- **The grammar makes no names.** -/
theorem mem_mentionedIn {s x : String} (h : x ∈ namesIn s) : x ∈ mentionedIn s := by
  obtain ⟨p, hp, hx⟩ := List.mem_flatMap.1 h
  refine List.mem_flatMap.2 ⟨p, hp, ?_⟩
  cases p with
  | plain c => cases hx
  | formula source =>
    rw [Piece.names, namesOf] at hx
    cases hparse : parse? source with
    | none =>
      rw [hparse] at hx
      cases hx
    | some e =>
      rw [hparse] at hx
      exact uses_parse? hparse x hx

/-! ## Values in the place of names -/

namespace Expr

mutual

/-- The formula with a value in the place of a name. -/
def put (x : String) (v : Value) : Expr → Expr
  | .literal w => .literal w
  | .name s => if s = x then .literal v else .name s
  | .list es => .list (putAll x v es)
  | .tuple es => .tuple (putAll x v es)
  | .unary op e => .unary op (put x v e)
  | .binary op a b => .binary op (put x v a) (put x v b)
  | .and a b => .and (put x v a) (put x v b)
  | .or a b => .or (put x v a) (put x v b)
  | .chain first ops rest => .chain (put x v first) ops (putAll x v rest)
  | .choice test yes no => .choice (put x v test) (put x v yes) (put x v no)
  | .call f args names named => .call (put x v f) (putAll x v args) names (putAll x v named)
  | .index e i => .index (put x v e) (put x v i)
  | .slice e start stop step => .slice (put x v e) (put x v start) (put x v stop) (put x v step)

/-- The formulas with a value in the place of a name. -/
def putAll (x : String) (v : Value) : List Expr → List Expr
  | [] => []
  | e :: es => put x v e :: putAll x v es

end

end Expr

/-- By each of the names, but for `x`, the scopes mean the same. -/
def AgreeBut (x : String) (names : List String) (s t : Scope) : Prop := ∀ y ∈ names, y ≠ x → s.get? y = t.get? y

theorem agreeBut_append {x : String} {ys zs : List String} {s t : Scope} :
    AgreeBut x (ys ++ zs) s t ↔ AgreeBut x ys s t ∧ AgreeBut x zs s t :=
  List.forall_mem_append

namespace Expr

variable {s t : Scope} {x : String} {v : Value}

mutual

/-- **A name that the scope has stands for its value in every position**, whatever it stands for elsewhere. -/
theorem eval_put (hx : s.get? x = some v) (e : Expr) (h : AgreeBut x e.names s t) :
    (e.put x (v.placed x [])).eval t = e.eval s := by
  cases e with
  | literal w => rfl
  | name y =>
    rw [put]
    split
    · next hy => rw [hy, eval, eval, lookup, hx]
    · next hy => exact lookup_congr (h y (List.mem_singleton_self y) hy).symm
  | list es => rw [put, eval, eval, evalAll_put hx es h]
  | tuple es => rw [put, eval, eval, evalAll_put hx es h]
  | unary op e => rw [put, eval, eval, eval_put hx e h]
  | binary op a b =>
    obtain ⟨ha, hb⟩ := agreeBut_append.1 h
    rw [put, eval, eval, eval_put hx a ha, eval_put hx b hb]
  | and a b =>
    obtain ⟨ha, hb⟩ := agreeBut_append.1 h
    rw [put, eval, eval, eval_put hx a ha, eval_put hx b hb]
  | or a b =>
    obtain ⟨ha, hb⟩ := agreeBut_append.1 h
    rw [put, eval, eval, eval_put hx a ha, eval_put hx b hb]
  | chain first ops rest =>
    obtain ⟨hfirst, hrest⟩ := agreeBut_append.1 h
    rw [put, eval, eval, eval_put hx first hfirst]
    simp only [fun w => evalChain_put hx w ops rest hrest]
  | choice test yes no =>
    obtain ⟨htest, h⟩ := agreeBut_append.1 h
    obtain ⟨hyes, hno⟩ := agreeBut_append.1 h
    rw [put, eval, eval, eval_put hx test htest, eval_put hx yes hyes, eval_put hx no hno]
  | call f args names named =>
    obtain ⟨hf, h⟩ := agreeBut_append.1 h
    obtain ⟨hargs, hnamed⟩ := agreeBut_append.1 h
    rw [put, eval, eval, eval_put hx f hf, evalAll_put hx args hargs, evalAll_put hx named hnamed]
  | index e i =>
    obtain ⟨he, hi⟩ := agreeBut_append.1 h
    rw [put, eval, eval, eval_put hx e he, eval_put hx i hi]
  | slice e start stop step =>
    obtain ⟨he, h⟩ := agreeBut_append.1 h
    obtain ⟨hstart, h⟩ := agreeBut_append.1 h
    obtain ⟨hstop, hstep⟩ := agreeBut_append.1 h
    rw [put, eval, eval, eval_put hx e he, eval_put hx start hstart, eval_put hx stop hstop, eval_put hx step hstep]

theorem evalAll_put (hx : s.get? x = some v) (es : List Expr) (h : AgreeBut x (namesOfAll es) s t) :
    evalAll t (putAll x (v.placed x []) es) = evalAll s es := by
  cases es with
  | nil => rfl
  | cons e es =>
    obtain ⟨he, hes⟩ := agreeBut_append.1 h
    rw [putAll, evalAll, evalAll, eval_put hx e he, evalAll_put hx es hes]

theorem evalChain_put (hx : s.get? x = some v) (w : Value) (ops : List Comparison) (es : List Expr)
    (h : AgreeBut x (namesOfAll es) s t) :
    evalChain t w ops (putAll x (v.placed x []) es) = evalChain s w ops es := by
  cases es with
  | nil => cases ops <;> rfl
  | cons e es =>
    cases ops with
    | nil => rfl
    | cons c ops =>
      obtain ⟨he, hes⟩ := agreeBut_append.1 h
      rw [putAll, evalChain, evalChain, eval_put hx e he]
      simp only [fun u => evalChain_put hx u ops es hes]

end

end Expr

end Stitchwork.Formula

namespace Stitchwork.Pattern

open Stitchwork.Formula

/-- A text that calls a function by its name. -/
def callText : String := "$\x7bMAX(1, 2)\x7d"

/-- A scope that has a number by the name of the function, and something that the text does not mention. -/
def hidingScope : Scope := ⟨[("MAX", .int 3), ("MIN", .int 0)]⟩

end Stitchwork.Pattern
