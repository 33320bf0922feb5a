/- # Stitchwork.Proofs.Project.Nesting — blocks that do not refer to themselves are expanded to the end.

Expanding a block goes on with the elements that it stores, which may use other blocks, so neither the size of a
node nor the number of blocks goes down.  What goes down is the rank of a block: the number of blocks that it
refers to, through others or not.  Where no block refers to itself, every use of a block inside another has a
smaller rank, and all ranks are below the number of blocks.  So a bound on the depth that is not below this number
is never reached, whatever the scope, and the expansion is the one without any bound.
-/
import Stitchwork.Proofs.Project.Expansion
import Stitchwork.Proofs.Reach

namespace Stitchwork.Project

open Stitchwork.Formula Stitchwork.Markup Stitchwork.Pattern

/-! ## Blocks that refer to others -/

/-- The names of the blocks that the stored elements of a block use, at any depth. -/
def usesOf (b : Block) : List String :=
  b.elements.flatMap fun s => match restore s with
    | .ok e => usedNames e.toNode
    | .error _ => []

/-- One block of the document refers to another: some element that it stores, at any depth, is a use of it. -/
def Refers (d : Document) (a b : Block) : Prop := a ∈ d.blocks ∧ b ∈ d.blocks ∧ b.name ∈ usesOf a

/-- No block of the document refers to itself, through others or not. -/
def Acyclic (d : Document) : Prop := ∀ b, ¬Relation.TransGen (Refers d) b b

theorem mem_usesOf {b : Block} {s : String} (hs : s ∈ b.elements) {e : Element} (he : restore s = .ok e)
    {name : String} (hname : name ∈ usedNames e.toNode) : name ∈ usesOf b :=
  List.mem_flatMap.2 ⟨s, hs, by rw [he]; exact hname⟩

/-- A measure that goes down along references shows that no block refers to itself. -/
theorem acyclic_of_measure {d : Document} (measure : Block → Nat)
    (h : ∀ a ∈ d.blocks, ∀ b ∈ d.blocks, b.name ∈ usesOf a → measure b < measure a) : Acyclic d := by
  have hdown : ∀ {a b}, Relation.TransGen (Refers d) a b → measure b < measure a := by
    intro a b hab
    induction hab with
    | single hb => exact h _ hb.1 _ hb.2.1 hb.2.2
    | tail _ hbc ih => exact Nat.lt_trans (h _ hbc.1 _ hbc.2.1 hbc.2.2) ih
  exact fun b hb => Nat.lt_irrefl _ (hdown hb)

/-! ## Ranks -/

/-- The number of blocks that a block refers to, through others or not. -/
noncomputable def rank (d : Document) (b : Block) : Nat := reach (Refers d) d.blocks b

/-- A block that another refers to has a smaller rank. -/
theorem rank_lt_of_refers {d : Document} (hd : Acyclic d) {a b : Block} (h : Refers d a b) :
    rank d b < rank d a :=
  reach_lt_reach h h.2.1 (hd b)

theorem rank_lt_length {d : Document} (hd : Acyclic d) {b : Block} (hb : b ∈ d.blocks) :
    rank d b < d.blocks.length :=
  reach_lt_length hb (hd b)

/-! ## Expansions to a depth -/

/-- A family of expansions, one for each depth.  Each expands the stored elements of blocks by the one before
it; what the first does with them is left open. -/
structure Deepening (c : Context) (expand : Nat → Scope → Node → Except Error Expansion) : Prop where
  zero : ∃ content, ∀ scope n, expand 0 scope n = expandNode c content scope n
  succ : ∀ depth scope n, expand (depth + 1) scope n =
    expandNode c (fun inner => expandTexts (expand depth inner)) scope n

theorem deepening_expandTo (c : Context) : Deepening c (expandTo c) :=
  ⟨⟨_, fun _ _ => rfl⟩, fun _ _ _ => rfl⟩

/-- An expansion without a bound is the same at every depth. -/
theorem deepening_const {c : Context} {expand : Scope → Node → Except Error Expansion}
    (h : ∀ scope n, expand scope n = expandNode c (fun inner => expandTexts (expand inner)) scope n) :
    Deepening c fun _ => expand :=
  ⟨⟨_, h⟩, fun _ => h⟩

/-- Every block that the node uses has a rank below `k`. -/
def RanksBelow (d : Document) (k : Nat) (n : Node) : Prop :=
  ∀ b ∈ d.blocks, b.name ∈ usedNames n → rank d b < k

/-- The stored elements of a block use blocks of smaller rank only. -/
theorem ranksBelow_of_block {d : Document} (hd : Acyclic d) {k : Nat} {n : Node} (hn : RanksBelow d (k + 1) n)
    {name : String} (hname : name ∈ usedNames n) {block : Block} (hblock : d.block name = .ok block)
    {s : String} (hs : s ∈ block.elements) {e : Element} (he : restore s = .ok e) :
    RanksBelow d k e.toNode := by
  intro b hb hused
  obtain ⟨hmem, rfl⟩ := findNamed_eq_ok hblock
  have hrefers : Refers d block b := ⟨hmem, hb, mem_usesOf hs he hused⟩
  have hbelow := hn block hmem hname
  have hless := rank_lt_of_refers hd hrefers
  omega

/-- Where ranks are below zero no block is used at all. -/
theorem onBlocks_of_ranksBelow_zero {c : Context} {n : Node} (hn : RanksBelow c.document 0 n)
    {P : List String → Prop} : OnBlocks c (usedNames n) P := by
  intro name hname block hblock
  obtain ⟨hmem, rfl⟩ := findNamed_eq_ok hblock
  exact absurd (hn block hmem hname) (Nat.not_lt_zero _)

section

variable {c : Context} (hd : Acyclic c.document)

include hd

/-- **Enough depth.**  Two expansions that both go as deep as the ranks of the blocks that a node uses give the
same for it. -/
theorem Deepening.eq_of_ranksBelow {f g : Nat → Scope → Node → Except Error Expansion} (hf : Deepening c f)
    (hg : Deepening c g) {k : Nat} {n : Node} (hn : RanksBelow c.document k n) (scope : Scope) {i j : Nat}
    (hi : k ≤ i) (hj : k ≤ j) : f i scope n = g j scope n := by
  -- At every depth a node is expanded by `expandNode`, so that only the content of blocks can differ.
  have hstep : ∀ {f : Nat → Scope → Node → Except Error Expansion}, Deepening c f → ∀ i, ∃ content,
      ∀ scope n, f i scope n = expandNode c content scope n := by
    intro f hf i
    cases i with
    | zero => exact hf.zero
    | succ i => exact ⟨_, hf.succ i⟩
  induction k generalizing n scope i j with
  | zero =>
    obtain ⟨content, hcontent⟩ := hstep hf i
    obtain ⟨other, hother⟩ := hstep hg j
    rw [hcontent, hother]
    exact expandNode_congr scope n (onBlocks_of_ranksBelow_zero hn)
  | succ k ih =>
    obtain ⟨i, rfl⟩ := Nat.exists_eq_add_of_le' hi
    obtain ⟨j, rfl⟩ := Nat.exists_eq_add_of_le' hj
    rw [← Nat.add_assoc, ← Nat.add_assoc, hf.succ, hg.succ]
    refine expandNode_congr scope n fun name hname block hblock inner => ?_
    refine expandTexts_congr fun s hs e he => ?_
    exact ih (ranksBelow_of_block hd hn hname hblock hs he) inner (Nat.le_add_left k i) (Nat.le_add_left k j)

/-- An expansion that goes as deep as the ranks of the blocks does not report that it went too deep. -/
theorem avoids_expandTo {k : Nat} {n : Node} (hn : RanksBelow c.document k n) (scope : Scope) :
    Avoids .tooDeep (expandTo c k scope n) := by
  induction k generalizing n scope with
  | zero =>
    exact avoids_expandNode rfl (actionsAvoid_of_isForeign rfl _) scope n (onBlocks_of_ranksBelow_zero hn)
  | succ k ih =>
    refine avoids_expandNode rfl (actionsAvoid_of_isForeign rfl _) scope n fun name hname block hblock inner => ?_
    refine avoids_expandTexts fun s hs => ⟨avoids_restore rfl s, fun e he => ?_⟩
    exact ih (ranksBelow_of_block hd hn hname hblock hs he) inner

omit hd in
theorem ranksBelow_length (hd : Acyclic c.document) (n : Node) :
    RanksBelow c.document c.document.blocks.length n :=
  fun _ hb _ => rank_lt_length hd hb

end

/-- **Blocks end.**  Where no block refers to itself, the number of blocks is enough depth for every node in every
scope: at this depth and at any greater one the bound is never met, and the result is the same.  It is also the
result without any bound: there is exactly one expansion that expands the stored elements of blocks by itself. -/
theorem acyclic_expansion_ends (d : Document) (hd : Acyclic d) (globals : Scope) :
    (∀ depth, d.blocks.length ≤ depth → ∀ scope n,
      expandTo ⟨d, globals⟩ depth scope n ≠ .error .tooDeep ∧
      expandTo ⟨d, globals⟩ depth scope n = expandTo ⟨d, globals⟩ d.blocks.length scope n) ∧
    ∀ expand : Scope → Node → Except Error Expansion,
      (∀ scope n, expand scope n =
        expandNode ⟨d, globals⟩ (fun inner => expandTexts (expand inner)) scope n) ↔
      expand = expandTo ⟨d, globals⟩ d.blocks.length := by
  let c : Context := ⟨d, globals⟩
  have hbelow : ∀ n, RanksBelow c.document d.blocks.length n := ranksBelow_length hd
  have hsame : ∀ depth, d.blocks.length ≤ depth → ∀ scope n,
      expandTo c depth scope n = expandTo c d.blocks.length scope n :=
    fun depth hdepth scope n => (deepening_expandTo c).eq_of_ranksBelow hd (deepening_expandTo c) (hbelow n) scope
      hdepth (Nat.le_refl _)
  refine ⟨fun depth hdepth scope n => ⟨?_, hsame depth hdepth scope n⟩, fun expand => ⟨fun h => ?_, ?_⟩⟩
  · rw [hsame depth hdepth]
    exact avoids_expandTo hd (hbelow n) scope
  · funext scope n
    exact (deepening_const h).eq_of_ranksBelow hd (deepening_expandTo c) (hbelow n) scope (Nat.le_refl _)
      (Nat.le_refl _)
  · rintro rfl scope n
    have hdeeper := hsame (d.blocks.length + 1) (Nat.le_succ _) scope n
    exact hdeeper.symm

/-- A pattern with a block that uses another one twice. -/
def nestedBlocks : Document :=
  { Document.empty with blocks := [
      ⟨"outer", ["<opaf:repeat xmlns:opaf=\"u\" count=\"2\"><opaf:block name=\"inner\"/></opaf:repeat>",
        "<opaf:block xmlns:opaf=\"u\" name=\"inner\"/>"], Table.empty⟩,
      ⟨"inner", ["<opaf:text xmlns:opaf=\"u\"/>"], Table.empty⟩] }

/-- Two levels are enough for it, and one is not. -/
theorem nestedBlocks_end : Acyclic nestedBlocks ∧
    (∀ depth, 2 ≤ depth → ∀ scope n, expandTo ⟨nestedBlocks, Table.empty⟩ depth scope n ≠ .error .tooDeep) ∧
    expandTo ⟨nestedBlocks, Table.empty⟩ 1 Table.empty
      (.element "opaf:block" ⟨[("name", "outer")]⟩ []) = .error .tooDeep := by
  have hacyclic : Acyclic nestedBlocks :=
    acyclic_of_measure (fun b => if b.name = "outer" then 1 else 0) (by decide +kernel)
  have hone : (match expandTo ⟨nestedBlocks, Table.empty⟩ 1 Table.empty
      (.element "opaf:block" ⟨[("name", "outer")]⟩ []) with
    | .error e => decide (e = .tooDeep)
    | .ok _ => false) = true := by decide +kernel
  refine ⟨hacyclic, fun depth hdepth scope n => ?_, ?_⟩
  · exact ((acyclic_expansion_ends nestedBlocks hacyclic Table.empty).1 depth hdepth scope n).1
  · split at hone
    · next e he => rw [he, of_decide_eq_true hone]
    · cases hone

end Stitchwork.Project
