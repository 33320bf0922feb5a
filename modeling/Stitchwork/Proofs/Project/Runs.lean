/- # Stitchwork.Proofs.Project.Runs — grouping loses nothing and joins all that it can.

Grouping walks along the lists with the run it is in and the members that the run has so far; a count is given when the
run is over, one step behind the group it belongs to.  Spreading the groups by their counts gives the texts back, and no
two groups that follow each other could have been joined.  All else is read off these two facts: whether there is a run
at all, what the counts sum up to, and how many groups there are.
-/
import Mathlib.Algebra.BigOperators.Group.List.Lemmas
import Mathlib.Algebra.GroupWithZero.Nat
import Mathlib.Algebra.Order.BigOperators.Group.List
import Mathlib.Data.List.Chain
import Stitchwork.Project.Runs

namespace Stitchwork.Project

open Stitchwork.Markup

/-- The texts that groups stand for, each as often as its count says.  A count without a group stands for nothing. -/
def spread (groups : List (List Node)) (counts : List Nat) : List String :=
  (groups.zip counts).flatMap fun p => List.replicate p.2 (textOf p.1)

theorem spread_cons (g : List Node) (gs : List (List Node)) (c : Nat) (cs : List Nat) :
    spread (g :: gs) (c :: cs) = List.replicate c (textOf g) ++ spread gs cs := rfl

section

variable {groups : List (List Node)} {counts : List Nat}

theorem length_spread (h : counts.length = groups.length) : (spread groups counts).length = counts.sum := by
  have hcounts : (groups.zip counts).map Prod.snd = counts := List.map_snd_zip h.le
  rw [spread, List.length_flatMap]
  simp only [List.length_replicate]
  exact congrArg List.sum hcounts

/-- Groups that each stand for one text are those texts. -/
theorem spread_of_forall_one (h : counts.length = groups.length) (hone : ∀ c ∈ counts, c = 1) :
    spread groups counts = groups.map textOf := by
  induction groups generalizing counts with
  | nil => rfl
  | cons g gs ih =>
    cases counts with
    | nil => cases h
    | cons c cs =>
      rw [List.forall_mem_cons] at hone
      rw [spread_cons, ih (Nat.succ.inj h) hone.2, hone.1]
      rfl

/-- A group with a greater count stands for two neighbours that are alike. -/
theorem twice_infix_spread {c : Nat} (h : counts.length = groups.length) (hc : c ∈ counts) (hmany : 1 < c) :
    ∃ s, [s, s] <:+: spread groups counts := by
  induction groups generalizing counts with
  | nil =>
    rw [List.length_eq_zero_iff.1 h] at hc
    cases hc
  | cons g gs ih =>
    cases counts with
    | nil => cases hc
    | cons d cs =>
      rw [spread_cons]
      rcases List.mem_cons.1 hc with rfl | hc
      · obtain ⟨k, rfl⟩ : ∃ k, c = k + 2 := ⟨c - 2, by omega⟩
        exact ⟨textOf g, [], List.replicate k (textOf g) ++ spread gs cs, by simp [List.replicate_succ]⟩
      · obtain ⟨s, hs⟩ := ih (Nat.succ.inj h) hc
        exact ⟨s, hs.trans (List.suffix_append _ _).isInfix⟩

/-- Where no two groups that follow each other are alike, two neighbours are alike only within a group. -/
theorem isChain_spread_iff (h : counts.length = groups.length) (hpos : ∀ c ∈ counts, 1 ≤ c)
    (hapart : (groups.map textOf).IsChain (· ≠ ·)) :
    (spread groups counts).IsChain (· ≠ ·) ↔ ∀ c ∈ counts, c = 1 := by
  constructor
  · intro hchain c hc
    by_contra hne
    have hmany : 1 < c := Nat.lt_of_le_of_ne (hpos c hc) (Ne.symm hne)
    obtain ⟨s, hs⟩ := twice_infix_spread h hc hmany
    have htwice : [s, s].IsChain (· ≠ ·) := List.IsChain.infix hchain hs
    exact (List.isChain_cons_cons.1 htwice).1 rfl
  · intro hone
    rwa [spread_of_forall_one h hone]

end

/-! ## The walk -/

theorem length_groupFrom (current : List Node) (n : Nat) (rest : List (List Node)) :
    (groupFrom current n rest).2.length = (groupFrom current n rest).1.length + 1 := by
  fun_induction groupFrom current n rest with
  | case1 => rfl
  | case2 current n next rest _ ih => exact ih
  | case3 current n next rest _ groups counts hrest ih =>
    rw [hrest] at ih
    exact congrArg (· + 1) ih

/-- The run that the walk is in, and what comes behind it, are what the groups stand for. -/
theorem spread_groupFrom (current : List Node) (n : Nat) (rest : List (List Node)) :
    spread (current :: (groupFrom current n rest).1) (groupFrom current n rest).2 =
      List.replicate n (textOf current) ++ rest.map textOf := by
  fun_induction groupFrom current n rest with
  | case1 => rfl
  | case2 current n next rest halike ih =>
    -- the run goes on: its member count takes the place of the text
    rw [ih, List.map_cons, beq_iff_eq.1 halike, List.replicate_succ', List.append_assoc]
    rfl
  | case3 current n next rest _ groups counts hrest ih =>
    -- the run is over: its count is given, and the next list is in a run of one
    rw [hrest] at ih
    rw [spread_cons, ih]
    rfl

theorem isChain_groupFrom (current : List Node) (n : Nat) (rest : List (List Node)) :
    ((current :: (groupFrom current n rest).1).map textOf).IsChain (· ≠ ·) := by
  fun_induction groupFrom current n rest with
  | case1 => exact List.isChain_singleton _
  | case2 current n next rest _ ih => exact ih
  | case3 current n next rest hother groups counts hrest ih =>
    rw [hrest] at ih
    exact List.isChain_cons_cons.2 ⟨fun h => hother (beq_iff_eq.2 h.symm), ih⟩

theorem pos_of_mem_groupFrom {current : List Node} {n : Nat} {rest : List (List Node)} (hn : 1 ≤ n) :
    ∀ c ∈ (groupFrom current n rest).2, 1 ≤ c := by
  fun_induction groupFrom current n rest with
  | case1 => exact List.forall_mem_singleton.2 hn
  | case2 current n next rest _ ih => exact ih (Nat.le_add_left 1 n)
  | case3 current n next rest _ groups counts hrest ih =>
    rw [hrest] at ih
    exact List.forall_mem_cons.2 ⟨hn, ih le_rfl⟩

/-! ## Grouping -/

theorem groupRuns_cons (first : List Node) (rest : List (List Node)) : groupRuns (first :: rest) =
    (first :: (groupFrom first 1 rest).1, (groupFrom first 1 rest).2) := rfl

theorem length_groupRuns {arr : List (List Node)} (h : arr ≠ []) :
    (groupRuns arr).2.length = (groupRuns arr).1.length := by
  obtain ⟨first, rest, rfl⟩ := List.exists_cons_of_ne_nil h
  exact length_groupFrom first 1 rest

theorem spread_groupRuns (arr : List (List Node)) :
    spread (groupRuns arr).1 (groupRuns arr).2 = arr.map textOf := by
  cases arr with
  | nil => rfl
  | cons first rest =>
    rw [groupRuns_cons, spread_groupFrom]
    rfl

theorem isChain_groupRuns (arr : List (List Node)) : ((groupRuns arr).1.map textOf).IsChain (· ≠ ·) := by
  cases arr with
  | nil => exact List.isChain_nil
  | cons first rest => exact isChain_groupFrom first 1 rest

theorem pos_of_mem_groupRuns (arr : List (List Node)) : ∀ c ∈ (groupRuns arr).2, 1 ≤ c := by
  cases arr with
  | nil => exact List.forall_mem_singleton.2 le_rfl
  | cons first rest => exact pos_of_mem_groupFrom le_rfl

theorem sum_groupRuns {arr : List (List Node)} (h : arr ≠ []) : (groupRuns arr).2.sum = arr.length := by
  rw [← length_spread (length_groupRuns h), spread_groupRuns, List.length_map]

theorem hasRun_eq_false_iff (arr : List (List Node)) :
    hasRun arr = false ↔ (arr.map textOf).IsChain (· ≠ ·) := by
  fun_induction hasRun arr with
  | case1 a b rest ih =>
    rw [List.map_cons, List.map_cons, List.isChain_cons_cons, ← List.map_cons, ← ih, Bool.or_eq_false_iff,
      beq_eq_false_iff_ne]
  | case2 arr hshort =>
    refine iff_of_true rfl ?_
    match arr, hshort with
    | [], _ => exact List.isChain_nil
    | [a], _ => exact List.isChain_singleton _
    | a :: b :: rest, hshort => exact absurd rfl (hshort a b rest)

/-- Positive numbers sum up to more than how many there are exactly if one of them exceeds one. -/
theorem exists_one_lt_iff {counts : List Nat} (hpos : ∀ c ∈ counts, 1 ≤ c) :
    (∃ c ∈ counts, 1 < c) ↔ counts.length < counts.sum := by
  induction counts with
  | nil => simp
  | cons c cs ih =>
    rw [List.forall_mem_cons] at hpos
    have hle : cs.length ≤ cs.sum := List.length_le_sum_of_one_le _ hpos.2
    simp only [List.mem_cons, exists_eq_or_imp, ih hpos.2, List.length_cons, List.sum_cons]
    omega

theorem hasRun_iff_exists_count (arr : List (List Node)) :
    hasRun arr = true ↔ ∃ c ∈ (groupRuns arr).2, 1 < c := by
  by_cases h : arr = []
  · -- without lists there is a count that belongs to no group, but it is not greater than one
    subst h
    simp [hasRun, groupRuns]
  · have hpos := pos_of_mem_groupRuns arr
    rw [← not_iff_not, Bool.not_eq_true, hasRun_eq_false_iff, ← spread_groupRuns,
      isChain_spread_iff (length_groupRuns h) hpos (isChain_groupRuns arr)]
    simp only [not_exists, not_and, not_lt]
    exact forall₂_congr fun c hc => ⟨fun h => h.le, fun h => le_antisymm h (hpos c hc)⟩

/-- **Grouping loses nothing and joins all that it can.**  The groups, each as often as its count says, are the texts
that were there; a group that has a count has at least one member; no two groups that follow each other are written
alike; and there are two neighbours alike among the lists exactly if some count is greater than one, and exactly if
there are fewer groups than lists. -/
theorem grouping_lossless_and_maximal (arr : List (List Node)) :
    let groups := (groupRuns arr).1
    let counts := (groupRuns arr).2
    spread groups counts = arr.map textOf ∧ (∀ p ∈ groups.zip counts, 1 ≤ p.2) ∧
    (groups.map textOf).IsChain (· ≠ ·) ∧ hasRun groups = false ∧
    (hasRun arr = true ↔ ∃ c ∈ counts, 1 < c) ∧ (hasRun arr = true ↔ groups.length < arr.length) := by
  intro groups counts
  have hpos : ∀ c ∈ counts, 1 ≤ c := pos_of_mem_groupRuns arr
  have hapart := isChain_groupRuns arr
  refine ⟨spread_groupRuns arr, fun p hp => hpos _ (List.of_mem_zip hp).2, hapart,
    (hasRun_eq_false_iff groups).2 hapart, hasRun_iff_exists_count arr, ?_⟩
  rw [hasRun_iff_exists_count]
  by_cases h : arr = []
  · subst h
    simp [groups, groupRuns]
  · rw [exists_one_lt_iff hpos, sum_groupRuns h, length_groupRuns h]

/-- **Counts conserve the lists, if there are any.**  There are as many counts as groups, and they sum up to the number
of lists, exactly if there is a list.  Without any there is one count, of one member, that belongs to no group. -/
theorem counts_conserve_iff_nonempty (arr : List (List Node)) :
    ((groupRuns arr).1.length = (groupRuns arr).2.length ∧ (groupRuns arr).2.sum = arr.length ↔ arr ≠ []) ∧
    (groupRuns arr).2.length = max 1 (groupRuns arr).1.length ∧ (groupRuns arr).2.sum = max 1 arr.length := by
  by_cases h : arr = []
  · subst h
    simp [groupRuns]
  · have hlength := length_groupRuns h
    have hsum := sum_groupRuns h
    have hlists : 1 ≤ arr.length := List.length_pos_iff.2 h
    have hgroups : 1 ≤ (groupRuns arr).1.length := by
      obtain ⟨first, rest, rfl⟩ := List.exists_cons_of_ne_nil h
      exact Nat.le_add_left 1 _
    exact ⟨iff_of_true ⟨hlength.symm, hsum⟩ h, by omega, by omega⟩

end Stitchwork.Project
