/- # Stitchwork.Proofs.Project.Calls — what the use of an action counts for in the whole project.

An expansion is a long run of calls.  Here the calls on uses of actions are followed to its end: if such a use fails, the
whole expansion fails with the same report; if it gives elements, they stand in what the expansion gives; and if these
cannot be written, neither can the whole.
-/
import Stitchwork.Proofs.Pattern.SelfContained
import Stitchwork.Proofs.Pattern.Stored
import Stitchwork.Proofs.Project.Arguments
import Stitchwork.Proofs.Project.Expansion

namespace Stitchwork.Project

open Stitchwork.Formula Stitchwork.Markup Stitchwork.Pattern

/-! ## Parts of expansions -/

/-- The second expansion is part of the first: its elements stand there, and the first can be written only if the second
can. -/
structure Expansion.Holds (b a : Expansion) : Prop where
  writable : b.writable = true → a.writable = true
  elements : ∀ tag, descendants tag a.nodes ⊆ descendants tag b.nodes

namespace Expansion

theorem Holds.refl (a : Expansion) : a.Holds a := ⟨id, fun _ => List.Subset.refl _⟩

theorem Holds.trans {a b c : Expansion} (hcb : c.Holds b) (hba : b.Holds a) : c.Holds a :=
  ⟨fun h => hba.writable (hcb.writable h), fun tag => List.Subset.trans (hba.elements tag) (hcb.elements tag)⟩

theorem holds_none (b : Expansion) : b.Holds .none := ⟨fun _ => rfl, fun _ => List.nil_subset _⟩

theorem holds_append_left (a b : Expansion) : (a.append b).Holds a := by
  refine ⟨fun h => (Bool.and_eq_true_iff.1 h).1, fun tag => ?_⟩
  rw [append, descendants_append]
  exact List.subset_append_left _ _

theorem holds_append_right (a b : Expansion) : (a.append b).Holds b := by
  refine ⟨fun h => (Bool.and_eq_true_iff.1 h).2, fun tag => ?_⟩
  rw [append, descendants_append]
  exact List.subset_append_right _ _

theorem holds_wrap (e : Element) (a : Expansion) : (a.wrap e).Holds a := by
  refine ⟨id, fun tag => ?_⟩
  have hchildren : descendants tag a.nodes ⊆ descendants tag (e.append a.nodes).children := by
    rw [Element.append, descendants_append]
    exact List.subset_append_right _ _
  rw [wrap, descendants]
  refine List.Subset.trans hchildren (List.Subset.trans (descendants_children_subset _ tag) ?_)
  exact List.subset_append_left _ _

end Expansion

/-! ## Calls -/

/-- What a call gives by itself, if it is on the use of an action; other calls give nothing. -/
def ownResult (c : Context) (call : Call) : Except Error Expansion :=
  match call.node with
  | .element name attrs _ =>
    if name == "opaf:action" then do
      if !(← elementHolds call.scope ⟨name, attrs, []⟩) then .ok .none
      else expandAction c call.scope ⟨name, attrs, []⟩
    else .ok .none
  | _ => .ok .none

/-- What the call, on a node with the property, counts for in the result of the expansion that it belongs to. -/
structure Counts (c : Context) (P : Node → Prop) (call : Call) (r : Except Error Expansion) : Prop where
  node : P call.node
  fails : ∀ report, ownResult c call = .error report → r = .error report
  holds : ∀ a b, ownResult c call = .ok a → r = .ok b → b.Holds a

/-- What counts for a result counts for whatever holds that. -/
theorem Counts.through {c : Context} {P : Node → Prop} {call : Call} {a : Expansion} {r : Except Error Expansion}
    (h : Counts c P call (.ok a)) (hr : ∀ b, r = .ok b → b.Holds a) : Counts c P call r := by
  refine ⟨h.node, fun report hreport => ?_, fun own b hown hb => ?_⟩
  · cases h.fails report hreport
  · exact (hr b hb).trans (h.holds own a hown rfl)

/-- Every call that the step records counts for its result. -/
def Yields (c : Context) (P : Node → Prop) (x : Watched Expansion) : Prop :=
  ∀ w : Watch, ∀ call ∈ (x.run.run w).2.calls, call ∈ w.calls ∨ Counts c P call (x.run.run w).1

/-- The step records no call. -/
def Silent {α : Type} (x : Watched α) : Prop := ∀ w : Watch, (x.run.run w).2.calls = w.calls

open Watched (lift record refresh within)

section Steps

variable {α : Type} {c : Context} {P : Node → Prop}

theorem silent_lift (r : Except Error α) : Silent (lift r) := fun _ => rfl

theorem silent_scope : Silent Watched.scope := fun _ => rfl

theorem silent_refresh (globals : Scope) : Silent (refresh globals) := fun _ => rfl

theorem yields_of_silent {x : Watched Expansion} (hx : Silent x) : Yields c P x :=
  fun w _ hcall => .inl (hx w ▸ hcall)

theorem yields_lift (r : Except Error Expansion) : Yields c P (lift r) := yields_of_silent (silent_lift r)

theorem yields_pure (a : Expansion) : Yields c P (pure a) := yields_lift (.ok a)

theorem yields_throw (report : Error) : Yields c P (throw report) := yields_lift (.error report)

theorem yields_within {inner : Scope} {x : Watched Expansion} (hx : Yields c P x) : Yields c P (within inner x) :=
  fun w => hx ⟨inner, w.calls⟩

theorem run_scope_bind (f : Scope → Watched α) (w : Watch) :
    (Watched.scope >>= f).run.run w = (f w.scope).run.run w := rfl

theorem run_lift_bind {β : Type} (r : Except Error α) (f : α → Watched β) (w : Watch) :
    (lift r >>= f).run.run w =
      match r with
      | .ok a => (f a).run.run w
      | .error report => (.error report, w) := by
  cases r with
  | error report => rfl
  | ok a => rfl

/-- A step behind one that records nothing. -/
theorem yields_silent_bind {x : Watched α} {f : α → Watched Expansion} (hx : Silent x) (hf : ∀ a, Yields c P (f a)) :
    Yields c P (x >>= f) := by
  intro w call hcall
  have hsilent := hx w
  rcases hrun : x.run.run w with ⟨r, w'⟩
  rw [hrun] at hsilent
  simp only [ExceptT.run_bind, StateT.run_bind, hrun] at hcall ⊢
  cases r with
  | error report =>
    refine .inl ?_
    rw [← hsilent]
    exact hcall
  | ok a =>
    have hrest := hf a w' call hcall
    rwa [hsilent] at hrest

/-- A step behind a result that needs no watching. -/
theorem yields_lift_bind {r : Except Error α} {f : α → Watched Expansion} (hf : ∀ a, r = .ok a → Yields c P (f a)) :
    Yields c P (lift r >>= f) := by
  cases r with
  | error report => exact yields_lift (.error report)
  | ok a => exact hf a rfl

/-- An expansion behind another that it holds. -/
theorem yields_bind {x : Watched Expansion} {f : Expansion → Watched Expansion} (hx : Yields c P x)
    (hf : ∀ a, Yields c P (f a)) (hholds : ∀ a w b, ((f a).run.run w).1 = .ok b → b.Holds a) : Yields c P (x >>= f) := by
  intro w call hcall
  have hfirst := hx w call
  rcases hrun : x.run.run w with ⟨r, w'⟩
  rw [hrun] at hfirst
  simp only [ExceptT.run_bind, StateT.run_bind, hrun] at hcall ⊢
  cases r with
  | error report => exact hfirst hcall
  | ok a =>
    rcases hf a w' call hcall with hold | hcounts
    · exact (hfirst hold).imp_right fun h => h.through fun b hb => hholds a w' b hb
    · exact .inr hcounts

/-- What an expansion is made into afterwards. -/
theorem yields_map {x : Watched Expansion} (hx : Yields c P x) (g : Expansion → Expansion) (hg : ∀ b, (g b).Holds b) :
    Yields c P (do return g (← x)) := by
  refine yields_bind hx (fun b => yields_pure (g b)) fun b w b' hb => ?_
  cases hb
  exact hg b

/-- Two expansions, one behind the other. -/
theorem yields_append {x y : Watched Expansion} (hx : Yields c P x) (hy : Yields c P y) :
    Yields c P (do
      let a ← x
      let b ← y
      return a.append b) := by
  refine yields_bind hx (fun a => yields_map hy _ (Expansion.holds_append_right a)) fun a w b hb => ?_
  simp only [ExceptT.run_bind, StateT.run_bind] at hb
  rcases hrun : y.run.run w with ⟨_ | b', w'⟩
  · rw [hrun] at hb
    cases hb
  · rw [hrun] at hb
    cases hb
    exact Expansion.holds_append_left a b'

/-- Recording a call that counts for what comes behind it. -/
theorem yields_record_bind {i : Option Invocation} {n : Node} {f : Unit → Watched Expansion} (hf : Yields c P (f ()))
    (hn : ∀ w : Watch, Counts c P ⟨i, w.scope, n⟩ ((f ()).run.run ⟨w.scope, w.calls ++ [⟨i, w.scope, n⟩]⟩).1) :
    Yields c P (record i n >>= f) := by
  intro w call hcall
  have hrun : (record i n >>= f).run.run w = (f ()).run.run ⟨w.scope, w.calls ++ [⟨i, w.scope, n⟩]⟩ := rfl
  rw [hrun] at hcall ⊢
  rcases hf _ call hcall with hold | hcounts
  · rcases List.mem_append.1 hold with hold | hnew
    · exact .inl hold
    · rw [List.mem_singleton.1 hnew]
      exact .inr (hn w)
  · exact .inr hcounts

end Steps

theorem counts_own {c : Context} {P : Node → Prop} {call : Call} (h : P call.node) :
    Counts c P call (ownResult c call) := by
  refine ⟨h, fun _ => id, fun a b ha hb => ?_⟩
  cases ha.symm.trans hb
  exact .refl a

/-- A call that gives nothing by itself counts for nothing. -/
theorem counts_of_none {c : Context} {P : Node → Prop} {call : Call} (h : P call.node)
    (hown : ownResult c call = .ok .none) (r : Except Error Expansion) : Counts c P call r := by
  refine ⟨h, fun report hreport => ?_, fun a b ha _ => ?_⟩
  · cases hown.symm.trans hreport
  · cases hown.symm.trans ha
    exact Expansion.holds_none b

section Nodes

variable {c : Context} {content : Invocation → List String → Watched Expansion} {i : Option Invocation}
  {P : Node → Prop}

/-- Elements share the property with their children. -/
def Inherited (P : Node → Prop) : Prop :=
  ∀ {name : String} {attrs : Table String} {children : List Node}, P (.element name attrs children) → ∀ n ∈ children, P n

mutual

theorem yields_watchNode (hP : Inherited P)
    (hcontent : ∀ use, ∀ block ∈ c.document.blocks, Yields c P (content use block.elements)) (n : Node) (hn : P n) :
    Yields c P (watchNode c content i n) := by
  cases n with
  | element name attrs children =>
    have hchildren := yields_watchNodes hP hcontent children (hP hn)
    have hinner : ∀ head : Scope → Except Error Element, Yields c P (do
        refresh c.globals
        let head ← lift (head (← Watched.scope))
        let inner ← watchNodes c content i children
        return inner.wrap head) := by
      intro head
      refine yields_silent_bind (silent_refresh _) fun _ => yields_silent_bind silent_scope fun scope => ?_
      exact yields_silent_bind (silent_lift _) fun head => yields_map hchildren _ (Expansion.holds_wrap head)
    rw [watchNode]
    cases hname : name == "opaf:action" with
    | true =>
      -- the use of an action is the whole of what comes behind the record of the call
      refine yields_record_bind ?_ fun w => ?_
      · refine yields_silent_bind silent_scope fun scope => yields_silent_bind (silent_lift _) fun kept => ?_
        split
        · exact yields_pure _
        · rw [if_pos rfl]
          exact yields_lift _
      · have hown : ownResult c ⟨i, w.scope, .element name attrs children⟩ = (do
            if !(← elementHolds w.scope ⟨name, attrs, []⟩) then .ok .none
            else expandAction c w.scope ⟨name, attrs, []⟩) := if_pos hname
        have hcounts := @counts_own c P ⟨i, w.scope, .element name attrs children⟩ hn
        rw [hown] at hcounts
        rw [run_scope_bind, run_lift_bind]
        cases hkept : elementHolds w.scope ⟨name, attrs, []⟩ with
        | error report =>
          rw [hkept] at hcounts
          exact hcounts
        | ok kept =>
          rw [hkept] at hcounts
          cases kept with
          | false => exact hcounts
          | true => exact hcounts
    | false =>
      refine yields_record_bind ?_ fun w => counts_of_none hn (by simp [ownResult, hname]) _
      refine yields_silent_bind silent_scope fun scope => yields_silent_bind (silent_lift _) fun kept => ?_
      split
      · exact yields_pure _
      rw [if_neg (by simp)]
      split
      · refine yields_lift_bind fun block hblock => ?_
        refine yields_silent_bind (silent_refresh _) fun _ => yields_silent_bind silent_scope fun caller => ?_
        refine yields_silent_bind (silent_lift _) fun args => yields_silent_bind (silent_lift _) fun _ => ?_
        exact yields_within (hcontent _ block (findNamed_eq_ok hblock).1)
      split
      · exact hinner _
      split
      · exact hinner _
      split
      · exact hinner _
      split
      · exact yields_lift _
      split
      · exact yields_lift _
      · exact yields_pure _
  | _ => exact yields_record_bind (yields_throw _) fun w => counts_of_none hn rfl _

theorem yields_watchNodes (hP : Inherited P)
    (hcontent : ∀ use, ∀ block ∈ c.document.blocks, Yields c P (content use block.elements)) (ns : List Node)
    (hns : ∀ n ∈ ns, P n) : Yields c P (watchNodes c content i ns) := by
  cases ns with
  | nil => exact yields_pure _
  | cons n ns =>
    rw [List.forall_mem_cons] at hns
    rw [watchNodes]
    exact yields_append (yields_watchNode hP hcontent n hns.1) (yields_watchNodes hP hcontent ns hns.2)

end

end Nodes

section Project

variable {c : Context} {P : Node → Prop}

theorem yields_watchTexts {expand : Node → Watched Expansion} (hexpand : ∀ n, P n → Yields c P (expand n))
    {texts : List String} (htexts : ∀ s ∈ texts, ∀ e, restore s = .ok e → P e.toNode) :
    Yields c P (watchTexts expand texts) := by
  induction texts with
  | nil => exact yields_pure _
  | cons s rest ih =>
    rw [List.forall_mem_cons] at htexts
    exact yields_lift_bind fun e he => yields_append (hexpand _ (htexts.1 e he)) (ih htexts.2)

theorem yields_watchEach {α : Type} {f : α → Watched Expansion} {xs : List α} (h : ∀ x ∈ xs, Yields c P (f x)) :
    Yields c P (watchEach f xs) := by
  induction xs with
  | nil => exact yields_pure _
  | cons x xs ih =>
    rw [List.forall_mem_cons] at h
    exact yields_append h.1 (ih h.2)

variable (hP : Inherited P) (hstored : ∀ s ∈ c.document.storedTexts, ∀ e, restore s = .ok e → P e.toNode)

include hP hstored

/-- Every depth of blocks in blocks. -/
theorem yields_watchTo (depth : Nat) (i : Option Invocation) (n : Node) (hn : P n) :
    Yields c P (watchTo c depth i n) := by
  induction depth generalizing i n with
  | zero => exact yields_watchNode hP (fun _ _ _ => yields_throw _) n hn
  | succ depth ih =>
    refine yields_watchNode hP (fun use block hblock => ?_) n hn
    refine yields_watchTexts (ih (some use)) fun s hs => hstored s ?_
    exact List.mem_append_left _ (List.mem_append_left _ (List.mem_flatMap.2 ⟨block, hblock, hs⟩))

theorem yields_watchParts : Yields c P (watchParts c) := by
  have htexts : ∀ {texts}, texts ⊆ c.document.storedTexts → Yields c P (watchTexts (watchTo c c.depth none) texts) :=
    fun hsub => yields_watchTexts (yields_watchTo hP hstored c.depth none) fun s hs => hstored s (hsub hs)
  refine yields_append (yields_watchEach fun chart hchart => ?_) (yields_watchEach fun component hcomponent => ?_)
  · refine yields_silent_bind (silent_lift _) fun kept => ?_
    split
    · refine yields_map (htexts fun s hs => ?_) _ (Expansion.holds_wrap _)
      exact List.mem_append_left _ (List.mem_append_right _ (List.mem_flatMap.2 ⟨chart, hchart, hs⟩))
    · exact yields_pure _
  · refine yields_silent_bind (silent_lift _) fun kept => ?_
    split
    · cases helements : component.elements with
      | none => exact yields_throw _
      | some texts =>
        refine yields_map (htexts fun s hs => ?_) _ (Expansion.holds_wrap _)
        refine List.mem_append_right _ (List.mem_flatMap.2 ⟨component, hcomponent, ?_⟩)
        rwa [helements]
    · exact yields_pure _

end Project

/-- **Every call counts.**  A use of an action that fails makes the whole expansion fail with its report, and one that
succeeds is part of what the expansion gives. -/
theorem counts_of_mem_watchAll {c : Context} (hg : c.globals.keys.Nodup) {call : Call}
    (h : call ∈ (watchAll c).2.calls) : Counts c Lawful call (parts c) := by
  -- whatever is read from a text is lawful
  have hyields : Yields c Lawful (watchParts c) :=
    yields_watchParts (fun hn => allLawful_iff.1 hn.2) fun s _ e he => lawful_read (mapError_eq_ok.1 he)
  have hcounts := (hyields ⟨c.globals, []⟩ call h).resolve_left List.not_mem_nil
  rwa [← (watchAll_spec hg).1]

end Stitchwork.Project
