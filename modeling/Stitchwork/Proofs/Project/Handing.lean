/- # Stitchwork.Proofs.Project.Handing — values that are handed on from name to name.

A definition stores what its text says, and another one can take the value over by the formula that is the first name.
On the way the value is written and read again.  Since what is written is read as the same, all names of a chain of such
definitions end with one value, however long the chain is.  This needs names that formulas read as names: a reserved
word stands for something of its own, and what is no word stands for what it says.
-/
import Mathlib.Data.List.Chain
import Stitchwork.Proofs.Formula.Variable
import Stitchwork.Proofs.Project.Naming

namespace Stitchwork.Project

open Stitchwork.Formula Stitchwork.Number Stitchwork.Pattern

/-- The definitions hand a text on: the first has the text, and each of the others the formula that is the name of the
one in front of it.  None has a condition. -/
structure HandsOn (s : String) (vs : List NamedValue) : Prop where
  first : ∀ v ∈ vs.head?, v.value = s
  next : vs.IsChain fun v w => w.value = formulaText v.name.toList
  unconditional : ∀ v ∈ vs, v.condition = none ∨ v.condition = some ""

/-- The formula that is a name says what the name stands for. -/
theorem expandText_name {g : Scope} {p s : String} (hp : isName p) (hget : g.get? p = some (coerce s)) :
    ∃ t, expandText g (formulaText p.toList) = .ok t ∧ coerce t = coerce s := by
  have hclosed : closeBrace ∉ p.toList := by
    intro hmem
    simp only [isName, Bool.and_eq_true] at hp
    exact absurd (List.all_eq_true.1 hp.1.1.1.2 _ hmem) (by decide +kernel)
  obtain ⟨t, ht, hexpand⟩ := expand_name_of_coerce hp hget
  obtain ⟨u, hu, hcoerce, -⟩ := coerce_spec s
  have htu : t = u := Option.some.inj (ht.symm.trans hu)
  refine ⟨t, ?_, htu ▸ hcoerce⟩
  rw [expandText, expand_formulaText hclosed, hexpand]
  exact congrArg Except.ok String.ofList_toList

/-- **The names of a chain get one value, and no other name changes**, if the text of the first definition says the
value and all names in front of the last are names for formulas. -/
theorem evaluateValues_chain {s : String} {vs : List NamedValue}
    (hnext : vs.IsChain fun v w => w.value = formulaText v.name.toList)
    (hfree : ∀ v ∈ vs, v.condition = none ∨ v.condition = some "") (hnames : ∀ v ∈ vs.dropLast, isName v.name)
    (g : Scope) (hfirst : ∀ v ∈ vs.head?, ∃ t, expandText g v.value = .ok t ∧ coerce t = coerce s) :
    ∃ g', evaluateValues g vs = (g', .ok ()) ∧
      ∀ x, g'.get? x = if x ∈ vs.map NamedValue.name then some (coerce s) else g.get? x := by
  induction vs generalizing g with
  | nil => exact ⟨g, rfl, fun x => rfl⟩
  | cons v rest ih =>
    obtain ⟨t, hexpand, hcoerce⟩ := hfirst v rfl
    have hholds : holdsIfGiven g v.condition = .ok true := by
      rcases hfree v List.mem_cons_self with h | h <;> rw [h] <;> rfl
    have hstep : evaluateValue g v = .ok (g.insert v.name (coerce s)) := by
      rw [evaluateValue_of_holds hholds, hexpand, ← hcoerce]
      rfl
    have hrest : ∀ w ∈ rest.dropLast, isName w.name := by
      intro w hw
      cases rest with
      | nil => cases hw
      | cons u rest => exact hnames w (List.mem_cons_of_mem v hw)
    -- the next definition reads the name that has just been set
    have hhead : ∀ w ∈ rest.head?, ∃ t,
        expandText (g.insert v.name (coerce s)) w.value = .ok t ∧ coerce t = coerce s := by
      intro w hw
      cases rest with
      | nil => cases hw
      | cons u rest =>
        obtain rfl := Option.some.inj hw
        rw [(List.isChain_cons_cons.1 hnext).1]
        exact expandText_name (hnames v List.mem_cons_self) (by rw [Table.get?_insert, if_pos rfl])
    obtain ⟨g', hrun, hview⟩ := ih hnext.tail (fun w hw => hfree w (List.mem_cons_of_mem v hw)) hrest _ hhead
    refine ⟨g', by rw [evaluateValues, hstep]; exact hrun, fun x => ?_⟩
    rw [hview x, List.map_cons]
    by_cases hx : x ∈ rest.map NamedValue.name
    · rw [if_pos hx, if_pos (List.mem_cons_of_mem _ hx)]
    · rw [if_neg hx, Table.get?_insert]
      by_cases hv : x = v.name
      · rw [if_pos hv, if_pos (hv ▸ List.mem_cons_self)]
      · rw [if_neg hv, if_neg (fun hmem => (List.mem_cons.1 hmem).elim hv hx)]

/-- **What a text says does not change when it is written, read and handed on.**  What a text is read as can be written,
and is read as the same again; so is every integer that has no more digits than can be written.  Definitions that hand a
text on from name to name, however many, are all evaluated, give every name what the text says, and change nothing else,
if the names in front of the last are names for formulas as well. -/
theorem coercion_stable_along_chains :
    (∀ s : String, ∃ t, (coerce s).text? = some t ∧ coerce t = coerce s) ∧
    (∀ n : Int, digitCount n.natAbs ≤ maxDigits → ∃ t, (Value.int n).text? = some t ∧ coerce t = .int n) ∧
    ∀ (g : Scope) (s : String) (vs : List NamedValue), Literal s → HandsOn s vs → (∀ v ∈ vs.dropLast, isName v.name) →
      ∃ g', evaluateValues g vs = (g', .ok ()) ∧ (∀ v ∈ vs, g'.get? v.name = some (coerce s)) ∧
        ∀ x ∉ vs.map NamedValue.name, g'.get? x = g.get? x := by
  refine ⟨fun s => ?_, fun n hn => ?_, fun g s vs hs hvs hnames => ?_⟩
  · obtain ⟨t, ht, hcoerce, -⟩ := coerce_spec s
    exact ⟨t, ht, hcoerce⟩
  · have hsmall : n.natAbs < pow10 maxDigits := (digitCount_le_iff (by decide)).1 hn
    refine ⟨intText n, ?_, by rw [coerce, readInt?_intText hsmall]⟩
    show intText? n = _
    rw [intText?, if_pos hsmall]
  · have hfirst : ∀ v ∈ vs.head?, ∃ t, expandText g v.value = .ok t ∧ coerce t = coerce s := fun v hv =>
      ⟨s, by rw [hvs.first v hv, expandText, expand_of_literal hs]; rfl, rfl⟩
    obtain ⟨g', hrun, hview⟩ := evaluateValues_chain hvs.next hvs.unconditional hnames g hfirst
    refine ⟨g', hrun, fun v hv => ?_, fun x hx => ?_⟩
    · rw [hview, if_pos (List.mem_map_of_mem hv)]
    · rw [hview, if_neg hx]

/-- A thousand, with digits of two scripts, is handed on twice, at last to a name that no formula can read. -/
def thousandHandedOn : List NamedValue :=
  [⟨"x", " +1_٠00 ", none, none⟩, ⟨"y", "$\x7bx\x7d", none, some ""⟩, ⟨"two words", "$\x7by\x7d", none, none⟩]

/-- All three names get the thousand. -/
theorem thousand_reaches_every_name : (∃ t, (Value.int (-7)).text? = some t ∧ coerce t = .int (-7)) ∧
    ∃ g', evaluateValues .empty thousandHandedOn = (g', .ok ()) ∧
      g'.get? "x" = some (.int 1000) ∧ g'.get? "y" = some (.int 1000) ∧ g'.get? "two words" = some (.int 1000) := by
  obtain ⟨-, hint, hchain⟩ := coercion_stable_along_chains
  obtain ⟨g', hrun, hview, -⟩ := hchain .empty " +1_٠00 " thousandHandedOn (by decide +kernel)
    ⟨by rintro v ⟨⟩; rfl, by decide +kernel, by decide +kernel⟩ (by decide +kernel)
  have hread : readInt? " +1_٠00 " = some 1000 := by decide +kernel
  rw [coerce, hread] at hview
  exact ⟨hint (-7) (by decide +kernel), g', hrun, hview _ (.head _), hview _ (.tail _ (.head _)),
    hview _ (.tail _ (.tail _ (.head _)))⟩

/-- Two definitions that hand `5` on from a text to `y`. -/
def fiveFrom (p : String) : List NamedValue := [⟨p, "5", none, none⟩, ⟨"y", formulaText p.toList, none, none⟩]

/-- What is stored under a name, as text. -/
def storedText? (vs : List NamedValue) (x : String) : Option String :=
  ((evaluateValues .empty vs).1.get? x).bind Value.text?

/-- A reserved word does not hand on what it has been given, and neither does the name that is always true, what is no
word, or a word that is not in its plain form. -/
theorem reserved_words_keep_their_meaning : Literal "5" ∧ HandsOn "5" (fiveFrom "True") ∧
    storedText? (fiveFrom "True") "True" = some "5" ∧ storedText? (fiveFrom "True") "y" = some "True" ∧
    ∀ p ∈ ["__debug__", "a b", "ª"], storedText? (fiveFrom p) p = some "5" ∧ storedText? (fiveFrom p) "y" ≠ some "5" :=
  ⟨by decide, ⟨by rintro v ⟨⟩; rfl, by decide +kernel, by decide +kernel⟩, by decide +kernel, by decide +kernel,
    by decide +kernel⟩

end Stitchwork.Project
