/- # Stitchwork.Proofs.Project.StitchCount — counting stitches is counting those of the unrolled work.

A repeat is counted by one multiplication, however often its content is to be worked.  To unroll nodes is to write down
the actions in the order in which they are worked, with the content of a repeat as often as its count says.  The count
is the sum of the totals of these actions, for repeats inside of repeats to any depth.  It is there only if the numbers
can be read, which they cannot if they have too many digits.
-/
import Stitchwork.Project.StitchCount
import Stitchwork.Proofs.Number.IntegerText
import Stitchwork.Proofs.Pattern.Checking

namespace Stitchwork.Project

open Stitchwork.Markup Stitchwork.Number Stitchwork.Pattern

variable {s : String} {ns : List Node}

/-! ## Unrolling -/

mutual

/-- The actions that nodes stand for, in the order in which they are worked. -/
def unrolled : List Node → List Element
  | [] => []
  | n :: ns => unrolledNode n ++ unrolled ns

/-- An action by itself, the content of a repeat as often as its count says, and nothing else. -/
def unrolledNode : Node → List Element
  | .element name attrs children =>
    if name = "action" then [⟨name, attrs, children⟩]
    else if name = "repeat" then
      match attrs.get? "count" with
      | some s => (List.replicate (integerIn s).toNat (unrolled children)).flatten
      | none => []
    else []
  | _ => []

end

/-- The total of an action, zero if it has none. -/
def totalOf (e : Element) : Int := ((e.attr? "total").map integerIn).getD 0

/-- The sum of the totals. -/
def stitchesOf (es : List Element) : Int := (es.map totalOf).sum

theorem stitchesOf_append (es fs : List Element) : stitchesOf (es ++ fs) = stitchesOf es + stitchesOf fs := by
  rw [stitchesOf, List.map_append, List.sum_append]
  rfl

theorem stitchesOf_replicate (k : Nat) (es : List Element) :
    stitchesOf (List.replicate k es).flatten = k * stitchesOf es := by
  induction k with
  | zero => simp [stitchesOf]
  | succ k ih =>
    rw [List.replicate_succ, List.flatten_cons, stitchesOf_append, ih, Nat.cast_succ, add_mul, one_mul, add_comm]

theorem unrolled_append (ms ns : List Node) : unrolled (ms ++ ns) = unrolled ms ++ unrolled ns := by
  induction ms with
  | nil => rfl
  | cons m ms ih => rw [List.cons_append, unrolled, unrolled, ih, List.append_assoc]

theorem unrolled_replicate (k : Nat) (ns : List Node) :
    unrolled (List.replicate k ns).flatten = (List.replicate k (unrolled ns)).flatten := by
  induction k with
  | zero => rfl
  | succ k ih =>
    rw [List.replicate_succ, List.flatten_cons, unrolled_append, ih, List.replicate_succ, List.flatten_cons]

theorem unrolledNode_repeat {attrs : Table String} (h : attrs.get? "count" = some s) (ns : List Node) :
    unrolledNode (.element "repeat" attrs ns) = (List.replicate (integerIn s).toNat (unrolled ns)).flatten := by
  rw [unrolledNode, if_neg (by decide), if_pos rfl, h]

/-! ## Elements that say how much is worked -/

/-- The nodes are elements, down to the last of them, and each has the property. -/
structure EachElement (P : Element → Prop) (ns : List Node) : Prop where
  pruned : AllPruned noProse ns
  all : ∀ e ∈ reached noProse ns, P e

/-- The number of an element, as it is written: the total of an action, the count of a repeat. -/
def numeral? (e : Element) : Option String :=
  if e.name = "action" then e.attr? "total" else if e.name = "repeat" then e.attr? "count" else none

/-- The number of the element is an integer, and if the element is a repeat it is not negative. -/
structure HasInteger (e : Element) : Prop where
  isInteger : ∀ s, numeral? e = some s → IsInteger s
  nonneg : e.name = "repeat" → ∀ s, e.attr? "count" = some s → 0 ≤ integerIn s

/-- The number of the element does not have too many digits. -/
def HasFewDigits (e : Element) : Prop := ∀ s, numeral? e = some s → (digitsIn s).length ≤ maxDigits

section

variable {P Q : Element → Prop}

theorem eachElement_nil : EachElement P [] := ⟨trivial, List.forall_mem_nil _⟩

theorem eachElement_append {ms : List Node} : EachElement P (ms ++ ns) ↔ EachElement P ms ∧ EachElement P ns := by
  constructor
  · rintro ⟨hpruned, hall⟩
    rw [allPruned_iff, List.forall_mem_append] at hpruned
    rw [reached_append, List.forall_mem_append] at hall
    exact ⟨⟨allPruned_iff.2 hpruned.1, hall.1⟩, ⟨allPruned_iff.2 hpruned.2, hall.2⟩⟩
  · rintro ⟨hms, hns⟩
    refine ⟨allPruned_iff.2 (List.forall_mem_append.2 ⟨allPruned_iff.1 hms.pruned, allPruned_iff.1 hns.pruned⟩), ?_⟩
    rw [reached_append]
    exact List.forall_mem_append.2 ⟨hms.all, hns.all⟩

theorem eachElement_cons {n : Node} : EachElement P (n :: ns) ↔ EachElement P [n] ∧ EachElement P ns := by
  rw [← List.singleton_append, eachElement_append]

theorem eachElement_replicate (h : EachElement P ns) (k : Nat) : EachElement P (List.replicate k ns).flatten := by
  induction k with
  | zero => exact eachElement_nil
  | succ k ih =>
    rw [List.replicate_succ, List.flatten_cons]
    exact eachElement_append.2 ⟨h, ih⟩

theorem eachElement_element {name : String} {attrs : Table String} {children : List Node} :
    EachElement P [.element name attrs children] ↔ P ⟨name, attrs, children⟩ ∧ EachElement P children := by
  have hreached : reached noProse [.element name attrs children] =
      ⟨name, attrs, children⟩ :: reached noProse children := List.append_nil _
  constructor
  · rintro ⟨hpruned, hall⟩
    rw [hreached, List.forall_mem_cons] at hall
    exact ⟨hall.1, ⟨hpruned.1.resolve_left Bool.false_ne_true, hall.2⟩⟩
  · rintro ⟨he, hchildren⟩
    refine ⟨⟨.inr hchildren.pruned, trivial⟩, ?_⟩
    rw [hreached]
    exact List.forall_mem_cons.2 ⟨he, hchildren.all⟩

theorem EachElement.and (hP : EachElement P ns) (hQ : EachElement Q ns) :
    EachElement (fun e => P e ∧ Q e) ns := ⟨hP.pruned, fun e he => ⟨hP.all e he, hQ.all e he⟩⟩

end

/-! ## Counting -/

theorem integerOf_eq_ok {n : Int} : integerOf s = .ok n ↔ readInt? s = some n := by
  rw [integerOf]
  cases readInt? s <;> simp

theorem integerOf_numeral? {e : Element} (h : HasInteger e ∧ HasFewDigits e) (hs : numeral? e = some s) :
    integerOf s = .ok (integerIn s) :=
  integerOf_eq_ok.2 (readInt?_eq_some_iff.2 ⟨h.1.isInteger s hs, h.2 s hs, rfl⟩)

mutual

theorem countStitches_eq (ns : List Node) (h : EachElement (fun e => HasInteger e ∧ HasFewDigits e) ns) :
    countStitches ns = .ok (stitchesOf (unrolled ns)) := by
  cases ns with
  | nil => rfl
  | cons n ns =>
    have hparts := eachElement_cons.1 h
    rw [countStitches, countNode_eq n hparts.1, countStitches_eq ns hparts.2, unrolled, stitchesOf_append]
    rfl

theorem countNode_eq (n : Node) (h : EachElement (fun e => HasInteger e ∧ HasFewDigits e) [n]) :
    countNode n = .ok (stitchesOf (unrolledNode n)) := by
  cases n with
  | element name attrs children =>
    obtain ⟨he, hchildren⟩ := eachElement_element.1 h
    by_cases haction : name = "action"
    · subst haction
      rw [countNode, if_pos (beq_self_eq_true _), unrolledNode, if_pos rfl]
      cases htotal : attrs.get? "total" with
      | none => simp [stitchesOf, totalOf, Element.attr?, htotal]
      | some s => simp [stitchesOf, totalOf, Element.attr?, htotal, integerOf_numeral? he htotal]
    · by_cases hrepeat : name = "repeat"
      · subst hrepeat
        rw [countNode, if_neg (by decide), if_pos (beq_self_eq_true _)]
        cases hcount : attrs.get? "count" with
        | none =>
          rw [unrolledNode, if_neg haction, if_pos rfl, hcount]
          rfl
        | some s =>
          -- one multiplication for all the rounds: the count is not negative, so it is the number of rounds
          have hrounds : ((integerIn s).toNat : Int) = integerIn s := Int.toNat_of_nonneg (he.1.nonneg rfl s hcount)
          rw [unrolledNode_repeat hcount, stitchesOf_replicate, hrounds]
          dsimp only
          rw [integerOf_numeral? he hcount, countStitches_eq children hchildren]
          rfl
      · rw [countNode, if_neg (by simpa using haction), if_neg (by simpa using hrepeat), unrolledNode, if_neg haction,
          if_neg hrepeat]
        rfl
  | _ => exact h.pruned.1.elim

end

/-- **The count of stitches is that of the unrolled work.**  Let the nodes be elements, down to the last of them, with
integers that do not have too many digits for the totals of actions and the counts of repeats, no count negative.  Then
their stitches can be counted, and they are the sum of the totals of the actions that the nodes stand for.  So the
stitches of nodes one behind the other add up, and a repeat has as many as its content written as often as its count
says. -/
theorem stitches_of_unrolled {ns : List Node} (hns : EachElement HasInteger ns)
    (hdigits : EachElement HasFewDigits ns) :
    countStitches ns = .ok (stitchesOf (unrolled ns)) ∧
    (∀ ms, EachElement HasInteger ms → EachElement HasFewDigits ms → ∃ a b,
      countStitches ns = .ok a ∧ countStitches ms = .ok b ∧ countStitches (ns ++ ms) = .ok (a + b)) ∧
    ∀ attrs s, attrs.get? "count" = some s → IsInteger s → 0 ≤ integerIn s → (digitsIn s).length ≤ maxDigits →
      countStitches [.element "repeat" attrs ns] = countStitches (List.replicate (integerIn s).toNat ns).flatten := by
  have hboth := hns.and hdigits
  refine ⟨countStitches_eq ns hboth, fun ms hms hdigits' => ?_, fun attrs s hcount hs hnonneg hlength => ?_⟩
  · have hboth' := hms.and hdigits'
    refine ⟨_, _, countStitches_eq ns hboth, countStitches_eq ms hboth', ?_⟩
    rw [countStitches_eq _ (eachElement_append.2 ⟨hboth, hboth'⟩), unrolled_append, stitchesOf_append]
  · have hsame : ∀ t, numeral? ⟨"repeat", attrs, ns⟩ = some t → t = s := fun t ht =>
      Option.some.inj (ht.symm.trans hcount)
    have hrepeat : EachElement (fun e => HasInteger e ∧ HasFewDigits e) [.element "repeat" attrs ns] := by
      refine eachElement_element.2 ⟨⟨⟨fun t ht => ?_, fun _ t ht => ?_⟩, fun t ht => ?_⟩, hboth⟩
      · rwa [hsame t ht]
      · rwa [hsame t ht]
      · rwa [hsame t ht]
    rw [countStitches_eq _ hrepeat, countStitches_eq _ (eachElement_replicate hboth _), unrolled_replicate, unrolled,
      unrolledNode_repeat hcount, unrolled, List.append_nil]

theorem hasInteger_of_readInt? {e : Element} (hread : ∀ s ∈ numeral? e, (readInt? s).isSome)
    (hnonneg : e.name = "repeat" → ∀ s ∈ e.attr? "count", 0 ≤ integerIn s) : HasInteger e ∧ HasFewDigits e := by
  have hnumeral : ∀ s, numeral? e = some s → IsInteger s ∧ (digitsIn s).length ≤ maxDigits := by
    intro s hs
    obtain ⟨n, hn⟩ := Option.isSome_iff_exists.1 (hread s hs)
    obtain ⟨hinteger, hlength, -⟩ := readInt?_eq_some_iff.1 hn
    exact ⟨hinteger, hlength⟩
  exact ⟨⟨fun s hs => (hnumeral s hs).1, hnonneg⟩, fun s hs => (hnumeral s hs).2⟩

/-- An action with a total. -/
def actionOf (total : String) : Node := .element "action" (Table.ofList [("total", total)]) []

/-- Three stitches and four, twice, and one less. -/
def repeatedWork : List Node :=
  [.element "repeat" (Table.ofList [("count", "2")])
    [actionOf "3",
     .element "repeat" (Table.ofList [("count", "0_4")]) [actionOf "+1", .element "action" Table.empty []]],
   .element "row" Table.empty [actionOf "9"], actionOf " -1"]

theorem repeatedWork_has_thirteen : EachElement HasInteger repeatedWork ∧ EachElement HasFewDigits repeatedWork ∧
    (unrolled repeatedWork).length = 19 ∧ countStitches repeatedWork = .ok 13 := by
  have hpruned : AllPruned noProse repeatedWork := by simp [repeatedWork, actionOf, AllPruned, Pruned]
  have hread : ∀ e ∈ reached noProse repeatedWork, (∀ s ∈ numeral? e, (readInt? s).isSome) ∧
      (e.name = "repeat" → ∀ s ∈ e.attr? "count", 0 ≤ integerIn s) := by decide +kernel
  have hall : EachElement (fun e => HasInteger e ∧ HasFewDigits e) repeatedWork :=
    ⟨hpruned, fun e he => hasInteger_of_readInt? (hread e he).1 (hread e he).2⟩
  have hinteger : EachElement HasInteger repeatedWork := ⟨hpruned, fun e he => (hall.all e he).1⟩
  have hdigits : EachElement HasFewDigits repeatedWork := ⟨hpruned, fun e he => (hall.all e he).2⟩
  have hthirteen : stitchesOf (unrolled repeatedWork) = 13 := by decide +kernel
  refine ⟨hinteger, hdigits, by decide +kernel, ?_⟩
  rw [(stitches_of_unrolled hinteger hdigits).1, hthirteen]

/-! ## Numbers that are too long -/

theorem integerOf_of_long (h : IsInteger s) (hlong : maxDigits < (digitsIn s).length) :
    integerOf s = .error .wrongValue := by
  rw [integerOf, readInt?_of_isInteger h, if_pos hlong]

theorem integerIn_minus {cs : List Char} (h : '-' ∉ cs) :
    integerIn (String.ofList ('-' :: cs)) = -integerIn (String.ofList cs) := by
  have hminus : Text.digitValue? '-' = none := by decide +kernel
  rw [integerIn, integerIn, digitsIn, digitsIn, String.toList_ofList, String.toList_ofList,
    List.filterMap_cons_none hminus]
  simp [h, Binary64.signed]

theorem stitchesOf_actionOf (s t : String) :
    stitchesOf (unrolled [actionOf s, actionOf t]) = integerIn s + integerIn t := by
  change integerIn s + (integerIn t + 0) = integerIn s + integerIn t
  rw [add_zero]

theorem countStitches_actionOf (h : integerOf s = .error .wrongValue) (ns : List Node) :
    countStitches (actionOf s :: ns) = .error .wrongValue := by
  have htotal : (Table.ofList [("total", s)]).get? "total" = some s := rfl
  rw [countStitches, actionOf, countNode, if_pos (beq_self_eq_true _), htotal]
  dsimp only
  rw [h]
  rfl

theorem eachElement_actionOf (h : IsInteger s) : EachElement HasInteger [actionOf s] := by
  refine eachElement_element.2 ⟨⟨fun t ht => ?_, fun hname => ?_⟩, eachElement_nil⟩
  · obtain rfl : s = t := Option.some.inj ht
    exact h
  · exact absurd (show "action" = "repeat" from hname) (by decide)

/-- A number with one digit too many. -/
def longNumber : List Char := '1' :: List.replicate maxDigits '0'

theorem isDigit_of_mem_longNumber : ∀ c ∈ longNumber, isDigit c :=
  List.forall_mem_cons.2 ⟨by decide +kernel, fun c hc => by rw [List.eq_of_mem_replicate hc]; decide +kernel⟩

theorem length_digits_longNumber : (longNumber.filterMap Text.digitValue?).length = maxDigits + 1 := by
  have hone : Text.digitValue? '1' = some 1 := by decide +kernel
  have hzero : Text.digitValue? '0' = some 0 := by decide +kernel
  rw [longNumber, List.filterMap_cons_some hone, List.filterMap_replicate_of_some hzero, List.length_cons,
    List.length_replicate]

/-- Work, and as much undone, cannot be counted if the numbers are too long. -/
theorem undone_work_cannot_be_counted :
    let work := [actionOf (String.ofList longNumber), actionOf (String.ofList ('-' :: longNumber))]
    EachElement HasInteger work ∧ stitchesOf (unrolled work) = 0 ∧ countStitches work = .error .wrongValue := by
  have hlong : IsInteger (String.ofList longNumber) :=
    isInteger_of_forall [] (by simp) isDigit_of_mem_longNumber (List.cons_ne_nil _ _)
  have hminus : IsInteger (String.ofList ('-' :: longNumber)) :=
    isInteger_of_forall ['-'] (by simp) isDigit_of_mem_longNumber (List.cons_ne_nil _ _)
  have hdigits : (digitsIn (String.ofList longNumber)).length = maxDigits + 1 := by
    rw [digitsIn, String.toList_ofList, length_digits_longNumber]
  have hpositive : '-' ∉ longNumber := fun hmem => absurd (isDigit_of_mem_longNumber _ hmem) (by decide +kernel)
  refine ⟨eachElement_cons.2 ⟨eachElement_actionOf hlong, eachElement_actionOf hminus⟩, ?_,
    countStitches_actionOf (integerOf_of_long hlong (Nat.lt_of_lt_of_eq (Nat.lt_succ_self _) hdigits.symm)) _⟩
  rw [stitchesOf_actionOf, integerIn_minus hpositive, add_neg_cancel]

end Stitchwork.Project
