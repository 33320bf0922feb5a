/- # Stitchwork.Proofs.Project.Numbering — numbers are consecutive in document order.

Numbering goes down into an element after it has numbered it, and on to the next one with the last number it has given.
To say what comes out, a forest is written down as its tags in document order, each with its depth; nothing is lost in
that.  The tags with the wanted names get consecutive numbers, and nothing else changes.
-/
import Stitchwork.Project.Numbering
import Stitchwork.Proofs.Number.Reread
import Stitchwork.Proofs.Pattern.Provenance

namespace Stitchwork.Project

open Stitchwork.Markup Stitchwork.Number Stitchwork.Pattern

/-! ## Forests as tags in document order -/

/-- A tag of a forest: how many elements it is inside of, and what it says. -/
structure Tag where
  depth : Nat
  name : String
  attrs : Table String
deriving DecidableEq

mutual

/-- The tags of nodes that are inside of `depth` elements, in document order. -/
def tags (depth : Nat) : List Node → List Tag
  | [] => []
  | n :: ns => tagsFrom depth n ++ tags depth ns

/-- The tag of an element, and the tags of what is below it. -/
def tagsFrom (depth : Nat) : Node → List Tag
  | .element name attrs children => ⟨depth, name, attrs⟩ :: tags (depth + 1) children
  | _ => []

end

mutual

theorem le_depth_of_mem_tags {depth : Nat} (ns : List Node) : ∀ t ∈ tags depth ns, depth ≤ t.depth := by
  cases ns with
  | nil => exact List.forall_mem_nil _
  | cons n ns =>
    rw [tags]
    exact List.forall_mem_append.2 ⟨le_depth_of_mem_tagsFrom n, le_depth_of_mem_tags ns⟩

theorem le_depth_of_mem_tagsFrom {depth : Nat} (n : Node) : ∀ t ∈ tagsFrom depth n, depth ≤ t.depth := by
  cases n with
  | element name attrs children =>
    exact List.forall_mem_cons.2 ⟨le_rfl, fun t ht => Nat.le_of_succ_le (le_depth_of_mem_tags children t ht)⟩
  | _ => exact List.forall_mem_nil _

end

/-- Behind an element no deeper tag comes first. -/
theorem takeWhile_tags (depth : Nat) (ns : List Node) : (tags depth ns).takeWhile (depth < ·.depth) = [] := by
  induction ns with
  | nil => rfl
  | cons n ns ih =>
    cases n with
    | element name attrs children => exact List.takeWhile_cons_of_neg (by simp)
    | _ => exact ih

/-- The tags below an element are the deeper ones that follow. -/
theorem takeWhile_tags_append (depth : Nat) (children ns : List Node) :
    (tags (depth + 1) children ++ tags depth ns).takeWhile (depth < ·.depth) = tags (depth + 1) children := by
  have hdeeper : ∀ t ∈ tags (depth + 1) children, decide (depth < t.depth) := fun t ht =>
    decide_eq_true (le_depth_of_mem_tags children t ht)
  rw [List.takeWhile_append_of_pos hdeeper, takeWhile_tags, List.append_nil]

/-- **Elements can be told from their tags.** -/
theorem eq_of_tags {depth : Nat} (ms ns : List Node) (hms : AllPruned noProse ms) (hns : AllPruned noProse ns)
    (h : tags depth ms = tags depth ns) : ms = ns := by
  match ms, ns with
  | [], [] => rfl
  | [], .element _ _ _ :: _ => cases h
  | .element _ _ _ :: _, [] => cases h
  | .element name attrs cs :: ms, .element name' attrs' cs' :: ns =>
    rw [tags, tags, tagsFrom, tagsFrom, List.cons_append, List.cons_append, List.cons.injEq] at h
    obtain ⟨htag, hrest⟩ := h
    -- where the tags below the first element end is seen from their depths
    have hchildren : tags (depth + 1) cs = tags (depth + 1) cs' := by
      rw [← takeWhile_tags_append depth cs ms, hrest, takeWhile_tags_append]
    rw [hchildren, List.append_cancel_left_eq] at hrest
    obtain ⟨-, rfl, rfl⟩ := Tag.mk.injEq .. ▸ htag
    rw [eq_of_tags cs cs' (hms.1.resolve_left Bool.false_ne_true) (hns.1.resolve_left Bool.false_ne_true) hchildren,
      eq_of_tags ms ns hms.2 hns.2 hrest]

/-! ## Numbers in document order -/

/-- Does the tag have one of the names? -/
def isWanted (names : List String) (t : Tag) : Bool := names.contains t.name

/-- The tag with a number as its identifier. -/
def Tag.numbered (t : Tag) (n : Int) : Tag := { t with attrs := t.attrs.insert "id" (intText n) }

/-- The tags with those that are wanted numbered from the one behind `n`: a tag gets as much more than `n` as there are
wanted tags up to it. -/
def marked (names : List String) (n : Int) (ts : List Tag) : List Tag :=
  ts.mapIdx fun i t => if isWanted names t then t.numbered (n + (ts.take (i + 1)).countP (isWanted names)) else t

/-- The identifiers of the tags that are wanted. -/
def identifiers (names : List String) (ts : List Tag) : List (Option String) :=
  (ts.filter (isWanted names)).map (·.attrs.get? "id")

/-- None of the `k` numbers behind `n` has too many digits. -/
def Writable (n : Int) (k : Nat) : Prop := ∀ i : Nat, 1 ≤ i → i ≤ k → (n + i).natAbs < pow10 maxDigits

section

variable {names : List String} {n : Int}

theorem marked_cons_of_pos {t : Tag} (h : isWanted names t) (ts : List Tag) :
    marked names n (t :: ts) = t.numbered (n + 1) :: marked names (n + 1) ts := by
  rw [marked, List.mapIdx_cons, if_pos h]
  simp [marked, h, add_assoc, add_comm, add_left_comm]

theorem marked_cons_of_neg {t : Tag} (h : isWanted names t = false) (ts : List Tag) :
    marked names n (t :: ts) = t :: marked names n ts := by
  rw [marked, List.mapIdx_cons, if_neg (by simp [h])]
  simp [marked, h]

theorem marked_append (ts us : List Tag) :
    marked names n (ts ++ us) = marked names n ts ++ marked names (n + ts.countP (isWanted names)) us := by
  induction ts generalizing n with
  | nil => simp [marked]
  | cons t ts ih =>
    cases h : isWanted names t with
    | true =>
      have hnext : n + 1 + (ts.countP (isWanted names) : Int) = n + ((t :: ts).countP (isWanted names) : Nat) := by
        rw [List.countP_cons_of_pos h]
        omega
      rw [List.cons_append, marked_cons_of_pos h, marked_cons_of_pos h, ih, hnext, List.cons_append]
    | false =>
      rw [List.cons_append, marked_cons_of_neg h, marked_cons_of_neg h, ih, List.countP_cons_of_neg (by simp [h]),
        List.cons_append]

theorem identifiers_marked (ts : List Tag) : identifiers names (marked names n ts) =
    (List.range (ts.countP (isWanted names))).map fun i => some (intText (n + (i + 1 : Nat))) := by
  induction ts generalizing n with
  | nil => rfl
  | cons t ts ih =>
    cases h : isWanted names t with
    | true =>
      have hnumbered : isWanted names (t.numbered (n + 1)) = true := h
      rw [marked_cons_of_pos h, identifiers, List.filter_cons_of_pos hnumbered, List.map_cons, ← identifiers, ih,
        List.countP_cons_of_pos h, List.range_succ_eq_map, List.map_cons, List.map_map]
      refine congrArg₂ List.cons ((Table.get?_insert ..).trans (if_pos rfl)) (List.map_congr_left fun i _ => ?_)
      have hnext : n + 1 + (i + 1 : Nat) = n + (i + 1 + 1 : Nat) := by omega
      rw [hnext]
      rfl
    | false =>
      have hneg : ¬isWanted names t = true := by simp [h]
      rw [marked_cons_of_neg h, identifiers, List.filter_cons_of_neg hneg, ← identifiers, ih,
        List.countP_cons_of_neg hneg]

/-- An element that is wanted comes before those below it. -/
theorem countP_tagsFrom_of_pos {depth : Nat} {name : String} {attrs : Table String}
    (h : isWanted names ⟨depth, name, attrs⟩) (children : List Node) :
    (tagsFrom depth (.element name attrs children)).countP (isWanted names) =
      1 + (tags (depth + 1) children).countP (isWanted names) := by
  rw [tagsFrom, List.countP_cons_of_pos h, Nat.add_comm]

theorem countP_tagsFrom_of_neg {depth : Nat} {name : String} {attrs : Table String}
    (h : isWanted names ⟨depth, name, attrs⟩ = false) (children : List Node) :
    (tagsFrom depth (.element name attrs children)).countP (isWanted names) =
      (tags (depth + 1) children).countP (isWanted names) := by
  rw [tagsFrom, List.countP_cons_of_neg (Bool.eq_false_iff.1 h)]

theorem writable_add {j k : Nat} : Writable n (j + k) ↔ Writable n j ∧ Writable (n + j) k := by
  constructor
  · intro h
    refine ⟨fun i hi hj => h i hi (by omega), fun i hi hk => ?_⟩
    have hsum := h (j + i) (by omega) (by omega)
    rwa [Nat.cast_add, ← add_assoc] at hsum
  · rintro ⟨hj, hk⟩ i hi hle
    by_cases hij : i ≤ j
    · exact hj i hi hij
    · have hsum := hk (i - j) (by omega) (by omega)
      rwa [add_assoc, ← Nat.cast_add, Nat.add_sub_cancel' (by omega)] at hsum

theorem writable_one : Writable n 1 ↔ (n + 1).natAbs < pow10 maxDigits :=
  ⟨fun h => h 1 le_rfl le_rfl, fun h i hi hle => by rwa [Nat.le_antisymm hle hi]⟩

theorem numberText_of_lt (h : n.natAbs < pow10 maxDigits) : numberText n = .ok (intText n) := by
  unfold numberText intText?
  rw [if_pos h]

theorem numberText_of_not_lt (h : ¬n.natAbs < pow10 maxDigits) : numberText n = .error .wrongValue := by
  unfold numberText intText?
  rw [if_neg h]

theorem numberNode_of_pos {name : String} (h : names.contains name) (attrs : Table String) (children : List Node) :
    numberNode names n (.element name attrs children) = (do
      let s ← numberText (n + 1)
      let (ys, k) ← numberAll names (n + 1) children
      .ok (.element name (attrs.insert "id" s) ys, k)) := by
  rw [numberNode, if_pos h, if_pos h]
  cases numberText (n + 1) <;> rfl

theorem numberNode_of_neg {name : String} (h : names.contains name = false) (attrs : Table String)
    (children : List Node) : numberNode names n (.element name attrs children) = (do
      let (ys, k) ← numberAll names n children
      .ok (.element name attrs ys, k)) := by
  rw [numberNode, if_neg (Bool.eq_false_iff.1 h), if_neg (Bool.eq_false_iff.1 h)]
  rfl

/-- Nodes one behind the other are numbered one after the other. -/
theorem numberAll_append (ms ns : List Node) : numberAll names n (ms ++ ns) = (do
    let (xs, m) ← numberAll names n ms
    let (ys, k) ← numberAll names m ns
    .ok (xs ++ ys, k)) := by
  induction ms generalizing n with
  | nil =>
    rw [List.nil_append, numberAll]
    change _ = (numberAll names n ns >>= fun p => .ok ([] ++ p.1, p.2))
    cases numberAll names n ns <;> rfl
  | cons x ms ih =>
    rw [List.cons_append, numberAll, numberAll]
    cases numberNode names n x with
    | error e => rfl
    | ok p =>
      change (numberAll names p.2 (ms ++ ns) >>= _) = _
      rw [ih]
      change _ = ((numberAll names p.2 ms >>= fun q => .ok (p.1 :: q.1, q.2)) >>= _)
      cases numberAll names p.2 ms with
      | error e => rfl
      | ok q =>
        change ((numberAll names q.2 ns >>= _) >>= _) = (numberAll names q.2 ns >>= _)
        cases numberAll names q.2 ns <;> rfl

mutual

/-- Elements whose numbers can all be written are numbered in document order. -/
theorem numberAll_of_writable (ns : List Node) (hns : AllPruned noProse ns) (n : Int) (depth : Nat)
    (h : Writable n ((tags depth ns).countP (isWanted names))) :
    ∃ ys, numberAll names n ns = .ok (ys, n + (tags depth ns).countP (isWanted names)) ∧ AllPruned noProse ys ∧
      tags depth ys = marked names n (tags depth ns) := by
  cases ns with
  | nil => exact ⟨[], by simp [numberAll, tags], trivial, rfl⟩
  | cons x xs =>
    rw [tags, List.countP_append, writable_add] at h
    obtain ⟨y, hy, hpruned, htags⟩ := numberNode_of_writable x hns.1 n depth h.1
    obtain ⟨ys, hys, hpruned', htags'⟩ := numberAll_of_writable xs hns.2 _ depth h.2
    refine ⟨y :: ys, ?_, ⟨hpruned, hpruned'⟩, ?_⟩
    · rw [numberAll, hy]
      dsimp only [bind, Except.bind]
      rw [hys, tags, List.countP_append, Nat.cast_add, add_assoc]
    · rw [tags, tags, htags, htags', marked_append]

theorem numberNode_of_writable (x : Node) (hx : Pruned noProse x) (n : Int) (depth : Nat)
    (h : Writable n ((tagsFrom depth x).countP (isWanted names))) :
    ∃ y, numberNode names n x = .ok (y, n + (tagsFrom depth x).countP (isWanted names)) ∧ Pruned noProse y ∧
      tagsFrom depth y = marked names n (tagsFrom depth x) := by
  cases x with
  | element name attrs children =>
    have hchildren := hx.resolve_left Bool.false_ne_true
    cases hname : isWanted names ⟨depth, name, attrs⟩ with
    | true =>
      -- the element has its number before those below it have theirs
      rw [countP_tagsFrom_of_pos hname, writable_add] at h
      obtain ⟨ys, hys, hpruned, htags⟩ := numberAll_of_writable children hchildren (n + 1) (depth + 1) h.2
      refine ⟨.element name (attrs.insert "id" (intText (n + 1))) ys, ?_, .inr hpruned, ?_⟩
      · rw [numberNode_of_pos hname, numberText_of_lt (writable_one.1 h.1), countP_tagsFrom_of_pos hname]
        dsimp only [bind, Except.bind]
        rw [hys, Nat.cast_add, Nat.cast_one, add_assoc]
      · rw [tagsFrom, tagsFrom, marked_cons_of_pos hname, htags]
        rfl
    | false =>
      rw [countP_tagsFrom_of_neg hname] at h
      obtain ⟨ys, hys, hpruned, htags⟩ := numberAll_of_writable children hchildren n (depth + 1) h
      refine ⟨.element name attrs ys, ?_, .inr hpruned, ?_⟩
      · rw [numberNode_of_neg hname, hys, countP_tagsFrom_of_neg hname]
        rfl
      · rw [tagsFrom, tagsFrom, marked_cons_of_neg hname, htags]
  | _ => cases hx

end

mutual

/-- If one of the numbers cannot be written, nothing is numbered. -/
theorem numberAll_of_not_writable (ns : List Node) (hns : AllPruned noProse ns) (n : Int) (depth : Nat)
    (h : ¬Writable n ((tags depth ns).countP (isWanted names))) :
    numberAll names n ns = .error .wrongValue := by
  cases ns with
  | nil => exact absurd (fun i hi hle => absurd (hi.trans hle) (Nat.not_succ_le_zero 0)) h
  | cons x xs =>
    rw [tags, List.countP_append, writable_add, not_and] at h
    -- what comes before the number that cannot be written is numbered, and then lost
    by_cases hx : Writable n ((tagsFrom depth x).countP (isWanted names))
    · obtain ⟨y, hy, -⟩ := numberNode_of_writable x hns.1 n depth hx
      rw [numberAll, hy]
      dsimp only [bind, Except.bind]
      rw [numberAll_of_not_writable xs hns.2 _ depth (h hx)]
    · rw [numberAll, numberNode_of_not_writable x hns.1 n depth hx]
      rfl

theorem numberNode_of_not_writable (x : Node) (hx : Pruned noProse x) (n : Int) (depth : Nat)
    (h : ¬Writable n ((tagsFrom depth x).countP (isWanted names))) :
    numberNode names n x = .error .wrongValue := by
  cases x with
  | element name attrs children =>
    have hchildren := hx.resolve_left Bool.false_ne_true
    cases hname : isWanted names ⟨depth, name, attrs⟩ with
    | true =>
      rw [countP_tagsFrom_of_pos hname, writable_add, not_and] at h
      rw [numberNode_of_pos hname]
      by_cases hfirst : Writable n 1
      · rw [numberText_of_lt (writable_one.1 hfirst)]
        dsimp only [bind, Except.bind]
        rw [numberAll_of_not_writable children hchildren (n + 1) (depth + 1) (h hfirst)]
      · rw [numberText_of_not_lt (writable_one.not.1 hfirst)]
        rfl
    | false =>
      rw [countP_tagsFrom_of_neg hname] at h
      rw [numberNode_of_neg hname, numberAll_of_not_writable children hchildren n (depth + 1) h]
      rfl
  | _ => cases hx

end

/-- Numbers that can be written are told apart by their texts. -/
theorem nodup_numbers {k : Nat} (h : Writable n k) :
    ((List.range k).map fun i => some (intText (n + (i + 1 : Nat)))).Nodup := by
  -- the texts are read back as the numbers, so equal texts are of equal numbers
  have hread : ∀ i ∈ List.range k, readInt? (intText (n + (i + 1 : Nat))) = some (n + (i + 1 : Nat)) := fun i hi =>
    readInt?_intText (h (i + 1) (Nat.le_add_left 1 i) (List.mem_range.1 hi))
  refine List.nodup_range.map_on fun i hi j hj heq => ?_
  have hnumber : some (n + (i + 1 : Nat)) = some (n + (j + 1 : Nat)) := by
    rw [← hread i hi, Option.some.inj heq, hread j hj]
  have hsame := Option.some.inj hnumber
  omega

end

/-- A repeat with an action and a row inside, and a row with an action that has an identifier. -/
def smallPiece : List Node :=
  [.element "repeat" (Table.ofList [("count", "2")]) [.element "action" Table.empty [], .element "row" Table.empty []],
   .element "row" (Table.ofList [("id", "x")]) [.element "action" (Table.ofList [("id", "y"), ("total", "2")]) []]]

end Stitchwork.Project
