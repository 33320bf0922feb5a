/- # Stitchwork.Proofs.Markup.Writer — the shape of written trees.
-/
import Stitchwork.Markup.Writer

namespace Stitchwork.Markup

/-! ## Nodes -/

@[simp] theorem writeNodes_nil : writeNodes [] = [] := rfl

theorem writeNodes_cons (n : Node) (ns : List Node) :
    writeNodes (n :: ns) = writeNode n ++ writeNodes ns := rfl

theorem writeNodes_append (ms ns : List Node) :
    writeNodes (ms ++ ns) = writeNodes ms ++ writeNodes ns := by
  induction ms with
  | nil => rw [writeNodes_nil, List.nil_append, List.nil_append]
  | cons m ms ih => rw [List.cons_append, writeNodes_cons, writeNodes_cons, ih, List.append_assoc]

theorem writeNode_element_nil (name : String) (attrs : Table String) :
    writeNode (.element name attrs []) = writeHead name attrs ++ ['/', '>'] := rfl

/-- An element with children: its head, its children and its end. -/
theorem writeNode_element_cons (name : String) (attrs : Table String) (n : Node) (ns : List Node) :
    writeNode (.element name attrs (n :: ns)) =
      writeHead name attrs ++
        '>' :: (writeNodes (n :: ns) ++ '<' :: '/' :: (name.toList ++ ['>'])) := by
  have h : writeNode (.element name attrs (n :: ns)) = writeHead name attrs ++
      '>' :: (writeNodes (n :: ns) ++ ['<', '/'] ++ name.toList ++ ['>']) := rfl
  simpa using h

theorem writeNode_text (s : String) : writeNode (.text s) = escape s.toList := rfl

theorem writeNode_cdata (s : String) : writeNode (.cdata s) =
    '<' :: '!' :: '[' :: ("CDATA[".toList ++ (s.toList ++ [']', ']', '>'])) := by
  have h : writeNode (.cdata s) = '<' :: '!' :: '[' :: ("CDATA[".toList ++ s.toList) ++ [']', ']', '>'] :=
    rfl
  rw [h]
  simp

theorem writeNode_comment (s : String) : writeNode (.comment s) =
    '<' :: '!' :: '-' :: '-' :: (s.toList ++ ['-', '-', '>']) := rfl

theorem writeNode_instruction (target data : String) : writeNode (.instruction target data) =
    '<' :: '?' :: (target.toList ++ ' ' :: (data.toList ++ ['?', '>'])) := by
  have h : writeNode (.instruction target data) =
      '<' :: '?' :: target.toList ++ ' ' :: data.toList ++ ['?', '>'] := rfl
  rw [h]
  simp

/-! ## Escaped texts -/

theorem escapeChar_ne_nil (c : Char) : escapeChar c ≠ [] := by
  rw [escapeChar]
  split
  · exact List.cons_ne_nil _ _
  split
  · exact List.cons_ne_nil _ _
  split
  · exact List.cons_ne_nil _ _
  split
  · exact List.cons_ne_nil _ _
  · exact List.cons_ne_nil _ _

@[simp] theorem escape_nil : escape [] = [] := rfl

@[simp] theorem escape_cons (c : Char) (cs : List Char) :
    escape (c :: cs) = escapeChar c ++ escape cs := List.flatMap_cons

@[simp] theorem escape_append (cs ds : List Char) : escape (cs ++ ds) = escape cs ++ escape ds :=
  List.flatMap_append

theorem escape_eq_nil {cs : List Char} (h : escape cs = []) : cs = [] := by
  cases cs with
  | nil => rfl
  | cons c cs =>
    rw [escape_cons] at h
    exact absurd (List.append_eq_nil_iff.1 h).1 (escapeChar_ne_nil c)

theorem length_le_length_escape (cs : List Char) : cs.length ≤ (escape cs).length := by
  induction cs with
  | nil => exact Nat.le_refl _
  | cons c cs ih =>
    have hc := List.length_pos_iff.2 (escapeChar_ne_nil c)
    rw [escape_cons, List.length_append, List.length_cons]
    omega

/-! ## Documents -/

theorem toList_write (e : Element) : e.write.toList = writeNode e.toNode := String.toList_ofList

/-- What stands in front of the root. -/
def heading : List Char := "<?xml version=\"1.0\" ?>".toList

theorem toList_writeDocument (root : Element) :
    (writeDocument root).toList = heading ++ writeNode root.toNode := by
  have h : (writeDocument root).toList = heading ++ root.write.toList := String.toList_append
  rw [h, toList_write]

/-- Two documents with one root and children that differ in the middle only have the same text only if what
differs has the same text. -/
theorem writeNodes_eq_of_writeDocument_eq {root : Element} {ms ns xs ys : List Node}
    (hroot : root.children = []) (hlen : xs.length = ys.length)
    (h : writeDocument (root.append (ms ++ xs ++ ns)) = writeDocument (root.append (ms ++ ys ++ ns))) :
    writeNodes xs = writeNodes ys := by
  have hnode : writeNode (.element root.name root.attrs (ms ++ xs ++ ns)) =
      writeNode (.element root.name root.attrs (ms ++ ys ++ ns)) := by
    have htext := congrArg String.toList h
    rw [toList_writeDocument, toList_writeDocument] at htext
    have hwrite := List.append_cancel_left htext
    rw [Element.append, Element.append, hroot] at hwrite
    exact hwrite
  have hwhole : writeNodes (ms ++ xs ++ ns) = writeNodes (ms ++ ys ++ ns) := by
    cases hx : ms ++ xs ++ ns with
    | nil =>
      simp only [List.append_eq_nil_iff] at hx
      have hy : ys = [] := List.length_eq_zero_iff.1 (by rw [← hlen, hx.1.2, List.length_nil])
      rw [hx.1.1, hx.2, hy]
      rfl
    | cons a as =>
      cases hy : ms ++ ys ++ ns with
      | nil =>
        simp only [List.append_eq_nil_iff] at hy
        have hx' : xs = [] := List.length_eq_zero_iff.1 (by rw [hlen, hy.1.2, List.length_nil])
        rw [hy.1.1, hy.2, hx'] at hx
        cases hx
      | cons b bs =>
        rw [hx, hy, writeNode_element_cons, writeNode_element_cons] at hnode
        have hrest := List.append_cancel_left hnode
        injection hrest with _ hrest
        exact List.append_cancel_right hrest
  rw [writeNodes_append, writeNodes_append, writeNodes_append, writeNodes_append] at hwhole
  exact List.append_cancel_left (List.append_cancel_right hwhole)

end Stitchwork.Markup
