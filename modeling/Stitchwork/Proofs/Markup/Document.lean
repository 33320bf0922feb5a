/- # Stitchwork.Proofs.Markup.Document — reading a written document.

Before a text is cut into tokens, its line ends are unified.  For a written tree this is the same as unifying
the attributes and texts of the tree, since nothing else in the text of a tree has a carriage return in it.
So reading the text of a tree is rereading the tree with its line ends unified.
-/
import Stitchwork.Proofs.Markup.Reread

namespace Stitchwork.Markup

open Stitchwork.Text

/-! ## Line ends of a tree -/

/-- A text with its line ends unified. -/
def unify (s : String) : String := String.ofList (unifyLineEnds s.toList)

theorem toList_unify (s : String) : (unify s).toList = unifyLineEnds s.toList := String.toList_ofList

/-- An attribute with the line ends of its value unified. -/
def unifyAttr (a : String × String) : String × String := (a.1, unify a.2)

mutual

/-- A node with the line ends of its attributes and texts unified. -/
def unifyNode : Node → Node
  | .element name attrs children => .element name ⟨attrs.entries.map unifyAttr⟩ (unifyNodes children)
  | .text s => .text (unify s)
  | n => n

/-- Nodes with the line ends of their attributes and texts unified. -/
def unifyNodes : List Node → List Node
  | [] => []
  | n :: ns => unifyNode n :: unifyNodes ns

end

/-- An element with the line ends of its attributes and texts unified. -/
def Element.unified (e : Element) : Element :=
  ⟨e.name, ⟨e.attrs.entries.map unifyAttr⟩, unifyNodes e.children⟩

theorem toNode_unified (e : Element) : e.unified.toNode = unifyNode e.toNode := rfl

theorem isText_unifyNode (n : Node) : (unifyNode n).isText = n.isText := by
  cases n <;> rfl

theorem textFirst_unifyNodes (ns : List Node) : textFirst (unifyNodes ns) = textFirst ns := by
  cases ns with
  | nil => rfl
  | cons n ns => exact isText_unifyNode n

/-! ## A unified tree can be written -/

theorem isMarkupChar_unify {s : String} (h : ∀ c ∈ s.toList, isMarkupChar c) :
    ∀ c ∈ (unify s).toList, isMarkupChar c := by
  intro c hc
  rw [toList_unify] at hc
  rcases mem_of_mem_unifyLineEnds hc with hc | rfl
  · exact h c hc
  · rfl

theorem AttrOk.unify {a : String × String} (h : AttrOk a) : AttrOk (unifyAttr a) :=
  ⟨h.name, isMarkupChar_unify h.value⟩

mutual

theorem nodeOk_unifyNode (n : Node) (h : NodeOk n) : NodeOk (unifyNode n) := by
  cases n with
  | element name attrs children =>
    rw [NodeOk] at h
    rw [unifyNode, NodeOk]
    refine ⟨h.1, fun a ha => ?_, nodesOk_unifyNodes children h.2.2⟩
    obtain ⟨b, hb, rfl⟩ := List.mem_map.1 ha
    exact (h.2.1 b hb).unify
  | text s =>
    rw [NodeOk] at h
    rw [unifyNode, NodeOk, toList_unify]
    refine ⟨unifyLineEnds_ne_nil h.1, fun c hc => ?_⟩
    exact isMarkupChar_unify h.2 c (by rwa [toList_unify])
  | cdata s => exact h
  | comment s => exact h
  | instruction target data => exact h

theorem nodesOk_unifyNodes (ns : List Node) (h : NodesOk ns) : NodesOk (unifyNodes ns) := by
  cases ns with
  | nil => exact h
  | cons n ns =>
    rw [NodesOk] at h
    rw [unifyNodes, NodesOk, isText_unifyNode, textFirst_unifyNodes]
    exact ⟨nodeOk_unifyNode n h.1, h.2.1, nodesOk_unifyNodes ns h.2.2⟩

end

theorem Element.Ok.unified {e : Element} (h : e.Ok) : e.unified.Ok := nodeOk_unifyNode e.toNode h

/-! ## The line ends of a written tree -/

theorem unifyLineEnds_append_of_not_mem {s : List Char} (h : '\r' ∉ s) (r : List Char) :
    unifyLineEnds (s ++ r) = s ++ unifyLineEnds r := by
  induction s with
  | nil => rfl
  | cons c s ih =>
    simp only [List.mem_cons, not_or] at h
    rw [List.cons_append, unifyLineEnds_cons (Ne.symm h.1), ih h.2, List.cons_append]

theorem escapeChar_unified {c : Char} (h : c ≠ '\r') : '\r' ∉ escapeChar c := by
  by_cases hplain : isPlain c
  · rw [escapeChar_of_isPlain hplain]
    simpa using Ne.symm h
  · rcases not_isPlain hplain with rfl | rfl | rfl | rfl <;> decide

theorem escape_head {s : List Char} (h : s.head? ≠ some '\n') : (escape s).head? ≠ some '\n' := by
  cases s with
  | nil => exact h
  | cons c s =>
    rw [escape_cons]
    by_cases hplain : isPlain c
    · rw [escapeChar_of_isPlain hplain]
      exact h
    · obtain ⟨name, heq, -, -⟩ := escapeChar_of_not_isPlain hplain
      rw [heq]
      simp

theorem unifyLineEnds_escape (s : List Char) :
    unifyLineEnds (escape s) = escape (unifyLineEnds s) := by
  induction s using lineEnds_induction with
  | nil => rfl
  | pair s ih =>
    have htext : escape ('\r' :: '\n' :: s) = '\r' :: '\n' :: escape s := rfl
    have hline : escape ('\n' :: unifyLineEnds s) = '\n' :: escape (unifyLineEnds s) := rfl
    rw [htext, unifyLineEnds_pair, unifyLineEnds_pair, hline, ih]
  | single s hs ih =>
    have htext : escape ('\r' :: s) = '\r' :: escape s := rfl
    have hline : escape ('\n' :: unifyLineEnds s) = '\n' :: escape (unifyLineEnds s) := rfl
    rw [htext, unifyLineEnds_return (escape_head hs), unifyLineEnds_return hs, hline, ih]
  | cons c s hc ih =>
    rw [escape_cons, unifyLineEnds_append_of_not_mem (escapeChar_unified hc), ih, unifyLineEnds_cons hc,
      escape_cons]

theorem IsQName.unified {s : List Char} (h : IsQName s) : '\r' ∉ s := by
  intro hr
  have hpart := h.parts '\r' hr
  rw [isNamePart_eq_false (by decide)] at hpart
  cases hpart

theorem unifyLineEnds_writeAttr {a : String × String} (ha : AttrOk a) (r : List Char) :
    unifyLineEnds (writeAttr a ++ r) = writeAttr (unifyAttr a) ++ unifyLineEnds r := by
  have hquote : unifyLineEnds (quote :: r) = quote :: unifyLineEnds r :=
    unifyLineEnds_cons (by decide) r
  rw [writeAttr_append, writeAttr_append, unifyLineEnds_cons (by decide),
    unifyLineEnds_append_of_not_mem ha.name.unified, unifyLineEnds_cons (by decide),
    unifyLineEnds_cons (by decide), unifyLineEnds_append _ (by simp [quote]), hquote,
    unifyLineEnds_escape, ← toList_unify]
  rfl

theorem unifyLineEnds_writeHead {name : String} (hname : IsQName name.toList) {attrs : Table String}
    (hattrs : ∀ a ∈ attrs.entries, AttrOk a) (r : List Char) :
    unifyLineEnds (writeHead name attrs ++ r) =
      writeHead name ⟨attrs.entries.map unifyAttr⟩ ++ unifyLineEnds r := by
  have hmany : ∀ as : List (String × String), (∀ a ∈ as, AttrOk a) →
      unifyLineEnds (as.flatMap writeAttr ++ r) = (as.map unifyAttr).flatMap writeAttr ++ unifyLineEnds r := by
    intro as has
    induction as with
    | nil => rfl
    | cons a as ih =>
      rw [List.flatMap_cons, List.append_assoc, unifyLineEnds_writeAttr (has a (by simp)),
        ih fun b hb => has b (by simp [hb]), List.map_cons, List.flatMap_cons, List.append_assoc]
  rw [writeHead, writeHead, List.cons_append, List.append_assoc, unifyLineEnds_cons (by decide),
    unifyLineEnds_append_of_not_mem hname.unified, hmany _ hattrs, List.cons_append, List.append_assoc]

mutual

/-- The line ends of what is written for a node are those of the node. -/
theorem unifyLineEnds_writeNode (n : Node) (h : NodeOk n) (r : List Char)
    (hr : n.isText → r.head? ≠ some '\n') :
    unifyLineEnds (writeNode n ++ r) = writeNode (unifyNode n) ++ unifyLineEnds r := by
  cases n with
  | element name attrs children =>
    rw [NodeOk] at h
    obtain ⟨hname, hattrs, hchildren⟩ := h
    cases children with
    | nil =>
      rw [unifyNode, unifyNodes, writeNode_element_nil, writeNode_element_nil, List.append_assoc,
        unifyLineEnds_writeHead hname hattrs, List.append_assoc,
        unifyLineEnds_append_of_not_mem (by decide)]
    | cons n ns =>
      have hend : '\r' ∉ '<' :: '/' :: (name.toList ++ ['>']) := by
        have hname' := hname.unified
        simpa using hname'
      have hnodes := unifyLineEnds_writeNodes (n :: ns) hchildren
        ('<' :: '/' :: (name.toList ++ ['>']) ++ r) (by simp)
      rw [unifyNode, unifyNodes, writeNode_element_cons, writeNode_element_cons, List.append_assoc,
        unifyLineEnds_writeHead hname hattrs, List.append_assoc, List.cons_append, List.cons_append,
        unifyLineEnds_cons (by decide), List.append_assoc, hnodes,
        unifyLineEnds_append_of_not_mem hend, List.append_assoc]
      rfl
  | text s =>
    -- the text may end in the first half of a line end, and the second half must not follow it
    rw [writeNode_text, unifyNode, writeNode_text, unifyLineEnds_append _ (hr rfl), unifyLineEnds_escape,
      toList_unify]
  | cdata s =>
    rw [NodeOk] at h
    have hwhole : '\r' ∉ writeNode (.cdata s) := by
      have hs := h.unified
      rw [writeNode_cdata]
      simpa using hs
    exact unifyLineEnds_append_of_not_mem hwhole r
  | comment s =>
    rw [NodeOk] at h
    have hwhole : '\r' ∉ writeNode (.comment s) := by
      have hs := h.unified
      rw [writeNode_comment]
      simpa using hs
    exact unifyLineEnds_append_of_not_mem hwhole r
  | instruction target data =>
    rw [NodeOk] at h
    have hwhole : '\r' ∉ writeNode (.instruction target data) := by
      have htarget := (IsQName.plain h.name).unified
      have hdata := h.unified
      rw [writeNode_instruction]
      simp [htarget, hdata]
    exact unifyLineEnds_append_of_not_mem hwhole r

/-- The line ends of what is written for nodes are those of the nodes. -/
theorem unifyLineEnds_writeNodes (ns : List Node) (h : NodesOk ns) (r : List Char)
    (hr : r.head? ≠ some '\n') :
    unifyLineEnds (writeNodes ns ++ r) = writeNodes (unifyNodes ns) ++ unifyLineEnds r := by
  cases ns with
  | nil => rfl
  | cons n ns =>
    rw [NodesOk] at h
    have hfollow : n.isText → (writeNodes ns ++ r).head? ≠ some '\n' := by
      intro htext
      rcases writeNodes_bracket (h.2.1 htext) with hnil | ⟨t, ht⟩
      · rw [hnil]
        exact hr
      · rw [ht]
        simp
    rw [writeNodes_cons, List.append_assoc, unifyLineEnds_writeNode n h.1 _ hfollow,
      unifyLineEnds_writeNodes ns h.2.2 r hr, unifyNodes, writeNodes_cons, List.append_assoc]

end

/-! ## Documents -/

theorem tokens_of_bracket {s : String} {r : List Char} (h : unifyLineEnds s.toList = '<' :: r) :
    tokens s = tokensFrom (r.length + 3) .start ('<' :: r) := by
  rw [tokens, h]
  rfl

theorem writeNode_toNode_bracket (e : Element) : ∃ r, writeNode e.toNode = '<' :: r := by
  obtain ⟨name, attrs, children⟩ := e
  cases children <;> exact ⟨_, rfl⟩

theorem unifyLineEnds_root {e : Element} (h : e.Ok) :
    unifyLineEnds (writeNode e.toNode) = writeNode e.unified.toNode := by
  have hnode := unifyLineEnds_writeNode e.toNode h [] fun _ => by simp
  rwa [List.append_nil, unifyLineEnds_nil, List.append_nil] at hnode

/-- Reading the text of an element is rereading the element. -/
theorem read_write {e : Element} (h : e.Ok) :
    read e.write = e.unified.reread [("xml", xmlNamespace)] := by
  obtain ⟨ts, htokens, hbuild⟩ := rereads_root h.unified
  obtain ⟨r, hr⟩ := writeNode_toNode_bracket e.unified
  have htext : unifyLineEnds e.write.toList = '<' :: r := by
    rw [toList_write, unifyLineEnds_root h, hr]
  rw [read, tokens_of_bracket htext, ← hr, htokens _ _ (.inl rfl) (by rw [hr]; simp), hbuild]

/-- What stands between the name of the declaration and its end. -/
def headingData : List Char := " version=\"1.0\" ".toList

theorem heading_eq : heading = '<' :: '?' :: (['x', 'm', 'l'] ++ (headingData ++ ['?', '>'])) := by
  decide +kernel

theorem outside_instruction (s : List Char) : outside ('<' :: '?' :: s) =
    match takeInstruction s with
    | .ok ((target, data), rest) =>
      if target == ['x', 'm', 'l'] then .declaration data rest else .skip rest
    | .error f => .fault f := rfl

theorem outside_heading (s : List Char) : outside (heading ++ s) = .declaration headingData s := by
  have hname : IsName ['x', 'm', 'l'] := isName_of_lower (by simp)
  obtain ⟨data, hblank⟩ : ∃ data, headingData = ' ' :: data := ⟨_, rfl⟩
  have hends : EndsName (headingData ++ ['?', '>'] ++ s) := by
    intro c t hc
    rw [hblank] at hc
    cases hc
    exact isNamePart_space
  have hdata : takeData (headingData ++ ['?', '>'] ++ s) = .ok (headingData, s) :=
    takeUntil_append (List.cons_ne_nil _ _) (endsAt_of_not_mem (by decide +kernel))
      (List.all_eq_true.1 (by decide +kernel)) _ s
  have hinstruction : takeInstruction (['x', 'm', 'l'] ++ (headingData ++ ['?', '>'] ++ s)) =
      .ok ((['x', 'm', 'l'], headingData), s) := by
    have hreserved : isReservedTarget ['x', 'm', 'l'] = false := by decide
    have hspace : isSpace ' ' = true := rfl
    rw [takeInstruction, takeName_append hname hends]
    rw [hblank] at hdata ⊢
    simp only [List.cons_append] at hdata ⊢
    simp only [hspace, hreserved, hdata, bind, Except.bind]
    rfl
  rw [heading_eq, List.cons_append, List.cons_append, List.append_assoc, outside_instruction, hinstruction]
  rfl

theorem tokensFrom_heading (fuel : Nat) (s : List Char) :
    tokensFrom (fuel + 1) .start (heading ++ s) = tokensFrom fuel .before s := by
  have hdeclaration : isDeclaration headingData = true := by decide +kernel
  simp [tokensFrom, outside_heading, hdeclaration]

/-- Reading a written document is rereading its root. -/
theorem read_writeDocument {root : Element} (h : root.Ok) :
    read (writeDocument root) = root.unified.reread [("xml", xmlNamespace)] := by
  obtain ⟨ts, htokens, hbuild⟩ := rereads_root h.unified
  have htext : unifyLineEnds (writeDocument root).toList = heading ++ writeNode root.unified.toNode := by
    rw [toList_writeDocument, unifyLineEnds_append_of_not_mem (by decide +kernel), unifyLineEnds_root h]
  obtain ⟨r, hr⟩ : ∃ r, heading ++ writeNode root.unified.toNode = '<' :: r := by
    rw [heading_eq]
    exact ⟨_, rfl⟩
  have hlength := congrArg List.length hr
  rw [List.length_append, List.length_cons] at hlength
  rw [read, tokens_of_bracket (htext.trans hr), ← hr, tokensFrom_heading,
    htokens _ _ (.inr rfl) (by omega), hbuild]

end Stitchwork.Markup
