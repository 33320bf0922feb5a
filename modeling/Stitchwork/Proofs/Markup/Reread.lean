/- # Stitchwork.Proofs.Markup.Reread — reading what has been written.

Reading a written tree gives the tree back, but for what writing loses: white space in attributes becomes
spaces, and declarations move in front of the other attributes.  `rereadNode` says this on trees, without
any text; it fails where a prefix is not bound.  The main result is that reading the text of a tree is the
same as rereading the tree.
-/
import Stitchwork.Proofs.Markup.Rescan

namespace Stitchwork.Markup

variable {scanned : List (String × List Chunk)} {s : List Char} {us : List Token} {ns : List Node} {token : Token}
  {name : String} {attrs : Table String}

/-! ## Trees that can be written -/

/-- Is the node a text? -/
def Node.isText : Node → Bool
  | .text _ => true
  | _ => false

/-- Does a text come first? -/
def textFirst : List Node → Bool
  | [] => false
  | n :: _ => n.isText

mutual

/-- The node can be written so that it is read again: its names are names, its texts hold characters that a
document can hold, and no text stands beside another. -/
def NodeOk : Node → Prop
  | .element name attrs children =>
    IsQName name.toList ∧ (∀ a ∈ attrs.entries, AttrOk a) ∧ NodesOk children
  | .text s => s.toList ≠ [] ∧ ∀ c ∈ s.toList, isMarkupChar c
  | .cdata s => CdataOk s.toList
  | .comment s => CommentOk s.toList
  | .instruction target data => InstructionOk target.toList data.toList

/-- The nodes can be written one behind the other. -/
def NodesOk : List Node → Prop
  | [] => True
  | n :: ns => NodeOk n ∧ (n.isText → textFirst ns = false) ∧ NodesOk ns

end

/-- The element can be written so that it is read again. -/
def Element.Ok (e : Element) : Prop := NodeOk e.toNode

/-! ## Rereading -/

/-- An attribute whose value is written as it is. -/
def literalAttr (a : String × String) : String × List Chunk := (a.1, [.chars a.2.toList])

mutual

/-- The node that is read when a node has been written, with prefixes bound outside it. -/
def rereadNode (bound : Bindings) : Node → Except Fault Node
  | .element name attrs children => do
    let (table, inner) ← readTag bound name (attrs.entries.map literalAttr)
    let children ← rereadNodes inner children
    .ok (.element name table children)
  | .text s => .ok (.text s)
  | .cdata s => .ok (.cdata s)
  | .comment s => .ok (.comment s)
  | .instruction target data => .ok (.instruction target data)

/-- The nodes that are read when nodes have been written. -/
def rereadNodes (bound : Bindings) : List Node → Except Fault (List Node)
  | [] => .ok []
  | n :: ns => do
    let m ← rereadNode bound n
    let ms ← rereadNodes bound ns
    .ok (m :: ms)

end

theorem rereadNodes_nil (bound : Bindings) : rereadNodes bound [] = .ok [] := rfl

theorem rereadNodes_cons (bound : Bindings) (n : Node) (ns : List Node) :
    rereadNodes bound (n :: ns) = (do
      let m ← rereadNode bound n
      let ms ← rereadNodes bound ns
      .ok (m :: ms)) := rfl

/-- The element that is read when an element has been written, with prefixes bound outside it. -/
def Element.reread (bound : Bindings) (e : Element) : Except Fault Element := do
  let (table, inner) ← readTag bound e.name (e.attrs.entries.map literalAttr)
  let children ← rereadNodes inner e.children
  .ok ⟨e.name, table, children⟩

theorem rereadNode_toNode (bound : Bindings) (e : Element) :
    rereadNode bound e.toNode = (e.reread bound).map Element.toNode := by
  rw [Element.toNode, rereadNode, Element.reread]
  cases readTag bound e.name (e.attrs.entries.map literalAttr) with
  | error f => rfl
  | ok r =>
    dsimp only [bind, Except.bind]
    cases rereadNodes r.2 e.children with
    | error f => rfl
    | ok ns => rfl

/-! ## Attributes -/

theorem resolveValue_literal (cs : List Char) : resolveValue [.chars cs] = .ok (cs.map flatten) := by
  simp [resolveValue, Chunk.resolve, bind, Except.bind]

/-- Attributes are read by their names and by what their values stand for. -/
theorem readAttrs_scanned {attrs : List (String × String)} (h : List.Forall₂ ScannedAs attrs scanned) (bound : Bindings)
    (seen : List String) : readAttrs bound seen scanned = readAttrs bound seen (attrs.map literalAttr) := by
  induction h generalizing bound seen with
  | nil => rfl
  | @cons a s attrs scanned has _ ih =>
    obtain ⟨name, value⟩ := s
    obtain ⟨rfl, hvalue⟩ := has
    rw [List.map_cons, literalAttr, readAttrs, readAttrs, resolveValue_literal, hvalue]
    simp only [ih]

theorem readTag_scanned {attrs : List (String × String)} (h : List.Forall₂ ScannedAs attrs scanned) (bound : Bindings)
    (name : String) : readTag bound name scanned = readTag bound name (attrs.map literalAttr) := by
  rw [readTag, readTag, readAttrs_scanned h]

/-! ## Tokens -/

theorem tokensFrom_within {rest : List Char} (h : inside s = .ok (token, rest)) (fuel depth : Nat) :
    tokensFrom (fuel + 1) (.within depth) s = token :: tokensFrom fuel (Place.after depth token) rest := by
  rw [tokensFrom, h]

/-- What may come behind a node: only a bracket behind a text, anything behind another node. -/
def MayFollow (isText : Bool) (r : List Char) : Prop := isText → ∃ r', r = '<' :: r'

/-- The text gives the tokens, wherever it stands inside the root. -/
structure Scans (isText : Bool) (s : List Char) (ts : List Token) : Prop where
  length_le : ts.length ≤ s.length
  tokens : ∀ fuel depth r, MayFollow isText r →
    tokensFrom (ts.length + fuel) (.within depth) (s ++ r) = ts ++ tokensFrom fuel (.within depth) r

theorem scans_nil (isText : Bool) : Scans isText [] [] :=
  ⟨Nat.le_refl _, fun fuel depth r _ => by simp⟩

theorem Scans.append {isText : Bool} {t : List Char} {ts : List Token} (hs : Scans isText s ts) (ht : Scans true t us)
    (hbracket : isText → t = [] ∨ ∃ r, t = '<' :: r) : Scans true (s ++ t) (ts ++ us) := by
  refine ⟨?_, fun fuel depth r hr => ?_⟩
  · have h1 := hs.length_le
    have h2 := ht.length_le
    simp only [List.length_append]
    omega
  · have hfollow : MayFollow isText (t ++ r) := by
      intro htext
      rcases hbracket htext with rfl | ⟨r', rfl⟩
      · exact hr rfl
      · exact ⟨_, List.cons_append⟩
    have hfirst := hs.tokens (us.length + fuel) depth (t ++ r) hfollow
    rw [List.length_append, Nat.add_assoc, List.append_assoc, hfirst, ht.tokens fuel depth r hr,
      List.append_assoc]

/-- A token that stays at its depth, in front of a text that is scanned. -/
theorem scans_cons {isText : Bool} {t : List Char} (hafter : ∀ depth, Place.after depth token = .within depth)
    (h : ∀ r, MayFollow isText r → inside (s ++ r) = .ok (token, t ++ r)) (hlen : t.length < s.length)
    (ht : Scans isText t us) : Scans isText s (token :: us) := by
  refine ⟨?_, fun fuel depth r hr => ?_⟩
  · have hle := ht.length_le
    rw [List.length_cons]
    omega
  · rw [List.length_cons, Nat.add_right_comm, tokensFrom_within (h r hr), hafter, ht.tokens _ _ r hr]
    rfl

/-- A text that is one token. -/
theorem scans_token (hs : s ≠ []) (hafter : ∀ depth, Place.after depth token = .within depth)
    (h : ∀ r, inside (s ++ r) = .ok (token, r)) : Scans false s [token] :=
  scans_cons (t := []) hafter (fun r _ => h r) (List.length_pos_iff.2 hs) (scans_nil false)

/-! ## Texts -/

/-- The pieces that chunks of text stand for. -/
def Resolve (chunks : List Chunk) (pieces : List (List Char)) : Prop :=
  List.Forall₂ (fun c p => c.resolve id = .ok p) chunks pieces

/-- An escaped text does not close character data. -/
theorem escape_append_ne (s r t : List Char) : escape s ++ '<' :: r ≠ '>' :: t := by
  cases s with
  | nil =>
    intro h
    cases h
  | cons c s =>
    rw [escape_cons]
    by_cases hc : isPlain c
    · rw [escapeChar_of_isPlain hc]
      intro h
      cases h
      cases hc
    · obtain ⟨name, heq, -, -⟩ := escapeChar_of_not_isPlain hc
      rw [heq]
      intro h
      cases h

theorem escape_append_ne_closing (s r t : List Char) : escape s ++ '<' :: r ≠ ']' :: '>' :: t := by
  cases s with
  | nil =>
    intro h
    cases h
  | cons c s =>
    rw [escape_cons]
    by_cases hc : isPlain c
    · rw [escapeChar_of_isPlain hc]
      intro h
      injection h with _ h
      exact escape_append_ne s r t h
    · obtain ⟨name, heq, -, -⟩ := escapeChar_of_not_isPlain hc
      rw [heq]
      intro h
      cases h

/-- A written text is scanned as chunks that stand for it. -/
theorem scans_text (hs : ∀ c ∈ s, isMarkupChar c) :
    ∃ chunks pieces, Scans true (escape s) (chunks.map .chunk) ∧ Resolve chunks pieces ∧
      pieces.flatten = s := by
  induction hn : s.length using Nat.strongRecOn generalizing s with
  | ind n ih =>
    cases s with
    | nil => exact ⟨[], [], scans_nil true, .nil, rfl⟩
    | cons c s =>
      have hs' : ∀ d ∈ s, isMarkupChar d := fun d hd => hs d (by simp [hd])
      by_cases hplain : isPlain c
      · -- a run up to a reference, a closing bracket or the end
        have htext : escape (c :: s) = c :: escape s := by
          rw [escape_cons, escapeChar_of_isPlain hplain]
          rfl
        obtain ⟨w, u, rfl, hrun⟩ := escape_run (p := isTextChar) rfl s
        obtain ⟨chunks, pieces, hscans, hresolve, hflat⟩ := ih u.length (by simp at hn; omega)
          (fun d hd => hs' d (by simp [hd])) rfl
        refine ⟨.chars (c :: w) :: chunks, (c :: w) :: pieces, ?_, .cons ?_ hresolve, ?_⟩
        · refine scans_cons (fun _ => rfl) (fun r hr => ?_) ?_ hscans
          · obtain ⟨r, rfl⟩ := hr rfl
            simp only [isPlain, Bool.and_eq_true, bne_iff_ne, ne_eq] at hplain
            rw [htext, List.cons_append, inside_chars (hs c (by simp)) hplain.1.1.2 hplain.1.1.1
              (escape_append_ne_closing (w ++ u) r)]
            rw [(hrun '<' r rfl).1, (hrun '<' r rfl).2]
          · rw [htext, escape_append, List.length_cons, List.length_append]
            omega
        · simp [Chunk.resolve]
        · simp [hflat]
      · obtain ⟨name, heq, hname, hlookup⟩ := escapeChar_of_not_isPlain hplain
        obtain ⟨chunks, pieces, hscans, hresolve, hflat⟩ := ih s.length (by simp at hn; omega) hs' rfl
        refine ⟨.entity (String.ofList name) :: chunks, [c] :: pieces, ?_, .cons ?_ hresolve, ?_⟩
        · refine scans_cons (fun _ => rfl) (fun r _ => ?_) ?_ hscans
          · rw [escape_cons, heq]
            have hinside := inside_reference hname (escape s ++ r)
            simpa using hinside
          · rw [escape_cons, heq]
            simp
            omega
        · simp [Chunk.resolve, hlookup]
        · simp [hflat]

/-! ## Building -/

theorem build_chunk {c : Chunk} {cs : List Char} (h : c.resolve id = .ok cs) (f : Frame)
    (fs : List Frame) (bound : Bindings) (root : Option Element) (rest : List Token) :
    build (f :: fs) bound root (.chunk c :: rest) = build (f.addText cs :: fs) bound root rest := by
  rw [build, h]
  rfl

/-- Chunks behind a text make it longer. -/
theorem build_chunks {chunks : List Chunk} {pieces : List (List Char)} (h : Resolve chunks pieces) {f : Frame}
    {t : String} (hf : f.children = .text t :: ns) (fs : List Frame) (bound : Bindings) (root : Option Element)
    (rest : List Token) :
    build (f :: fs) bound root (chunks.map .chunk ++ rest) =
      build ({ f with children := .text (t ++ String.ofList pieces.flatten) :: ns } :: fs) bound root
        rest := by
  induction h generalizing f t with
  | nil =>
    have hnil : t ++ String.ofList [].flatten = t := by simp
    rw [hnil, ← hf]
    rfl
  | @cons c p chunks pieces hc _ ih =>
    rw [List.map_cons, List.cons_append, build_chunk hc]
    have hadd : (f.addText p).children = .text (t ++ String.ofList p) :: ns := by
      rw [Frame.addText, hf]
    rw [ih hadd, Frame.addText, hf, List.flatten_cons, String.append_assoc, ← String.ofList_append]

/-- The tokens build the nodes that rereading gives.  A text must not come behind another. -/
def Builds (ts : List Token) (ns : List Node) : Prop :=
  ∀ (f : Frame) (fs : List Frame) (bound : Bindings) (root : Option Element) (rest : List Token),
    (textFirst ns → textFirst f.children = false) →
    build (f :: fs) bound root (ts ++ rest) = rereadNodes bound ns >>= fun ms =>
      build ({ f with children := ms.reverse ++ f.children } :: fs) bound root rest

theorem builds_nil : Builds [] [] := fun _ _ _ _ _ _ => rfl

theorem isText_of_rereadNode {bound : Bindings} {n m : Node} (h : rereadNode bound n = .ok m) :
    m.isText = n.isText := by
  cases n with
  | element name attrs children =>
    rw [rereadNode] at h
    obtain ⟨r, -, h⟩ := bind_eq_ok.1 h
    obtain ⟨ms, -, h⟩ := bind_eq_ok.1 h
    cases h
    rfl
  | _ =>
    cases h
    rfl

theorem Builds.cons {ts : List Token} {n : Node} (hn : Builds ts [n]) (hns : Builds us ns)
    (htext : n.isText → textFirst ns = false) : Builds (ts ++ us) (n :: ns) := by
  intro f fs bound root rest hfirst
  rw [List.append_assoc, hn f fs bound root (us ++ rest) hfirst, rereadNodes_cons bound n ns,
    rereadNodes_cons bound n []]
  cases hm : rereadNode bound n with
  | error e => rfl
  | ok m =>
    have hclean : textFirst ns → textFirst (m :: f.children) = false := by
      intro hns'
      rw [textFirst, isText_of_rereadNode hm]
      cases hisText : n.isText with
      | false => rfl
      | true =>
        rw [htext hisText] at hns'
        cases hns'
    have hrest := hns { f with children := m :: f.children } fs bound root rest hclean
    change build ({ f with children := m :: f.children } :: fs) bound root (us ++ rest) = _
    rw [hrest]
    cases rereadNodes bound ns with
    | error e => rfl
    | ok ms =>
      dsimp only [bind, Except.bind]
      rw [List.reverse_cons, List.append_assoc, List.singleton_append]

/-- A token that becomes a node as it is. -/
theorem builds_token {n : Node} (hn : ∀ bound, rereadNode bound n = .ok n)
    (h : ∀ (f : Frame) (fs : List Frame) (bound : Bindings) (root : Option Element) (rest : List Token),
      build (f :: fs) bound root (token :: rest) = build (f.add n :: fs) bound root rest) :
    Builds [token] [n] := by
  intro f fs bound root rest _
  rw [List.singleton_append, h, rereadNodes_cons, hn]
  rfl

theorem builds_text {chunks : List Chunk} {pieces : List (List Char)} (h : Resolve chunks pieces)
    (hne : pieces.flatten ≠ []) :
    Builds (chunks.map .chunk) [.text (String.ofList pieces.flatten)] := by
  intro f fs bound root rest hfirst
  cases h with
  | nil => exact absurd rfl hne
  | @cons c p chunks pieces hc hrest =>
    have hadd : f.addText p = { f with children := .text (String.ofList p) :: f.children } := by
      have hclean := hfirst rfl
      rw [Frame.addText]
      split
      · next hchildren =>
        rw [hchildren] at hclean
        cases hclean
      · rfl
    rw [List.map_cons, List.cons_append, build_chunk hc, hadd,
      build_chunks (f := { f with children := .text (String.ofList p) :: f.children }) hrest rfl]
    rw [List.flatten_cons, String.ofList_append]
    rfl

/-! ## Nodes -/

/-- What is written for nodes begins with a bracket, unless a text comes first. -/
theorem writeNodes_bracket (h : textFirst ns = false) : writeNodes ns = [] ∨ ∃ r, writeNodes ns = '<' :: r := by
  cases ns with
  | nil => exact .inl rfl
  | cons n ns =>
    right
    cases n with
    | text s => cases h
    | element name attrs children => cases children <;> exact ⟨_, rfl⟩
    | cdata s => exact ⟨_, rfl⟩
    | comment s => exact ⟨_, rfl⟩
    | instruction target data => exact ⟨_, rfl⟩

theorem inside_writeHead (hname : IsQName name.toList) (attrs : Table String) (r : List Char) :
    inside (writeHead name attrs ++ r) =
      takeStart (name.toList ++ (attrs.entries.flatMap writeAttr ++ r)) := by
  obtain ⟨c, s, hcs, hc⟩ := hname.start
  rw [writeHead, hcs]
  simpa using inside_start hc (s ++ (attrs.entries.flatMap writeAttr ++ r))

/-- An element without children is written as one tag. -/
theorem rereads_childless (hname : IsQName name.toList) (hattrs : ∀ a ∈ attrs.entries, AttrOk a) :
    ∃ ts, Scans false (writeNode (.element name attrs [])) ts ∧ Builds ts [.element name attrs []] := by
  obtain ⟨scanned, hscanned, htake⟩ := takeStart_write hname hattrs true
  refine ⟨[.start name scanned true], scans_token ?_ (fun _ => rfl) (fun r => ?_), ?_⟩
  · rw [writeNode_element_nil, writeHead]
    exact List.cons_ne_nil _ _
  · rw [writeNode_element_nil, List.append_assoc, inside_writeHead hname]
    exact htake r
  · intro f fs bound root rest _
    rw [List.singleton_append, build, readTag_scanned hscanned, rereadNodes_cons, rereadNode]
    cases readTag bound name (attrs.entries.map literalAttr) with
    | error e => rfl
    | ok r => rfl

/-- An element with children is written as two tags around what its children are written as. -/
theorem rereads_parent {n : Node} (hname : IsQName name.toList) (hattrs : ∀ a ∈ attrs.entries, AttrOk a)
    (hscans : Scans true (writeNodes (n :: ns)) us) (hbuilds : Builds us (n :: ns)) :
    ∃ ts, Scans false (writeNode (.element name attrs (n :: ns))) ts ∧
      Builds ts [.element name attrs (n :: ns)] := by
  obtain ⟨scanned, hscanned, htake⟩ := takeStart_write hname hattrs false
  refine ⟨.start name scanned false :: (us ++ [.stop name]), ⟨?_, fun fuel depth r _ => ?_⟩, ?_⟩
  · have hle := hscans.length_le
    rw [writeNode_element_cons, writeHead]
    simp only [List.length_append, List.length_cons, List.length_nil]
    omega
  · -- the start tag, the children one level deeper, the end tag
    have hstart : inside (writeNode (.element name attrs (n :: ns)) ++ r) = .ok (.start name scanned false,
        writeNodes (n :: ns) ++ ('<' :: '/' :: (name.toList ++ '>' :: r))) := by
      have htake' := htake (writeNodes (n :: ns) ++ ('<' :: '/' :: (name.toList ++ '>' :: r)))
      rw [writeNode_element_cons, List.append_assoc, inside_writeHead hname, ← htake', closing]
      simp
    have hlength : (Token.start name scanned false :: (us ++ [.stop name])).length + fuel =
        (us.length + (fuel + 1)) + 1 := by
      simp only [List.length_cons, List.length_append, List.length_nil]
      omega
    have hstop : inside ('<' :: '/' :: (name.toList ++ '>' :: r)) = .ok (.stop name, r) := by
      rw [inside_stop, takeStop_write hname]
    rw [hlength, tokensFrom_within hstart]
    change _ :: tokensFrom (us.length + (fuel + 1)) (.within (depth + 1)) _ = _
    rw [hscans.tokens _ _ _ fun _ => ⟨_, rfl⟩, tokensFrom_within hstop]
    change _ :: (us ++ .stop name :: tokensFrom fuel (.within depth) r) = _
    simp
  · intro f fs bound root rest _
    rw [List.cons_append, build, readTag_scanned hscanned, rereadNodes_cons, rereadNode]
    cases readTag bound name (attrs.entries.map literalAttr) with
    | error e => rfl
    | ok r =>
      obtain ⟨table, inner⟩ := r
      change build (⟨name, table, [], bound⟩ :: f :: fs) inner root (us ++ [.stop name] ++ rest) = _
      rw [List.append_assoc, hbuilds _ _ _ _ _ fun _ => rfl]
      change _ = ((rereadNodes inner (n :: ns) >>= _) >>= _) >>= _
      cases rereadNodes inner (n :: ns) with
      | error e => rfl
      | ok ms =>
        change build (⟨name, table, ms.reverse ++ [], bound⟩ :: f :: fs) inner root (.stop name :: rest) = _
        rw [build, rereadNodes_nil]
        simp [Frame.close, Frame.add, Element.toNode, bind, Except.bind]

mutual

/-- The text of a node is scanned as tokens that build what rereading gives. -/
theorem rereads_node (n : Node) (h : NodeOk n) :
    ∃ ts, Scans n.isText (writeNode n) ts ∧ Builds ts [n] := by
  cases n with
  | element name attrs children =>
    rw [NodeOk] at h
    obtain ⟨hname, hattrs, hchildren⟩ := h
    cases children with
    | nil => exact rereads_childless hname hattrs
    | cons n ns =>
      obtain ⟨us, hscans, hbuilds⟩ := rereads_nodes (n :: ns) hchildren
      exact rereads_parent hname hattrs hscans hbuilds
  | text s =>
    rw [NodeOk] at h
    obtain ⟨chunks, pieces, hscans, hresolve, hflat⟩ := scans_text h.2
    refine ⟨chunks.map .chunk, hscans, ?_⟩
    have hbuilds := builds_text hresolve (by rw [hflat]; exact h.1)
    rw [hflat, String.ofList_toList] at hbuilds
    exact hbuilds
  | cdata s =>
    rw [NodeOk] at h
    refine ⟨[.cdata s.toList], scans_token (by simp [writeNode_cdata]) (fun _ => rfl) fun r => ?_, ?_⟩
    · have hinside := inside_cdata h r
      rw [writeNode_cdata]
      simpa using hinside
    · refine builds_token (fun _ => rfl) fun f fs bound root rest => ?_
      rw [build, List.isEmpty_eq_false_iff.2 h.nonempty, String.ofList_toList]
      rfl
  | comment s =>
    rw [NodeOk] at h
    refine ⟨[.comment s.toList], scans_token (by simp [writeNode_comment]) (fun _ => rfl) fun r => ?_, ?_⟩
    · have hinside := inside_comment h r
      rw [writeNode_comment]
      simpa using hinside
    · refine builds_token (fun _ => rfl) fun f fs bound root rest => ?_
      rw [build, String.ofList_toList]
  | instruction target data =>
    rw [NodeOk] at h
    refine ⟨[.instruction target data.toList], scans_token (by simp [writeNode_instruction])
      (fun _ => rfl) fun r => ?_, ?_⟩
    · have hinside := inside_instruction h r
      rw [String.ofList_toList] at hinside
      rw [writeNode_instruction]
      simpa using hinside
    · refine builds_token (fun _ => rfl) fun f fs bound root rest => ?_
      rw [build, String.ofList_toList]

/-- The text of nodes is scanned as tokens that build what rereading gives. -/
theorem rereads_nodes (ns : List Node) (h : NodesOk ns) :
    ∃ ts, Scans true (writeNodes ns) ts ∧ Builds ts ns := by
  cases ns with
  | nil => exact ⟨[], scans_nil true, builds_nil⟩
  | cons n ns =>
    rw [NodesOk] at h
    obtain ⟨hn, htext, hns⟩ := h
    obtain ⟨ts, hscans, hbuilds⟩ := rereads_node n hn
    obtain ⟨us, hscans', hbuilds'⟩ := rereads_nodes ns hns
    refine ⟨ts ++ us, ?_, hbuilds.cons hbuilds' htext⟩
    rw [writeNodes_cons]
    exact hscans.append hscans' fun h => writeNodes_bracket (htext h)

end

/-! ## Documents -/

theorem outside_start {c : Char} (hc : isNameStart c) (s : List Char) :
    outside ('<' :: c :: s) = .start (c :: s) := by
  have hbang : c ≠ '!' := ne_of_isNameStart hc (by decide)
  have hquestion : c ≠ '?' := ne_of_isNameStart hc (by decide)
  have hbegins : beginsTag c = true := by simp [beginsTag, hc]
  unfold outside
  split
  · next h => cases h
  · next h => cases h; exact absurd rfl hbang
  · next h => cases h; exact absurd rfl hbang
  · next h => cases h; exact absurd rfl hquestion
  · next h => cases h
  · next h => cases h; rw [if_pos hbegins]
  · next hlast h => cases h; exact (hlast c s rfl rfl).elim

/-- In front of the root, its start tag is found. -/
theorem tokensFrom_writeHead {place : Place} (hplace : place = .start ∨ place = .before) (hname : IsQName name.toList)
    {r rest : List Char} {closed : Bool}
    (htake : takeStart (name.toList ++ (attrs.entries.flatMap writeAttr ++ r)) = .ok (.start name scanned closed, rest))
    (fuel : Nat) :
    tokensFrom (fuel + 1) place (writeHead name attrs ++ r) =
      .start name scanned closed :: tokensFrom fuel (if closed then .behind else .within 0) rest := by
  obtain ⟨c, s, hcs, hc⟩ := hname.start
  have hhead : writeHead name attrs ++ r = '<' :: c :: (s ++ (attrs.entries.flatMap writeAttr ++ r)) := by
    rw [writeHead, hcs]
    simp
  have hout := outside_start hc (s ++ (attrs.entries.flatMap writeAttr ++ r))
  rw [hcs, List.cons_append] at htake
  rw [hhead]
  rcases hplace with rfl | rfl <;> cases closed <;> simp [tokensFrom, hout, htake]

/-- The tokens of an element that is a whole document, and what is built from them. -/
theorem rereads_root {e : Element} (he : e.Ok) :
    ∃ ts, (∀ place fuel, (place = .start ∨ place = .before) → (writeNode e.toNode).length < fuel →
        tokensFrom fuel place (writeNode e.toNode) = ts) ∧
      ∀ bound, build [] bound none ts = e.reread bound := by
  obtain ⟨name, attrs, children⟩ := e
  change IsQName name.toList ∧ (∀ a ∈ attrs.entries, AttrOk a) ∧ NodesOk children at he
  change ∃ ts, (∀ place fuel, (place = .start ∨ place = .before) →
    (writeNode (.element name attrs children)).length < fuel →
    tokensFrom fuel place (writeNode (.element name attrs children)) = ts) ∧ _
  obtain ⟨hname, hattrs, hchildren⟩ := he
  have hhead : (writeHead name attrs).length ≠ 0 := by
    rw [writeHead, List.length_cons]
    omega
  cases children with
  | nil =>
    obtain ⟨scanned, hscanned, htake⟩ := takeStart_write hname hattrs true
    refine ⟨[.start name scanned true], fun place fuel hplace hfuel => ?_, fun bound => ?_⟩
    · rw [writeNode_element_nil, List.length_append] at hfuel
      obtain ⟨fuel, rfl⟩ : ∃ k, fuel = k + 1 + 1 := ⟨fuel - 2, by omega⟩
      have htake' := htake []
      rw [List.append_nil] at htake'
      rw [writeNode_element_nil]
      exact tokensFrom_writeHead hplace hname htake' (fuel + 1)
    · rw [build, readTag_scanned hscanned, Element.reread]
      cases readTag bound name (attrs.entries.map literalAttr) with
      | error f => rfl
      | ok r => rfl
  | cons n ns =>
    obtain ⟨us, hscans, hbuilds⟩ := rereads_nodes (n :: ns) hchildren
    obtain ⟨scanned, hscanned, htake⟩ := takeStart_write hname hattrs false
    refine ⟨.start name scanned false :: (us ++ [.stop name]), fun place fuel hplace hfuel => ?_,
      fun bound => ?_⟩
    · -- every token takes a character, so the bound is enough for those of the content and for the two tags
      obtain ⟨fuel, rfl⟩ : ∃ k, fuel = us.length + (k + 1 + 1) + 1 := by
        have hle := hscans.length_le
        rw [writeNode_element_cons] at hfuel
        simp only [List.length_append, List.length_cons, List.length_nil] at hfuel
        exact ⟨fuel - us.length - 3, by omega⟩
      have htake' := htake (writeNodes (n :: ns) ++ '<' :: '/' :: (name.toList ++ ['>']))
      have hstop : inside ('<' :: '/' :: (name.toList ++ ['>'])) = .ok (.stop name, []) := by
        rw [inside_stop, takeStop_write hname]
      have hstart := tokensFrom_writeHead hplace hname htake' (us.length + (fuel + 1 + 1))
      rw [writeNode_element_cons]
      refine hstart.trans ?_
      change _ :: tokensFrom _ (.within 0) _ = _
      rw [hscans.tokens _ _ _ fun _ => ⟨_, rfl⟩, tokensFrom_within hstop]
      rfl
    · rw [build, readTag_scanned hscanned, Element.reread]
      cases readTag bound name (attrs.entries.map literalAttr) with
      | error f => rfl
      | ok r =>
        obtain ⟨table, inner⟩ := r
        change build [⟨name, table, [], bound⟩] inner none (us ++ [.stop name]) = _
        rw [hbuilds _ _ _ _ _ fun _ => rfl]
        change _ = rereadNodes inner (n :: ns) >>= _
        cases rereadNodes inner (n :: ns) with
        | error f => rfl
        | ok ms =>
          change build [⟨name, table, ms.reverse ++ [], bound⟩] inner none [.stop name] = _
          rw [build]
          simp [build, Frame.close, bind, Except.bind]

end Stitchwork.Markup
