/- # Stitchwork.Proofs.Markup.Tags — what reading a tag ensures, for whole trees.

Every element of a tree that has been read comes from a tag, and its attributes are what reading the tag has made of
them.  So what reading one tag ensures of attributes holds at every depth of a tree that has been read.
-/
import Stitchwork.Proofs.Markup.Below
import Stitchwork.Proofs.Markup.Building

namespace Stitchwork.Markup

mutual

/-- The attributes of the element, and those of every element below it, have the property. -/
def EachTag (P : List (String × String) → Prop) : Node → Prop
  | .element _ attrs children => P attrs.entries ∧ EachTags P children
  | _ => True

/-- The attributes of all elements among the nodes and below them have the property. -/
def EachTags (P : List (String × String) → Prop) : List Node → Prop
  | [] => True
  | n :: ns => EachTag P n ∧ EachTags P ns

end

/-- Whatever is read as the attributes of a tag has the property. -/
def EnsuredByTags (P : List (String × String) → Prop) : Prop :=
  ∀ {bound inner : Bindings} {name : String} {attrs : List (String × List Chunk)} {table : Table String},
    readTag bound name attrs = .ok (table, inner) → P table.entries

section

variable {P : List (String × String) → Prop}

theorem eachTags_iff {ns : List Node} : EachTags P ns ↔ ∀ n ∈ ns, EachTag P n := by
  induction ns with
  | nil => exact iff_of_true trivial nofun
  | cons n ns ih => rw [EachTags, ih, List.forall_mem_cons]

theorem eachTag_of_mem_descendants {name : String} (ns : List Node) (hns : EachTags P ns) {e : Element}
    (h : e ∈ descendants name ns) : EachTag P e.toNode :=
  of_mem_descendants (fun he hc => eachTags_iff.1 he.2 _ hc) (fun _ hc => eachTags_iff.1 hns _ hc) h

theorem eachTag_of_mem_selfAndDescendants {name : String} (n : Node) (hn : EachTag P n) {e : Element}
    (h : e ∈ selfAndDescendants name n) : EachTag P e.toNode := by
  rw [← descendants_singleton] at h
  exact eachTag_of_mem_descendants [n] ⟨hn, trivial⟩ h

/-- An open element that can be closed to one with the property on each tag. -/
def Frame.EachTag (P : List (String × String) → Prop) (f : Frame) : Prop :=
  P f.attrs.entries ∧ ∀ n ∈ f.children, Markup.EachTag P n

theorem Frame.EachTag.add {f : Frame} (hf : f.EachTag P) {n : Node} (hn : Markup.EachTag P n) :
    (f.add n).EachTag P := ⟨hf.1, List.forall_mem_cons.2 ⟨hn, hf.2⟩⟩

theorem Frame.EachTag.addText {f : Frame} (hf : f.EachTag P) (cs : List Char) : (f.addText cs).EachTag P := by
  have hchildren := hf.2
  unfold Frame.addText
  split
  · next s rest heq =>
    rw [heq, List.forall_mem_cons] at hchildren
    exact ⟨hf.1, List.forall_mem_cons.2 ⟨trivial, hchildren.2⟩⟩
  · exact ⟨hf.1, List.forall_mem_cons.2 ⟨trivial, hchildren⟩⟩

theorem Frame.EachTag.close {f : Frame} (hf : f.EachTag P) : Markup.EachTag P f.close.toNode :=
  ⟨hf.1, eachTags_iff.2 fun n hn => hf.2 n (List.mem_reverse.1 hn)⟩

/-- **What reading a tag ensures holds of every tag of a tree that has been read.** -/
theorem eachTag_read (hP : EnsuredByTags P) {s : String} {e : Element} (h : read s = .ok e) : EachTag P e.toNode := by
  refine (build_keeps (F := Frame.EachTag P) (E := fun e => EachTag P e.toNode) Frame.EachTag.close
    (fun hf he => hf.add he) (fun t _ => ?_) (List.forall_mem_nil _) (by simp) h).1
  cases t with
  | start => exact fun htag => ⟨hP htag, List.forall_mem_nil _⟩
  | chunk => exact fun {cs} _ _ hf => hf.addText cs
  | cdata => exact fun _ _ hf => hf.add trivial
  | comment => exact fun hf => hf.add trivial
  | instruction => exact fun hf => hf.add trivial
  | _ => trivial

end

end Stitchwork.Markup
