/- # Stitchwork.Proofs.Markup.Building — what building a tree keeps.

A tree is built by putting nodes into open elements and closing them.  So a property of open elements that every token
keeps is had by all that is built.
-/
import Stitchwork.Markup.Reader
import Stitchwork.Proofs.Work

namespace Stitchwork.Markup

/-- An element that the token opens has the property, and one that it puts something into keeps it. -/
def Token.Keeps (F : Frame → Prop) : Token → Prop
  | .start name attrs _ => ∀ {bound inner : Bindings} {table : Table String},
    readTag bound name attrs = .ok (table, inner) → F ⟨name, table, [], bound⟩
  | .chunk r => ∀ {cs : List Char}, r.resolve id = .ok cs → ∀ {f : Frame}, F f → F (f.addText cs)
  | .cdata s => s ≠ [] → ∀ {f : Frame}, F f → F (f.add (.cdata (String.ofList s)))
  | .comment s => ∀ {f : Frame}, F f → F (f.add (.comment (String.ofList s)))
  | .instruction target data => ∀ {f : Frame}, F f → F (f.add (.instruction target (String.ofList data)))
  | _ => True

/-- What is built has the property of closed elements, and no token of it is a fault. -/
theorem build_keeps {F : Frame → Prop} {E : Element → Prop} (hclose : ∀ {f : Frame}, F f → E f.close)
    (hadd : ∀ {f : Frame} {e : Element}, F f → E e → F (f.add e.toNode)) {ts : List Token}
    (hts : ∀ t ∈ ts, t.Keeps F) {frames : List Frame} {bound : Bindings} {root : Option Element}
    (hframes : ∀ f ∈ frames, F f) (hroot : ∀ e, root = some e → E e) {e : Element}
    (h : build frames bound root ts = .ok e) : E e ∧ ∀ f, Token.fault f ∉ ts := by
  have hnext : ∀ {t : Token} {ts : List Token}, (∀ f, t ≠ .fault f) → (E e ∧ ∀ f, Token.fault f ∉ ts) →
      E e ∧ ∀ f, Token.fault f ∉ t :: ts :=
    fun ht hts => ⟨hts.1, fun f => List.not_mem_cons_of_ne_of_not_mem (ht f).symm (hts.2 f)⟩
  fun_induction build frames bound root ts with
  | case1 _ _ root =>
    cases h
    exact ⟨hroot _ rfl, fun _ => List.not_mem_nil⟩
  | case2 => cases h
  | case3 => cases h
  | case4 frames bound root name attrs closed rest ihroot ihclosed ihopen =>
    -- a start tag: the root, a child that is closed at once, or a frame more
    rw [List.forall_mem_cons] at hts
    obtain ⟨⟨table, inner⟩, htag, h⟩ := bind_eq_ok.1 h
    have hopened := hts.1 htag
    refine hnext (by simp) ?_
    dsimp only at h
    split at h
    · split at h
      · exact ihroot table hts.2 hframes (by rintro _ ⟨⟩; exact hclose hopened) h
      · next f fs _ =>
        rw [List.forall_mem_cons] at hframes
        exact ihclosed table f fs hts.2 (List.forall_mem_cons.2 ⟨hadd hframes.1 (hclose hopened), hframes.2⟩) hroot h
    · exact ihopen table inner hts.2 (List.forall_mem_cons.2 ⟨hopened, hframes⟩) hroot h
  | case5 f _ root name rest _ ih =>
    rw [List.forall_mem_cons] at hts hframes
    exact hnext (by simp) (ih hts.2 hframes.2 (by rintro _ ⟨⟩; exact hclose hframes.1) h)
  | case6 f _ root name rest _ g frames ih =>
    rw [List.forall_mem_cons] at hts hframes
    rw [List.forall_mem_cons] at hframes
    have hclosed := hadd hframes.2.1 (hclose hframes.1)
    exact hnext (by simp) (ih hts.2 (List.forall_mem_cons.2 ⟨hclosed, hframes.2.2⟩) hroot h)
  | case7 => cases h
  | case8 => cases h
  | case9 f frames bound root chunk rest ih =>
    rw [List.forall_mem_cons] at hts hframes
    obtain ⟨cs, hcs, h⟩ := bind_eq_ok.1 h
    exact hnext (by simp) (ih cs hts.2 (List.forall_mem_cons.2 ⟨hts.1 hcs hframes.1, hframes.2⟩) hroot h)
  | case10 f frames bound root s rest _ ih =>
    exact hnext (by simp) (ih (List.forall_mem_cons.1 hts).2 hframes hroot h)
  | case11 f frames bound root s rest hne ih =>
    rw [List.forall_mem_cons] at hts hframes
    have hadded := hts.1 (by simpa using hne) hframes.1
    exact hnext (by simp) (ih hts.2 (List.forall_mem_cons.2 ⟨hadded, hframes.2⟩) hroot h)
  | case12 f frames bound root s rest ih =>
    rw [List.forall_mem_cons] at hts hframes
    exact hnext (by simp) (ih hts.2 (List.forall_mem_cons.2 ⟨hts.1 hframes.1, hframes.2⟩) hroot h)
  | case13 f frames bound root target data rest ih =>
    rw [List.forall_mem_cons] at hts hframes
    exact hnext (by simp) (ih hts.2 (List.forall_mem_cons.2 ⟨hts.1 hframes.1, hframes.2⟩) hroot h)
  | case14 bound root head rest hfault _ _ ih =>
    exact hnext hfault (ih (List.forall_mem_cons.1 hts).2 hframes hroot h)

end Stitchwork.Markup
