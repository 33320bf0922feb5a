/- # Stitchwork.Proofs.Project.Colors — the colours of a project.

A colour has one form: a number sign and six hexadecimal digits in lower case.  The colours of a pattern are trimmed when
they are read and have this form.  A colour that is chosen for a project is not trimmed: what is asked of it allows a line
end behind the digits, and the line end goes into the project.  This is the only way in which a colour of a project can
miss its form.
-/
import Stitchwork.Proofs.Pattern.Fields
import Stitchwork.Proofs.Project.Configuration

namespace Stitchwork.Text

/-! ## The last character of a text -/

/-- No capital has a line end as its lower-case form. -/
theorem lowerSimple_eq_lineEnd {c : Char} : lowerSimple c = '\n' ↔ c = '\n' := by
  have hofNat : ∀ {n : Nat}, Char.ofNat n = '\n' → n = 10 := by
    intro n h
    by_cases hvalid : n.isValidChar
    · have hcode : (Char.ofNat n).toNat = n := by
        rw [Char.ofNat, dif_pos hvalid]
        rfl
      rw [← hcode, h]
      rfl
    · rw [Char.ofNat, dif_neg hvalid] at h
      exact absurd h (by decide)
  have hruns : ∀ r ∈ capitalRuns, 10 < (r.first : Int) + r.shift := by decide +kernel
  constructor
  · intro h
    rw [lowerSimple] at h
    split at h
    · split at h
      · have hcode := hofNat h
        omega
      · exact h
    · split at h
      · next r hr =>
        have hholds := List.find?_some hr
        have hlarge := hruns r (List.mem_of_find?_eq_some hr)
        have hcode := hofNat h
        simp only [CapitalRun.holds, Bool.and_eq_true, decide_eq_true_eq] at hholds
        omega
      · exact h
  · rintro rfl
    decide

/-- The lower-case form of a character ends with a line end only if the character is one. -/
theorem getLast?_lowerChar (before : List Char) (c : Char) (after : List Char) :
    (lowerChar before c after).getLast? = some '\n' ↔ c = '\n' := by
  rw [lowerChar]
  split
  · next hsigma =>
    refine iff_of_false (fun h => ?_) fun hc => absurd (hc ▸ hsigma) (by decide)
    rw [List.getLast?_singleton, Option.some.injEq] at h
    split at h <;> exact absurd h (by decide)
  split
  · next hdotted => exact iff_of_false (by decide) fun hc => absurd (hc ▸ hdotted) (by decide)
  · rw [List.getLast?_singleton, Option.some.injEq, lowerSimple_eq_lineEnd]

theorem lowerChar_ne_nil (before : List Char) (c : Char) (after : List Char) : lowerChar before c after ≠ [] := by
  rw [lowerChar]
  split
  · exact List.cons_ne_nil _ _
  split <;> exact List.cons_ne_nil _ _

theorem lowerFrom_concat (before s : List Char) (c : Char) :
    ∃ front before', lowerFrom before (s ++ [c]) = front ++ lowerChar before' c [] := by
  induction s generalizing before with
  | nil => exact ⟨[], before, List.append_nil _⟩
  | cons d s ih =>
    obtain ⟨front, before', h⟩ := ih (d :: before)
    exact ⟨lowerChar before d (s ++ [c]) ++ front, before', by rw [List.cons_append, lowerFrom, h, List.append_assoc]⟩

/-- A text ends with a line end exactly if it does so in lower case. -/
theorem getLast?_lower {s : String} : (lower s).toList.getLast? = some '\n' ↔ s.toList.getLast? = some '\n' := by
  rw [lower, String.toList_ofList]
  rcases List.eq_nil_or_concat' s.toList with hs | ⟨front, c, hs⟩
  · rw [hs]
    rfl
  · obtain ⟨lowered, before, hlower⟩ := lowerFrom_concat [] front c
    rw [hs, hlower, List.getLast?_append_of_ne_nil _ (lowerChar_ne_nil _ _ _), getLast?_lowerChar, List.getLast?_concat,
      Option.some.injEq]

/-- A text that has been trimmed does not end with a line end. -/
theorem getLast?_trim (s : String) : (trim s).toList.getLast? ≠ some '\n' := by
  rw [trim, String.toList_ofList, trimBy, List.getLast?_reverse]
  intro h
  have hblank := List.head?_dropWhile_not isBlank (s.toList.dropWhile isBlank).reverse
  rw [h] at hblank
  exact absurd hblank (by decide)

end Stitchwork.Text

namespace Stitchwork.Pattern

open Stitchwork.Markup Stitchwork.Text

/-! ## Colours in their form -/

/-- The digits of colours. -/
def colorDigits : List Char := ['0', '1', '2', '3', '4', '5', '6', '7', '8', '9', 'a', 'b', 'c', 'd', 'e', 'f']

/-- The form of a colour: a number sign and six hexadecimal digits in lower case, and nothing else. -/
def IsNormal (v : String) : Prop :=
  ∃ ds : List Char, v = String.ofList ('#' :: ds) ∧ ds.length = 6 ∧ ∀ c ∈ ds, c ∈ colorDigits

/-- What stands behind the digits of a colour: a line end, or nothing. -/
def lineEndIf (b : Bool) : String := if b then "\n" else ""

/-- Does the text end with a line end? -/
def endsLine (s : String) : Bool := s.toList.getLast? == some '\n'

theorem mem_colorDigits {c : Char} (h : isHexDigit c ∧ lowerSimple c = c) : c ∈ colorDigits := by
  have hlt := lt_of_isHexDigit h.1
  revert h
  exact forall_of_lt (P := fun c => isHexDigit c ∧ lowerSimple c = c → c ∈ colorDigits) (by decide +kernel) hlt

theorem endsLine_lower (s : String) : endsLine (lower s) = endsLine s := by
  rw [endsLine, endsLine, Bool.eq_iff_iff, beq_iff_eq, beq_iff_eq, getLast?_lower]

theorem endsLine_trim (s : String) : endsLine (trim s) = false := by
  rw [endsLine, beq_eq_false_iff_ne]
  exact getLast?_trim s

/-- A colour that is spelled with digits, in lower case: its form, and behind it the line end that the spelling has. -/
theorem lower_spec {w : String} (h : isHexColor w) :
    ∃ v, IsNormal v ∧ lower w = v ++ lineEndIf (endsLine w) ∧ normalColor (lower w) = .ok (lower w) := by
  obtain ⟨ds, tail, hlower, hlength, hds, htail⟩ := lower_of_isHexColor h
  have hdigits : ∀ c ∈ ds, isHexDigit c ∧ lowerSimple c = c := fun c hc => ⟨(hds c hc).1, (hds c hc).2.1⟩
  refine ⟨String.ofList ('#' :: ds), ⟨ds, rfl, hlength, fun c hc => mem_colorDigits (hdigits c hc)⟩, ?_, ?_⟩
  · rw [← endsLine_lower, ← String.toList_inj, String.toList_append, String.toList_ofList, hlower]
    -- nothing or a line end is behind the digits, and the last character tells which
    rcases htail with rfl | rfl
    · have hlast : endsLine (lower w) = false := by
        rw [endsLine, beq_eq_false_iff_ne, hlower, List.append_nil]
        intro hlast
        rcases List.mem_cons.1 (List.mem_of_getLast? hlast) with h | h
        · exact absurd h (by decide)
        · exact absurd (hdigits _ h).1 (by decide)
      rw [hlast]
      rfl
    · have hlast : endsLine (lower w) = true := by rw [endsLine, hlower, List.getLast?_concat, beq_self_eq_true]
      rw [hlast]
      rfl
  · have hnormal := normalColor_of_digits hlength hdigits htail
    rwa [← List.cons_append, ← hlower, String.ofList_toList] at hnormal

/-- **The form of a colour**: whatever is taken for a colour is kept in its form, with the line end that it had behind it,
and is then kept as it is. -/
theorem normalColor_spec {s v : String} (h : normalColor s = .ok v) :
    normalColor v = .ok v ∧ ∃ w, IsNormal w ∧ v = w ++ lineEndIf (endsLine s) := by
  rw [normalColor] at h
  split at h
  · cases h
  next hcolor =>
  cases h
  cases hlookup : colorNames.lookup s with
  | none =>
    obtain ⟨w, hw, hlower, hnormal⟩ := lower_spec (w := s) (by simpa [isColor, hlookup] using hcolor)
    exact ⟨hnormal, w, hw, hlower⟩
  | some hex =>
    -- neither the name of a colour nor what it stands for ends with a line end
    have hnames : ∀ p ∈ colorNames, isHexColor p.2 ∧ endsLine p.1 = false ∧ endsLine p.2 = false := by decide +kernel
    obtain ⟨before, after, hsplit, -⟩ := List.lookup_eq_some_iff.1 hlookup
    obtain ⟨hhex, hname, hend⟩ := hnames (s, hex) (by simp [hsplit])
    obtain ⟨w, hw, hlower, hnormal⟩ := lower_spec hhex
    rw [hend] at hlower
    rw [hname]
    exact ⟨hnormal, w, hw, hlower⟩

theorem isNormal_of_ofElement {e : Element} {k : Color} (h : Color.ofElement e = .ok k) :
    IsNormal k.value ∧ normalColor k.value = .ok k.value := by
  obtain ⟨v, hv, rfl⟩ := Color.ofElement_eq_ok.1 h
  obtain ⟨hself, w, hw, hvalue⟩ := normalColor_spec hv
  rw [endsLine_lower, endsLine_trim, lineEndIf, if_neg Bool.false_ne_true, String.append_empty] at hvalue
  subst hvalue
  exact ⟨hw, hself⟩

end Stitchwork.Pattern

namespace Stitchwork.Project

open Stitchwork.Markup Stitchwork.Pattern Stitchwork.Text

/-! ## The colours of a project -/

/-- The colours of a project. -/
def colorsOf (root : Element) : List Element := root.elements.filter (·.name == "color")

/-- Is a text chosen for the colour, and does it end with a line end? -/
def choiceEndsLine (chosen : Table String) (name : String) : Bool := (chosen.get? name).any endsLine

/-- The colours of a project that has been built are the elements that its colours have become. -/
theorem colorsOf_build {d : Document} {pattern : Element} {configs colors : List Element} {chosen : Choices}
    {content : Expansion} (hpattern : patternElement d = .ok pattern)
    (hconfigs : (configure chosen.configs Table.empty d.configs).elements = .ok configs)
    (hcolors : d.colors.mapM (colorElement chosen.colors) = .ok colors) {c : Context} (hcontent : parts c = .ok content)
    (name id : String) :
    colorsOf (((projectRoot name id).append
      ((imageElements d ++ [pattern] ++ configs ++ colors).map Element.toNode)).append content.nodes) = colors := by
  obtain ⟨es, hes, helements⟩ := elements_build hcontent (imageElements d ++ [pattern] ++ configs ++ colors) name id
  have himages : ∀ e ∈ imageElements d, e.name ≠ "color" := fun e he => by simp [name_of_imageElements d e he]
  have hhead : ∀ e ∈ [pattern], e.name ≠ "color" := by simp [name_of_patternElement hpattern]
  have hconfig : ∀ e ∈ configs, e.name ≠ "color" := fun e he => by simp [name_of_configure hconfigs e he]
  have hpart : ∀ e ∈ es, e.name ≠ "color" := fun e he => by rcases hes e he with h | h <;> simp [h]
  simp only [colorsOf, helements, List.filter_append, filter_name_eq_nil himages, filter_name_eq_nil hhead,
    filter_name_eq_nil hconfig, filter_name_eq_self (name_of_colorElements hcolors), filter_name_eq_nil hpart,
    List.nil_append, List.append_nil]

/-- The element shows a colour that is kept as it is: its form, and a line end behind it if the chosen text has one. -/
structure ShowsColor (chosen : Table String) (k : Color) (e : Element) : Prop where
  name : e.attr "name" = k.name
  steady : normalColor (e.attr "value") = .ok (e.attr "value")
  form : ∃ w, IsNormal w ∧ e.attr "value" = w ++ lineEndIf (choiceEndsLine chosen k.name)

theorem showsColor_colorElement {chosen : Table String} {k : Color} {e : Element}
    (hk : IsNormal k.value ∧ normalColor k.value = .ok k.value) (h : colorElement chosen k = .ok e) :
    ShowsColor chosen k e := by
  rw [colorElement] at h
  cases hchosen : chosen.get? k.name with
  | none =>
    rw [hchosen] at h
    cases h
    refine ⟨rfl, hk.2, k.value, hk.1, ?_⟩
    rw [choiceEndsLine, hchosen]
    exact String.append_empty.symm
  | some s =>
    rw [hchosen] at h
    obtain ⟨v, hv, h⟩ := bind_eq_ok.1 h
    cases h
    obtain ⟨hself, w, hw, hvalue⟩ := normalColor_spec hv
    refine ⟨rfl, hself, w, hw, ?_⟩
    rw [choiceEndsLine, hchosen, Option.any_some, ← endsLine_lower]
    exact hvalue

theorem map_name_of_shows {chosen : Table String} {ks : List Color} {es : List Element}
    (h : List.Forall₂ (ShowsColor chosen) ks es) : es.map (·.attr "name") = ks.map Color.name := by
  induction h with
  | nil => rfl
  | cons hshow _ ih => rw [List.map_cons, List.map_cons, hshow.name, ih]

/-- A colour with a line end behind it does not have its form. -/
theorem isNormal_append_lineEndIf {w : String} (hw : IsNormal w) (b : Bool) : IsNormal (w ++ lineEndIf b) ↔ b = false := by
  cases b with
  | false =>
    rw [lineEndIf, if_neg Bool.false_ne_true, String.append_empty]
    exact iff_of_true hw rfl
  | true =>
    refine iff_of_false ?_ Bool.noConfusion
    obtain ⟨ds, rfl, hlength, -⟩ := hw
    rintro ⟨es, hes, hlength', -⟩
    have hlengths := congrArg (fun s : String => s.toList.length) hes
    simp [lineEndIf, hlength, hlength'] at hlengths

/-- **Colours have their form, but for a line end that is chosen with them.**  If a pattern that has been read is compiled,
the colours of the project are those of the pattern in their order.  Each is a number sign and six hexadecimal digits in
lower case, and behind them a line end exactly if a text is chosen for the colour that ends with one; and each is kept as
it is when it is taken for a colour again. -/
theorem colors_normal_but_for_line_end {sources : Sources} {main : String} {n n' : Nat} {d : Document}
    (hread : (readPattern sources main).run.run n = (.ok d, n')) (c : Compilation) (choices : Choices) (name : String)
    (i : Nat) {text : String} (htext : ((compile c choices name d).run i).1.text = .ok text) :
    ∃ root : Element, (build d choices name (identifier (i + 1))).tree = .ok ⟨[root.toNode], true⟩ ∧
      text = writeDocument root ∧ (colorsOf root).map (·.attr "name") = d.colors.map Color.name ∧
      ∀ e ∈ colorsOf root,
        let value := e.attr "value"
        let ending := choiceEndsLine choices.colors (e.attr "name")
        normalColor value = .ok value ∧ (∃ w, IsNormal w ∧ value = w ++ lineEndIf ending) ∧
          (IsNormal value ↔ ending = false) := by
  have hcolors : ∀ k ∈ d.colors, IsNormal k.value ∧ normalColor k.value = .ok k.value := by
    intro k hk
    obtain ⟨e, -, he⟩ := (ensures_readPattern_isRead sources main n d n' hread).definitions .color (.color k)
      (List.mem_map_of_mem hk)
    exact isNormal_of_ofElement he
  rw [compile_run] at htext
  split at htext
  · cases htext
  split at htext
  · cases htext
  obtain ⟨project, hproject, hwrite⟩ := bind_eq_ok.1 htext
  obtain ⟨pattern, configs, colors, content, hpattern, hconfigs, -, hmapped, hcontent, rfl⟩ := build_eq_ok hproject
  obtain ⟨hwritable, rfl⟩ := write_wrap_eq_ok.1 hwrite
  have hshows : List.Forall₂ (ShowsColor choices.colors) d.colors colors :=
    ((List.forall₂_and_left _ _).2 ⟨hcolors, mapM_eq_ok.1 hmapped⟩).imp fun k e h => showsColor_colorElement h.1 h.2
  have hbuilt := colorsOf_build hpattern hconfigs hmapped hcontent name (identifier (i + 1))
  refine ⟨_, hproject.trans ?_, rfl, ?_, ?_⟩
  · rw [← hwritable]
    rfl
  · rw [hbuilt]
    exact map_name_of_shows hshows
  · rw [hbuilt]
    intro e he
    obtain ⟨k, -, hname, hsteady, w, hw, hvalue⟩ := exists_of_mem_right hshows he
    rw [hname]
    exact ⟨hsteady, ⟨w, hw, hvalue⟩, by rw [hvalue]; exact isNormal_append_lineEndIf hw _⟩

/-- A packaged pattern with a colour. -/
def redPattern : String :=
  "<pattern xmlns:opaf=\"u\" pkg_version=\"p\"><opaf:define_color name=\"a\" value=\" Red\"/></pattern>"

/-- Another colour is chosen, with a line end behind it. -/
def lineEndChosen : Choices := ⟨Table.empty, ⟨[("a", "#FFFFFF\n")]⟩⟩

/-- The colour of the project has the line end, and so it misses its form. -/
theorem redPattern_keeps_line_end : ∃ d n' root e,
    (readPattern (oneFile "p" redPattern) "p").run.run 0 = (.ok d, n') ∧
      ((compile .fresh lineEndChosen "k" d).run 0).1.text = .ok (writeDocument root) ∧ e ∈ colorsOf root ∧
      e.attr "name" = "a" ∧ normalColor (e.attr "value") = .ok (e.attr "value") ∧ ¬IsNormal (e.attr "value") := by
  have hcheck : (((readPattern (oneFile "p" redPattern) "p").run.run 0).1.toOption.any fun d =>
      ((compile .fresh lineEndChosen "k" d).run 0).1.text.toOption.isSome && d.colors.map Color.name == ["a"]) = true := by
    rw [readPattern_oneFile]
    decide +kernel
  rcases hread : (readPattern (oneFile "p" redPattern) "p").run.run 0 with ⟨r, n'⟩
  rw [hread] at hcheck
  cases r with
  | error report => cases hcheck
  | ok d =>
    simp only [Except.toOption, Option.any_some, Bool.and_eq_true, beq_iff_eq] at hcheck
    cases htext : ((compile .fresh lineEndChosen "k" d).run 0).1.text with
    | error report =>
      rw [htext] at hcheck
      cases hcheck.1
    | ok text =>
      obtain ⟨root, -, rfl, hnames, hall⟩ := colors_normal_but_for_line_end hread .fresh lineEndChosen "k" 0 htext
      rw [hcheck.2] at hnames
      obtain ⟨e, he⟩ : ∃ e, colorsOf root = [e] := by
        rw [← List.length_eq_one_iff, ← List.length_map (·.attr "name"), hnames]
        rfl
      rw [he] at hnames hall
      obtain ⟨hsteady, -, hform⟩ := hall e (List.mem_singleton_self e)
      have hname : e.attr "name" = "a" := by simpa using hnames
      refine ⟨d, n', root, e, rfl, htext, by rw [he]; exact List.mem_singleton_self e, hname, hsteady, ?_⟩
      rw [hform, hname]
      decide

end Stitchwork.Project
