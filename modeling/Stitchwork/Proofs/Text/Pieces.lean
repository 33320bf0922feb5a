/- # Stitchwork.Proofs.Text.Pieces — cutting and joining are inverse to each other.

Separators are single characters here.  Cutting at one is splitting a list, so what the library knows of
splitting carries over.
-/
import Stitchwork.Text.Blank
import Stitchwork.Text.Pieces

namespace Stitchwork.Text

variable {s stop body : List Char} {sep : String} {p : Char → Bool} {x c : Char}

/-! ## Cutting at a character -/

theorem cutFrom_singleton (x : Char) (piece s : List Char) :
    cutFrom [x] piece 0 s = s.splitOnPPrepend (· == x) piece := by
  induction s generalizing piece with
  | nil => rfl
  | cons c rest ih =>
    rw [cutFrom, List.splitOnPPrepend_cons_eq_if]
    by_cases h : c = x
    · simp [h, List.isPrefixOf, ih]
    · simp [h, Ne.symm h, List.isPrefixOf, ih]

/-- Cutting at a separator of one character is splitting. -/
theorem cut_eq (hsep : sep.toList = [x]) (s : String) : cut s sep = (s.toList.splitOn x).map String.ofList := by
  rw [cut, hsep, cutFrom_singleton, List.splitOn_eq_splitOnP, List.splitOnP_eq_splitOnPPrepend]

theorem cut_ne_nil (hsep : sep.toList = [x]) (s : String) : cut s sep ≠ [] := by
  rw [cut_eq hsep]
  simp [List.splitOn_ne_nil]

/-- No piece holds the separator. -/
theorem not_mem_of_mem_splitOn {p : List Char} (h : p ∈ s.splitOn x) : x ∉ p := by
  induction s generalizing p with
  | nil =>
    rw [List.splitOn_nil, List.mem_singleton] at h
    simp [h]
  | cons c rest ih =>
    rw [List.splitOn_cons_eq_if_modifyHead] at h
    split at h
    · rcases List.mem_cons.1 h with rfl | h
      · exact List.not_mem_nil
      · exact ih h
    · next hc =>
      cases hrest : rest.splitOn x with
      | nil => exact absurd hrest (List.splitOn_ne_nil x rest)
      | cons q qs =>
        rw [hrest, List.modifyHead_cons] at h
        rcases List.mem_cons.1 h with rfl | h
        · have hq := ih (p := q) (by simp [hrest])
          simp only [List.mem_cons, not_or]
          exact ⟨fun heq => hc (by simp [heq]), hq⟩
        · exact ih (by simp [hrest, h])

theorem not_mem_of_mem_cut (hsep : sep.toList = [x]) {s p : String} (h : p ∈ cut s sep) : x ∉ p.toList := by
  rw [cut_eq hsep] at h
  obtain ⟨q, hq, rfl⟩ := List.mem_map.1 h
  rw [String.toList_ofList]
  exact not_mem_of_mem_splitOn hq

/-- A text is its pieces with the separator between them. -/
theorem join_cut (hsep : sep.toList = [x]) (s : String) : join sep (cut s sep) = s := by
  have hpieces : ((s.toList.splitOn x).map String.ofList).map String.toList = s.toList.splitOn x := by
    simp [List.map_map, Function.comp_def, String.toList_ofList]
  rw [join, cut_eq hsep, hpieces, hsep, List.intercalate_splitOn, String.ofList_toList]

/-- Pieces without the separator are got back. -/
theorem cut_join (hsep : sep.toList = [x]) {ps : List String} (hne : ps ≠ []) (h : ∀ p ∈ ps, x ∉ p.toList) :
    cut (join sep ps) sep = ps := by
  have hsplit : ([x].intercalate (ps.map String.toList)).splitOn x = ps.map String.toList := by
    refine List.splitOn_intercalate x (fun l hl => ?_) (by simpa using hne)
    obtain ⟨p, hp, rfl⟩ := List.mem_map.1 hl
    exact h p hp
  rw [cut_eq hsep, join, hsep, String.toList_ofList, hsplit, List.map_map]
  simp [Function.comp_def, String.ofList_toList]

/-- A text without the separator is one piece. -/
theorem cut_of_not_mem (hsep : sep.toList = [x]) {s : String} (h : x ∉ s.toList) : cut s sep = [s] := by
  rw [cut_eq hsep, List.splitOn_eq_singleton h, List.map_singleton, String.ofList_toList]

/-- The pieces of a text with a separator in it. -/
theorem cut_append (hsep : sep.toList = [x]) {s : String} (h : x ∉ s.toList) (t : String) :
    cut (s ++ sep ++ t) sep = s :: cut t sep := by
  rw [cut_eq hsep, cut_eq hsep, String.toList_append, String.toList_append, hsep, List.append_assoc,
    List.singleton_append, List.splitOn_append_cons_self_of_not_mem h, List.map_cons,
    String.ofList_toList]

/-! ## The characters of pieces -/

theorem mem_intercalate {sep : List Char} {ps : List (List Char)} (h : c ∈ sep.intercalate ps) :
    c ∈ sep ∨ ∃ p ∈ ps, c ∈ p := by
  induction ps with
  | nil => simp at h
  | cons p ps ih =>
    cases ps with
    | nil => exact .inr ⟨p, by simp, by simpa using h⟩
    | cons q qs =>
      rw [List.intercalate_cons_cons] at h
      simp only [List.mem_append] at h
      grind

theorem mem_intercalate_of_mem {sep p : List Char} {ps : List (List Char)} (h : p ∈ ps) (hc : c ∈ p) :
    c ∈ sep.intercalate ps := by
  induction ps with
  | nil => cases h
  | cons q ps ih =>
    cases ps with
    | nil =>
      rw [List.mem_singleton.1 h] at hc
      simpa using hc
    | cons q' qs =>
      rw [List.intercalate_cons_cons]
      simp only [List.mem_append]
      grind

/-- A character of joined pieces stands in one of them or in the separator. -/
theorem mem_join {ps : List String} (h : c ∈ (join sep ps).toList) : c ∈ sep.toList ∨ ∃ p ∈ ps, c ∈ p.toList := by
  rw [join, String.toList_ofList] at h
  rcases mem_intercalate h with h | ⟨p, hp, hc⟩
  · exact .inl h
  · obtain ⟨q, hq, rfl⟩ := List.mem_map.1 hp
    exact .inr ⟨q, hq, hc⟩

/-- A character of a piece stands in the text. -/
theorem mem_of_mem_cut (hsep : sep.toList = [x]) {s p : String} (hp : p ∈ cut s sep) (hc : c ∈ p.toList) :
    c ∈ s.toList := by
  rw [← join_cut hsep s, join, String.toList_ofList]
  exact mem_intercalate_of_mem (List.mem_map_of_mem hp) hc

/-! ## Characters and trimming -/

/-- A property of characters below `0x80` can be checked for one after the other. -/
theorem forall_of_lt {P : Char → Prop} (h : ∀ n < 0x80, P (Char.ofNat n)) (hc : c.toNat < 0x80) : P c := by
  rw [← Char.ofNat_toNat c]
  exact h c.toNat hc

theorem dropWhile_of_forall (h : ∀ c ∈ s, p c = false) : s.dropWhile p = s := by
  cases s with
  | nil => rfl
  | cons c s => exact List.dropWhile_cons_of_neg (by simp [h c (by simp)])

/-- A run of characters ends in front of one that does not go on with it. -/
theorem takeWhile_append {rest : List Char} (hs : ∀ c ∈ s, p c) (hrest : ∀ c ∈ rest.head?, p c = false) :
    (s ++ rest).takeWhile p = s ∧ (s ++ rest).dropWhile p = rest := by
  rw [List.takeWhile_append_of_pos hs, List.dropWhile_append_of_pos hs]
  cases rest with
  | nil => exact ⟨List.append_nil s, rfl⟩
  | cons c rest =>
    have hc : ¬p c := by simp [hrest c rfl]
    rw [List.takeWhile_cons_of_neg hc, List.dropWhile_cons_of_neg hc, List.append_nil]
    exact ⟨rfl, rfl⟩

/-- A text without blanks is not trimmed. -/
theorem trimBy_of_forall (h : ∀ c ∈ s, p c = false) : trimBy p s = s := by
  rw [trimBy, dropWhile_of_forall h, dropWhile_of_forall fun c hc => h c (List.mem_reverse.1 hc),
    List.reverse_reverse]

/-- Blanks in front do not matter. -/
theorem trimBy_append_left {before : List Char} (h : ∀ c ∈ before, p c) : trimBy p (before ++ s) = trimBy p s := by
  rw [trimBy, List.dropWhile_append_of_pos h, trimBy]

/-- Blanks behind do not matter. -/
theorem trimBy_append_right {after : List Char} (h : ∀ c ∈ after, p c) : trimBy p (s ++ after) = trimBy p s := by
  have hall : (after ++ []).dropWhile p = [] := List.dropWhile_append_of_pos h
  rw [List.append_nil] at hall
  rw [trimBy, trimBy, List.dropWhile_append]
  split
  · next hnil => rw [List.isEmpty_iff.1 hnil, hall]
  · rw [List.reverse_append, List.dropWhile_append_of_pos fun c hc => h c (List.mem_reverse.1 hc)]

/-- What is not white space stays when white space behind it is removed. -/
theorem trimBy_append {t : List Char} (hs : ∀ c ∈ s, p c = false) (hne : s ≠ []) (ht : ∀ c ∈ t, p c) :
    trimBy p (s ++ t) = s := by
  have hfront : (s ++ t).dropWhile p = s ++ t := by
    obtain ⟨c, s, rfl⟩ := List.exists_cons_of_ne_nil hne
    rw [List.cons_append, List.dropWhile_cons_of_neg]
    rw [hs c (by simp)]
    decide
  rw [trimBy, hfront, List.reverse_append, List.dropWhile_append_of_pos fun c hc => ht c (List.mem_reverse.1 hc),
    dropWhile_of_forall fun c hc => hs c (List.mem_reverse.1 hc), List.reverse_reverse]

/-- What is removed from a text stands around the rest. -/
theorem exists_eq_append_trimBy (p : Char → Bool) (s : List Char) :
    ∃ before after, s = before ++ trimBy p s ++ after ∧ (∀ c ∈ before, p c) ∧ ∀ c ∈ after, p c := by
  have hall : ∀ t : List Char, ∀ c ∈ t.takeWhile p, p c := fun t c hc => List.all_eq_true.1 List.all_takeWhile c hc
  refine ⟨s.takeWhile p, ((s.dropWhile p).reverse.takeWhile p).reverse, ?_, hall s, fun c hc =>
    hall _ c (List.mem_reverse.1 hc)⟩
  rw [trimBy, List.append_assoc, ← List.reverse_append, List.takeWhile_append_dropWhile, List.reverse_reverse,
    List.takeWhile_append_dropWhile]

theorem mem_of_mem_trimBy (h : c ∈ trimBy p s) : c ∈ s := by
  rw [trimBy, List.mem_reverse] at h
  exact (List.dropWhile_sublist _).subset (List.mem_reverse.1 ((List.dropWhile_sublist _).subset h))

theorem mem_of_mem_trim {s : String} (h : c ∈ (trim s).toList) : c ∈ s.toList := by
  rw [trim, String.toList_ofList] at h
  exact mem_of_mem_trimBy h

/-! ## The first occurrence -/

/-- With `stop` behind it, the text holds `stop` nowhere but at its end. -/
def EndsAt (stop : List Char) : List Char → Prop
  | [] => True
  | c :: body => ¬stop <+: (c :: body) ++ stop ∧ EndsAt stop body

theorem endsAt_of_not_mem {d : Char} (h : d ∉ body) : EndsAt (d :: stop) body := by
  induction body with
  | nil => trivial
  | cons c body ih =>
    simp only [List.mem_cons, not_or] at h
    refine ⟨fun hprefix => ?_, ih h.2⟩
    rw [List.cons_append, List.cons_prefix_cons] at hprefix
    exact h.1 hprefix.1

theorem EndsAt.suffix {rest : List Char} (h : EndsAt stop body) (hrest : rest <:+ body) : EndsAt stop rest := by
  induction body with
  | nil =>
    rw [List.suffix_nil.1 hrest]
    trivial
  | cons c body ih =>
    rcases List.suffix_cons_iff.1 hrest with rfl | hrest
    · exact h
    · exact ih h.2 hrest

/-- Whether a text begins with `stop` shows in a part of it that is long enough. -/
theorem prefix_append_iff (rest : List Char) (h : stop.length ≤ s.length) : stop <+: s ++ rest ↔ stop <+: s :=
  ⟨fun hp => List.prefix_of_prefix_length_le hp (List.prefix_append s rest) h,
    fun hp => hp.trans (List.prefix_append s rest)⟩

theorem cutOnceFrom_append (hstop : stop ≠ []) (h : EndsAt stop body) (seen rest : List Char) :
    cutOnceFrom stop seen (body ++ stop ++ rest) = some (seen.reverse ++ body, rest) := by
  induction body generalizing seen with
  | nil =>
    cases stop with
    | nil => exact absurd rfl hstop
    | cons a stop =>
      have hprefix : (a :: stop).isPrefixOf (a :: (stop ++ rest)) :=
        List.isPrefixOf_iff_prefix.2 (List.prefix_append _ _)
      rw [List.nil_append, List.cons_append, cutOnceFrom, if_pos hprefix]
      simp
  | cons c body ih =>
    have hno : ¬stop.isPrefixOf (c :: (body ++ stop ++ rest)) := by
      rw [List.isPrefixOf_iff_prefix]
      intro hp
      have hlen : stop.length ≤ (c :: body ++ stop).length := by simp; omega
      exact h.1 ((prefix_append_iff rest hlen).1 (by simpa using hp))
    rw [List.cons_append, List.cons_append, cutOnceFrom, if_neg hno, ih h.2]
    simp

theorem cutOnceFrom_eq_some {seen b rest : List Char} (h : cutOnceFrom stop seen s = some (b, rest)) :
    ∃ body, b = seen.reverse ++ body ∧ s = body ++ stop ++ rest ∧ EndsAt stop body := by
  induction s generalizing seen with
  | nil => cases h
  | cons c s ih =>
    rw [cutOnceFrom] at h
    split at h
    · next hp =>
      cases h
      obtain ⟨t, ht⟩ := List.isPrefixOf_iff_prefix.1 hp
      exact ⟨[], by simp, by rw [← ht]; simp, trivial⟩
    · next hp =>
      obtain ⟨body, rfl, rfl, hends⟩ := ih h
      refine ⟨c :: body, by simp, by simp, fun hpre => hp ?_, hends⟩
      rw [List.isPrefixOf_iff_prefix]
      have := hpre.trans (List.prefix_append (c :: body ++ stop) rest)
      simpa using this

/-- A text is cut where it ends. -/
theorem cutOnce?_append (hstop : stop ≠ []) (h : EndsAt stop body) (rest : List Char) :
    cutOnce? stop (body ++ stop ++ rest) = some (body, rest) := by
  rw [cutOnce?, cutOnceFrom_append hstop h]
  simp

theorem cutOnce?_eq_some {rest : List Char} (h : cutOnce? stop s = some (body, rest)) :
    s = body ++ stop ++ rest ∧ EndsAt stop body := by
  obtain ⟨body', rfl, hs, hends⟩ := cutOnceFrom_eq_some h
  exact ⟨by simpa using hs, hends⟩

/-! ## Line ends -/

theorem unifyFrom_eq (h : '\r' ∉ s) (seen : List Char) : unifyFrom seen s = seen.reverse ++ s := by
  induction s generalizing seen with
  | nil => simp [unifyFrom]
  | cons c rest ih =>
    rw [List.mem_cons, not_or] at h
    rw [unifyFrom, ih h.2]
    · simp
    · intro _ hc
      exact absurd hc.symm h.1
    · intro hc
      exact absurd hc.symm h.1

/-- A text without carriage returns is not changed. -/
theorem unifyLineEnds_eq (h : '\r' ∉ s) : unifyLineEnds s = s := unifyFrom_eq h []

/-- No carriage return is left. -/
theorem not_mem_unifyFrom {seen : List Char} (h : '\r' ∉ seen) (s : List Char) :
    '\r' ∉ unifyFrom seen s := by
  fun_induction unifyFrom seen s with
  | case1 seen rest ih => exact ih (by simp [h])
  | case2 seen rest _ ih => exact ih (by simp [h])
  | case3 seen c rest _ hc ih => 
    refine ih ?_
    simp only [List.mem_cons, not_or]
    exact ⟨fun heq => hc heq.symm, h⟩
  | case4 seen => simpa using h

theorem not_mem_unifyLineEnds (s : List Char) : '\r' ∉ unifyLineEnds s :=
  not_mem_unifyFrom List.not_mem_nil s

/-- What has been seen stands in front and is not looked at again. -/
theorem unifyFrom_append (seen before s : List Char) :
    unifyFrom (seen ++ before) s = before.reverse ++ unifyFrom seen s := by
  fun_induction unifyFrom seen s with
  | case1 seen rest ih => rw [unifyFrom, ← List.cons_append, ih]
  | case2 seen rest hrest ih => rw [unifyFrom, ← List.cons_append, ih]; exact hrest
  | case3 seen c rest hpair hc ih =>
    rw [unifyFrom, ← List.cons_append, ih]
    · exact hpair
    · exact hc
  | case4 seen => rw [unifyFrom, List.reverse_append]

theorem unifyFrom_eq_append (seen s : List Char) :
    unifyFrom seen s = seen.reverse ++ unifyLineEnds s := unifyFrom_append [] seen s

@[simp] theorem unifyLineEnds_nil : unifyLineEnds [] = [] := rfl

theorem unifyLineEnds_pair (s : List Char) :
    unifyLineEnds ('\r' :: '\n' :: s) = '\n' :: unifyLineEnds s := by
  rw [unifyLineEnds, unifyFrom, unifyFrom_eq_append]
  rfl

theorem unifyLineEnds_return (h : s.head? ≠ some '\n') : unifyLineEnds ('\r' :: s) = '\n' :: unifyLineEnds s := by
  rw [unifyLineEnds, unifyFrom, unifyFrom_eq_append]
  · rfl
  · rintro r rfl
    exact h rfl

theorem unifyLineEnds_cons (h : c ≠ '\r') (s : List Char) : unifyLineEnds (c :: s) = c :: unifyLineEnds s := by
  rw [unifyLineEnds, unifyFrom, unifyFrom_eq_append]
  · rfl
  · exact fun _ hc _ => h hc
  · exact h

/-- Induction over a text by its line ends. -/
theorem lineEnds_induction {P : List Char → Prop} (nil : P [])
    (pair : ∀ s, P s → P ('\r' :: '\n' :: s))
    (single : ∀ s, s.head? ≠ some '\n' → P s → P ('\r' :: s))
    (cons : ∀ c s, c ≠ '\r' → P s → P (c :: s)) (s : List Char) : P s := by
  induction hn : s.length using Nat.strongRecOn generalizing s with
  | ind n ih =>
    cases s with
    | nil => exact nil
    | cons c s =>
      rw [List.length_cons] at hn
      by_cases hc : c = '\r'
      · subst hc
        cases s with
        | nil => exact single [] (by simp) nil
        | cons d s =>
          rw [List.length_cons] at hn
          by_cases hd : d = '\n'
          · subst hd
            exact pair s (ih s.length (by omega) s rfl)
          · exact single (d :: s) (by simpa using hd) (ih (s.length + 1) (by omega) (d :: s) rfl)
      · exact cons c s hc (ih s.length (by omega) s rfl)

/-- A text is unified piece by piece, unless a pair of characters is torn apart. -/
theorem unifyLineEnds_append (s : List Char) {t : List Char} (ht : t.head? ≠ some '\n') :
    unifyLineEnds (s ++ t) = unifyLineEnds s ++ unifyLineEnds t := by
  induction s using lineEnds_induction with
  | nil => rfl
  | pair s ih =>
    rw [List.cons_append, List.cons_append, unifyLineEnds_pair, unifyLineEnds_pair, ih, List.cons_append]
  | single s hs ih =>
    have hhead : (s ++ t).head? ≠ some '\n' := by
      cases s with
      | nil => exact ht
      | cons c s => exact hs
    rw [List.cons_append, unifyLineEnds_return hhead, unifyLineEnds_return hs, ih, List.cons_append]
  | cons c s hc ih => rw [List.cons_append, unifyLineEnds_cons hc, unifyLineEnds_cons hc, ih, List.cons_append]

theorem unifyLineEnds_ne_nil (hs : s ≠ []) : unifyLineEnds s ≠ [] := by
  induction s using lineEnds_induction with
  | nil => exact absurd rfl hs
  | pair s _ => rw [unifyLineEnds_pair]; exact List.cons_ne_nil _ _
  | single s hhead _ => rw [unifyLineEnds_return hhead]; exact List.cons_ne_nil _ _
  | cons c s hc _ => rw [unifyLineEnds_cons hc]; exact List.cons_ne_nil _ _

/-- Unifying brings in no character but line feeds. -/
theorem mem_of_mem_unifyLineEnds (h : c ∈ unifyLineEnds s) : c ∈ s ∨ c = '\n' := by
  induction s using lineEnds_induction with
  | nil => exact .inl h
  | pair s ih =>
    rw [unifyLineEnds_pair] at h
    rcases List.mem_cons.1 h with rfl | h
    · exact .inr rfl
    · exact (ih h).imp_left fun h => by simp [h]
  | single s hhead ih =>
    rw [unifyLineEnds_return hhead] at h
    rcases List.mem_cons.1 h with rfl | h
    · exact .inr rfl
    · exact (ih h).imp_left fun h => by simp [h]
  | cons d s hd ih =>
    rw [unifyLineEnds_cons hd] at h
    rcases List.mem_cons.1 h with rfl | h
    · exact .inl (by simp)
    · exact (ih h).imp_left fun h => by simp [h]

end Stitchwork.Text
