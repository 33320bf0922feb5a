/- # Stitchwork.Proofs.Pattern.VersionBounds — versions that have been read are read again.

What a version holds stood in the text it was read from: its numbers have no more digits than were there,
and a combining dot in its spelling comes from a dotted capital i.  So the spelling of a version that has
been read can be read, and gives the version, exactly if there is no combining dot in it.
-/
import Stitchwork.Proofs.Pattern.Version

namespace Stitchwork.Pattern.Version

open Stitchwork.Number Stitchwork.Text

variable {s rest ds : List Char} {c : Char} {v : Version} {p : Char → Bool}

/-! ## Long numbers -/

theorem hasLongRun_digits {limit : Nat} (hds : ∀ c ∈ ds, isPlainDigit c) (hrest : NoDigitFirst rest) (run : Nat) :
    hasLongRun limit run (ds ++ rest) = (decide (limit < run + ds.length) || hasLongRun limit 0 rest) := by
  induction ds generalizing run with
  | nil =>
    cases rest with
    | nil => simp [hasLongRun]
    | cons c rest =>
      have hc := hrest c (by simp)
      rw [List.nil_append, hasLongRun, hasLongRun, hc]
      simp
  | cons d ds ih =>
    rw [List.forall_mem_cons] at hds
    rw [List.cons_append, hasLongRun, if_pos hds.1, ih hds.2, List.length_cons]
    congr 2
    rw [Nat.add_assoc, Nat.add_comm 1]

theorem hasLongRun_cons {limit : Nat} (hc : isPlainDigit c = false) (s : List Char) :
    hasLongRun limit 0 (c :: s) = hasLongRun limit 0 s := by
  rw [hasLongRun, hc]
  simp

/-- No number in the text has too many digits. -/
def ShortRuns (s : List Char) : Prop :=
  ∀ ds, ds <:+: s → (∀ c ∈ ds, isPlainDigit c) → ds.length ≤ maxDigits

theorem ShortRuns.mono {t : List Char} (h : ShortRuns s) (ht : t <:+: s) : ShortRuns t :=
  fun ds hds hdigits => h ds (hds.trans ht) hdigits

theorem isPlainDigit_of_mem_takeWhile (h : c ∈ s.takeWhile isPlainDigit) : isPlainDigit c :=
  List.all_eq_true.1 List.all_takeWhile c h

theorem ShortRuns.takeWhile_le (h : ShortRuns s) : (s.takeWhile isPlainDigit).length ≤ maxDigits :=
  h _ (List.takeWhile_prefix _).isInfix fun _ => isPlainDigit_of_mem_takeWhile

theorem length_le_of_isPrefix (hds : ds <+: s) (hdigits : ∀ c ∈ ds, isPlainDigit c) :
    ds.length ≤ (s.takeWhile isPlainDigit).length := by
  obtain ⟨t, rfl⟩ := hds
  rw [List.takeWhile_append_of_pos hdigits, List.length_append]
  omega

theorem hasLongRun_eq_false {run : Nat} :
    hasLongRun maxDigits run s = false ↔
      run + (s.takeWhile isPlainDigit).length ≤ maxDigits ∧ ShortRuns s := by
  induction s generalizing run with
  | nil =>
    simp only [hasLongRun, decide_eq_false_iff_not, Nat.not_lt, List.takeWhile_nil, List.length_nil,
      Nat.add_zero]
    refine ⟨fun h => ⟨h, fun ds hds _ => ?_⟩, fun h => h.1⟩
    rw [List.infix_nil.1 hds]
    exact Nat.zero_le _
  | cons c s ih =>
    have hcons : ShortRuns (c :: s) ↔
        ((c :: s).takeWhile isPlainDigit).length ≤ maxDigits ∧ ShortRuns s := by
      constructor
      · exact fun h => ⟨h.takeWhile_le, h.mono (List.suffix_cons c s).isInfix⟩
      · rintro ⟨hfirst, hrest⟩ ds hds hdigits
        rcases List.infix_cons_iff.1 hds with hds | hds
        · exact Nat.le_trans (length_le_of_isPrefix hds hdigits) hfirst
        · exact hrest ds hds hdigits
    rw [hasLongRun, hcons]
    cases hc : isPlainDigit c with
    | true =>
      rw [if_pos rfl, ih, List.takeWhile_cons_of_pos hc, List.length_cons]
      constructor
      · exact fun h => ⟨by omega, by omega, h.2⟩
      · exact fun h => ⟨by omega, h.2.2⟩
    | false =>
      rw [if_neg (by simp), List.takeWhile_cons_of_neg (by simp [hc]), Bool.or_eq_false_iff, ih]
      simp only [decide_eq_false_iff_not, Nat.not_lt, List.length_nil, Nat.add_zero, Nat.zero_add,
        Nat.zero_le, true_and]
      constructor
      · exact fun h => ⟨h.1, h.2.2⟩
      · exact fun h => ⟨h.1, h.2.takeWhile_le, h.2⟩

theorem isTooLong_eq_false {s : String} : isTooLong s = false ↔ ShortRuns s.toList := by
  rw [isTooLong, hasLongRun_eq_false]
  refine ⟨fun h => h.2, fun h => ⟨?_, h⟩⟩
  rw [Nat.zero_add]
  exact h.takeWhile_le

theorem hasLongRun_append_cons {limit : Nat} (hc : isPlainDigit c = false) (s t : List Char) (run : Nat) :
    hasLongRun limit run (s ++ c :: t) = (hasLongRun limit run s || hasLongRun limit 0 t) := by
  induction s generalizing run with
  | nil => simp [hasLongRun, hc]
  | cons d s ih =>
    rw [List.cons_append, hasLongRun, hasLongRun, ih, ih]
    split
    · rfl
    · rw [Bool.or_assoc]

/-! ## Versions without long numbers -/

/-- The number can be written with as many digits as can be read. -/
def IsShort (n : Nat) : Prop := (Nat.toDigits 10 n).length ≤ maxDigits

theorem isShort_digitsValue (hds : ∀ c ∈ ds, isPlainDigit c) (h : ds.length ≤ maxDigits) : IsShort (digitsValue ds) :=
  length_toDigits_digitsValue hds (by decide) h

/-- No number in the version has too many digits. -/
structure Short (v : Version) : Prop where
  epoch : IsShort v.epoch
  release : ∀ n ∈ v.release, IsShort n
  pre : ∀ p ∈ v.pre, IsShort p.2
  post : ∀ n ∈ v.post, IsShort n
  dev : ∀ n ∈ v.dev, IsShort n
  parts : ∀ p ∈ v.localParts, ShortRuns (localText p).toList

theorem hasLongRun_number {n : Nat} (hn : IsShort n) (hrest : NoDigitFirst rest) :
    hasLongRun maxDigits 0 (Nat.toDigits 10 n ++ rest) = hasLongRun maxDigits 0 rest := by
  rw [hasLongRun_digits (fun _ => isPlainDigit_of_mem_toDigits) hrest, Nat.zero_add,
    decide_eq_false (Nat.not_lt.2 hn), Bool.false_or]

theorem hasLongRun_of_shortRuns (h : ShortRuns s) : hasLongRun maxDigits 0 s = false :=
  hasLongRun_eq_false.2 ⟨by rw [Nat.zero_add]; exact h.takeWhile_le, h⟩

theorem hasLongRun_localChars {parts : List LocalPart}
    (h : ∀ p ∈ parts, ShortRuns (localText p).toList) :
    hasLongRun maxDigits 0 (localChars parts) = false := by
  have hjoin : hasLongRun maxDigits 0 (join "." (parts.map localText)).toList = false := by
    have hsep : ".".toList = ['.'] := rfl
    rw [join, String.toList_ofList, hsep]
    induction parts with
    | nil => rfl
    | cons p parts ih =>
      rw [List.forall_mem_cons] at h
      cases parts with
      | nil => simpa using hasLongRun_of_shortRuns h.1
      | cons q parts =>
        have hrest := ih h.2
        rw [List.map_cons, List.map_cons] at hrest
        rw [List.map_cons, List.map_cons, List.map_cons, List.map_cons, List.intercalate_cons_cons,
          List.append_assoc, List.singleton_append, hasLongRun_append_cons (by decide), hrest,
          hasLongRun_of_shortRuns h.1, Bool.or_false]
  rw [localChars]
  split
  · rfl
  · rw [hasLongRun_cons (by decide), hjoin]

theorem hasLongRun_releaseTail {ns : List Nat} (hns : ∀ n ∈ ns, IsShort n) (hrest : NoDigitFirst rest) :
    hasLongRun maxDigits 0 (releaseTail ns ++ rest) = hasLongRun maxDigits 0 rest := by
  induction ns with
  | nil => rfl
  | cons n ns ih =>
    rw [List.forall_mem_cons] at hns
    have htail : releaseTail (n :: ns) ++ rest = '.' :: (Nat.toDigits 10 n ++ (releaseTail ns ++ rest)) := by
      simp [releaseTail]
    rw [htail, hasLongRun_cons (by decide), hasLongRun_number hns.1 (noDigitFirst_releaseTail ns hrest),
      ih hns.2]

theorem isTooLong_text (hv : v.Plain) (hshort : v.Short) : isTooLong v.text = false := by
  obtain ⟨n, ns, hrelease⟩ := List.exists_cons_of_ne_nil hv.release
  have hnumbers := hshort.release
  rw [hrelease, List.forall_mem_cons] at hnumbers
  have htail := noDigitFirst_preChars v.pre v.post v.dev v.localParts
  -- part by part from the back: no part begins with a digit, so no run of digits goes on into the next one
  have hdev : hasLongRun maxDigits 0 (devChars v.dev ++ localChars v.localParts) = false := by
    cases hd : v.dev with
    | none => exact hasLongRun_localChars hshort.parts
    | some m =>
      simp only [devChars, List.cons_append]
      rw [hasLongRun_cons (by decide), hasLongRun_cons (by decide), hasLongRun_cons (by decide),
        hasLongRun_cons (by decide), hasLongRun_number (hshort.dev m hd) (noDigitFirst_localChars _),
        hasLongRun_localChars hshort.parts]
  have hfirst : NoDigitFirst (devChars v.dev ++ localChars v.localParts) :=
    noDigitFirst_tail none v.dev v.localParts
  have hpost : hasLongRun maxDigits 0 (postChars v.post ++ (devChars v.dev ++ localChars v.localParts)) =
      false := by
    cases hp : v.post with
    | none => exact hdev
    | some m =>
      simp only [postChars, List.cons_append]
      rw [hasLongRun_cons (by decide), hasLongRun_cons (by decide), hasLongRun_cons (by decide),
        hasLongRun_cons (by decide), hasLongRun_cons (by decide),
        hasLongRun_number (hshort.post m hp) hfirst, hdev]
  have hpre : hasLongRun maxDigits 0 (preChars v.pre ++ (postChars v.post ++
      (devChars v.dev ++ localChars v.localParts))) = false := by
    cases hp : v.pre with
    | none => exact hpost
    | some p =>
      have hletters : ∀ k s, hasLongRun maxDigits 0 ((preText k).toList ++ s) = hasLongRun maxDigits 0 s := by
        intro k s
        cases k with
        | candidate => exact (hasLongRun_cons (by decide) _).trans (hasLongRun_cons (by decide) _)
        | _ => exact hasLongRun_cons (by decide) _
      rw [preChars, List.append_assoc, hletters, hasLongRun_number (hshort.pre p hp) (noDigitFirst_tail _ _ _),
        hpost]
  have hfrom : hasLongRun maxDigits 0 (Nat.toDigits 10 n ++ (releaseTail ns ++ (preChars v.pre ++
      (postChars v.post ++ (devChars v.dev ++ localChars v.localParts))))) = false := by
    rw [hasLongRun_number hnumbers.1 (noDigitFirst_releaseTail ns htail),
      hasLongRun_releaseTail hnumbers.2 htail, hpre]
  rw [isTooLong, toList_text v hrelease, epochChars]
  split
  · exact hfrom
  · rw [List.append_assoc, List.singleton_append, hasLongRun_append_cons (by decide), hfrom, Bool.or_false,
      ← List.append_nil (Nat.toDigits 10 v.epoch), hasLongRun_number hshort.epoch (by simp [NoDigitFirst])]
    rfl

/-! ## What reading leaves -/

/-- The second text stands at the end of the first, with every combining dot. -/
structure Leaves (s rest : List Char) : Prop where
  suffix : rest <:+ s
  dot : dotAbove ∈ s → dotAbove ∈ rest

theorem Leaves.refl (s : List Char) : Leaves s s := ⟨List.suffix_refl s, id⟩

theorem Leaves.trans {t u : List Char} (h : Leaves s t) (h' : Leaves t u) : Leaves s u :=
  ⟨h'.suffix.trans h.suffix, fun hs => h'.dot (h.dot hs)⟩

theorem leaves_cons (hc : c ≠ dotAbove) (s : List Char) : Leaves (c :: s) s := by
  refine ⟨List.suffix_cons c s, fun hs => ?_⟩
  rcases List.mem_cons.1 hs with h | h
  · exact absurd h.symm hc
  · exact h

theorem leaves_dropWhile (hp : p dotAbove = false) (s : List Char) : Leaves s (s.dropWhile p) := by
  induction s with
  | nil => exact .refl []
  | cons c s ih =>
    rw [List.dropWhile_cons]
    split
    · next hc =>
      refine (leaves_cons ?_ s).trans ih
      rintro rfl
      rw [hp] at hc
      cases hc
    · exact .refl _

theorem leaves_takeNumber (h : takeNumber s = (ds, rest)) : Leaves s rest := by
  cases h
  exact leaves_dropWhile (by decide) s

theorem leaves_dropSeparator (s : List Char) : Leaves s (dropSeparator s) := by
  cases s with
  | nil => exact .refl []
  | cons c s =>
    rw [dropSeparator]
    split
    · next hc =>
      refine leaves_cons ?_ s
      rintro rfl
      revert hc
      decide
    · exact .refl _

theorem leaves_afterLabel? {w : List Char} (hw : dotAbove ∉ w) (h : afterLabel? w s = some rest) : Leaves s rest := by
  induction w generalizing s with
  | nil =>
    cases h
    exact .refl rest
  | cons a w ih =>
    cases s with
    | nil => cases h
    | cons c s =>
      rw [List.mem_cons, not_or] at hw
      rw [afterLabel?] at h
      split at h
      · next hc =>
        refine (leaves_cons ?_ s).trans (ih hw.2 h)
        rintro rfl
        exact hw.1 (beq_iff_eq.1 hc).symm
      · cases h

/-- What is read as a label leaves the rest, and its number stood in the text. -/
theorem takeLabel_leaves {α : Type} {words : List (String × α)} (hwords : ∀ w ∈ words, dotAbove ∉ w.1.toList)
    {r : Option (α × Nat)} (h : takeLabel words s = (r, rest)) :
    Leaves s rest ∧ (ShortRuns s → ∀ p ∈ r, IsShort p.2) := by
  rw [takeLabel] at h
  split at h
  · next a after hword =>
    obtain ⟨w, hw, hafter⟩ := List.exists_of_findSome?_eq_some hword
    obtain ⟨t, ht, heq⟩ := Option.map_eq_some_iff.1 hafter
    cases heq
    have hbefore : Leaves s (dropSeparator after) := (leaves_dropSeparator s).trans
      ((leaves_afterLabel? (hwords w hw) ht).trans (leaves_dropSeparator after))
    dsimp only at h
    cases h
    refine ⟨hbefore.trans (leaves_takeNumber rfl), fun hshort p hp => ?_⟩
    cases hp
    have hruns := hshort.mono hbefore.suffix.isInfix
    exact isShort_digitsValue (fun _ => isPlainDigit_of_mem_takeWhile) hruns.takeWhile_le
  · cases h
    exact ⟨.refl s, fun _ p hp => by cases hp⟩

theorem takePost_leaves {r : Option Nat} (h : takePost s = (r, rest)) :
    Leaves s rest ∧ (ShortRuns s → ∀ n ∈ r, IsShort n) := by
  have hlabel : ∀ {r rest}, ((takeLabel postWords s).1.map (·.2), (takeLabel postWords s).2) = (r, rest) →
      Leaves s rest ∧ (ShortRuns s → ∀ n ∈ r, IsShort n) := by
    rintro r rest ⟨⟩
    obtain ⟨hleaves, hnumber⟩ := takeLabel_leaves (by decide) (rfl : takeLabel postWords s = (_, _))
    refine ⟨hleaves, fun hshort n hn => ?_⟩
    obtain ⟨p, hp, rfl⟩ := Option.map_eq_some_iff.1 hn
    exact hnumber hshort p hp
  cases s with
  | nil => exact hlabel h
  | cons c t =>
    by_cases hc : c = '-'
    · subst hc
      rw [takePost] at h
      dsimp only at h
      split at h
      · exact hlabel h
      · next ds after _ hnumber =>
        cases h
        have hdash := leaves_cons (c := '-') (by decide) t
        refine ⟨hdash.trans (leaves_takeNumber hnumber), fun hshort n hn => ?_⟩
        cases hn
        cases hnumber
        exact isShort_digitsValue (fun _ => isPlainDigit_of_mem_takeWhile)
          (hshort.mono hdash.suffix.isInfix).takeWhile_le
    · rw [takePost_eq (by simpa using hc)] at h
      exact hlabel h

theorem takeRelease_leaves {fuel : Nat} {ns : List Nat} (h : takeRelease fuel s = (ns, rest)) :
    Leaves s rest ∧ (ShortRuns s → ∀ n ∈ ns, IsShort n) := by
  induction fuel generalizing s ns rest with
  | zero =>
    cases h
    exact ⟨.refl s, by simp⟩
  | succ fuel ih =>
    unfold takeRelease at h
    split at h
    · next t =>
      split at h
      · cases h
        exact ⟨.refl _, by simp⟩
      · next ds after _ hnumber =>
        dsimp only at h
        cases h
        have hpoint := leaves_cons (c := '.') (by decide) t
        have hafter := hpoint.trans (leaves_takeNumber hnumber)
        obtain ⟨hleaves, hrest⟩ := ih (rfl : takeRelease fuel after = (_, _))
        refine ⟨hafter.trans hleaves, fun hshort => List.forall_mem_cons.2 ⟨?_, ?_⟩⟩
        · cases hnumber
          exact isShort_digitsValue (fun _ => isPlainDigit_of_mem_takeWhile)
            (hshort.mono hpoint.suffix.isInfix).takeWhile_le
        · exact hrest (hshort.mono hafter.suffix.isInfix)
    · cases h
      exact ⟨.refl s, by simp⟩

theorem leaves_dropV (s : List Char) : Leaves s (dropV s) := by
  unfold dropV
  split
  · exact leaves_cons (by decide) _
  · exact .refl s

theorem takeEpoch_leaves {n : Nat} (h : takeEpoch s = (n, rest)) : Leaves s rest ∧ (ShortRuns s → IsShort n) := by
  have hzero : IsShort 0 := show (Nat.toDigits 10 0).length ≤ maxDigits by decide
  unfold takeEpoch at h
  split at h
  · cases h
    exact ⟨.refl s, fun _ => hzero⟩
  · next ds after _ hnumber =>
    cases h
    refine ⟨(leaves_takeNumber hnumber).trans (leaves_cons (by decide) _), fun hshort => ?_⟩
    have hds : s.takeWhile isPlainDigit = ds := congrArg Prod.fst hnumber
    rw [← hds]
    exact isShort_digitsValue (fun _ => isPlainDigit_of_mem_takeWhile) hshort.takeWhile_le
  · cases h
    exact ⟨.refl s, fun _ => hzero⟩

/-- What a local part was read from. -/
def ReadPart (p : LocalPart) (word : List Char) : Prop :=
  word ≠ [] ∧ (∀ c ∈ word, isLocalChar c) ∧ p = partOf word

theorem takeLocal_inv {fuel : Nat} {parts : List LocalPart} (h : takeLocal fuel s = some parts) :
    dotAbove ∉ s ∧ ∀ p ∈ parts, ∃ word, word <:+: s ∧ ReadPart p word := by
  induction fuel generalizing s parts with
  | zero => cases h
  | succ fuel ih =>
    have hword : ∀ c ∈ s.takeWhile isLocalChar, isLocalChar c := List.all_eq_true.1 List.all_takeWhile
    have hsplit := List.takeWhile_append_dropWhile (p := isLocalChar) (l := s)
    have hfirst : (s.takeWhile isLocalChar).isEmpty = false →
        ∃ word, word <:+: s ∧ ReadPart (partOf (s.takeWhile isLocalChar)) word := fun hne =>
      ⟨_, (List.takeWhile_prefix _).isInfix, by simpa using hne, hword, rfl⟩
    have hdot : dotAbove ∈ s → dotAbove ∈ s.dropWhile isLocalChar :=
      (leaves_dropWhile (by decide) s).dot
    rw [takeLocal] at h
    split at h
    · cases h
    · next hne =>
      rw [Bool.not_eq_true] at hne
      split at h
      · next hrest =>
        cases h
        rw [hrest] at hdot
        refine ⟨fun hmem => (List.not_mem_nil (hdot hmem)), fun p hp => ?_⟩
        rw [List.mem_singleton.1 hp]
        exact hfirst hne
      · next c rest hrest =>
        split at h
        · next hc =>
          obtain ⟨parts', hparts, rfl⟩ := Option.map_eq_some_iff.1 h
          obtain ⟨hnone, hread⟩ := ih hparts
          have hsuffix : rest <:+ s := (List.suffix_cons c rest).trans (hrest ▸ List.dropWhile_suffix _)
          refine ⟨fun hmem => ?_, List.forall_mem_cons.2 ⟨hfirst hne, fun p hp => ?_⟩⟩
          · have hbehind := hdot hmem
            rw [hrest] at hbehind
            rcases List.mem_cons.1 hbehind with rfl | hbehind
            · exact absurd hc (by decide)
            · exact hnone hbehind
          · obtain ⟨word, hinside, hword⟩ := hread p hp
            exact ⟨word, hinside.trans hsuffix.isInfix, hword⟩
        · cases h

/-- What can be said of a version that has been read from `s`. -/
structure ReadFrom (v : Version) (s : List Char) : Prop where
  dot : dotAbove ∉ s
  release : v.release ≠ []
  parts : ∀ p ∈ v.localParts, ∃ word, word <:+: s ∧ ReadPart p word
  numbers : ShortRuns s → (∀ n ∈ v.release, IsShort n) ∧ (∀ p ∈ v.pre, IsShort p.2) ∧
    (∀ n ∈ v.post, IsShort n) ∧ ∀ n ∈ v.dev, IsShort n

theorem parseFrom_inv {epoch : Nat} (h : parseFrom epoch s = some v) : v.epoch = epoch ∧ v.ReadFrom s := by
  rw [parseFrom] at h
  split at h
  · cases h
  · next ds after _ hnumber =>
    have h₁ := leaves_takeNumber hnumber
    dsimp only at h
    rcases hr : takeRelease after.length after with ⟨ns, s₂⟩
    rw [hr] at h
    dsimp only at h
    obtain ⟨h₂, hns⟩ := takeRelease_leaves hr
    rcases hpre : takeLabel preWords s₂ with ⟨pre, s₃⟩
    rw [hpre] at h
    dsimp only at h
    obtain ⟨h₃, hpren⟩ := takeLabel_leaves (by decide) hpre
    rcases hpost : takePost s₃ with ⟨post, s₄⟩
    rw [hpost] at h
    dsimp only at h
    obtain ⟨h₄, hpostn⟩ := takePost_leaves hpost
    rcases hdev : takeLabel devWords s₄ with ⟨dev, s₅⟩
    rw [hdev] at h
    dsimp only at h
    obtain ⟨h₅, hdevn⟩ := takeLabel_leaves (by decide) hdev
    -- each part has been taken from what the part in front of it has left
    have l₂ := h₁.trans h₂
    have l₃ := l₂.trans h₃
    have l₄ := l₃.trans h₄
    have l₅ := l₄.trans h₅
    have hnumbers : ShortRuns s → (∀ n ∈ digitsValue ds :: ns, IsShort n) ∧ (∀ p ∈ pre, IsShort p.2) ∧
        (∀ n ∈ post, IsShort n) ∧ ∀ n ∈ dev.map (·.2), IsShort n := by
      intro hshort
      refine ⟨List.forall_mem_cons.2 ⟨?_, hns (hshort.mono h₁.suffix.isInfix)⟩,
        hpren (hshort.mono l₂.suffix.isInfix), hpostn (hshort.mono l₃.suffix.isInfix), fun n hn => ?_⟩
      · have hds : s.takeWhile isPlainDigit = ds := congrArg Prod.fst hnumber
        rw [← hds]
        exact isShort_digitsValue (fun _ => isPlainDigit_of_mem_takeWhile) hshort.takeWhile_le
      · obtain ⟨p, hp, rfl⟩ := Option.map_eq_some_iff.1 hn
        exact hdevn (hshort.mono l₄.suffix.isInfix) p hp
    split at h
    · cases h
      exact ⟨rfl, fun hdot => List.not_mem_nil (l₅.dot hdot), by simp, by simp, hnumbers⟩
    · next rest =>
      obtain ⟨parts, hparts, rfl⟩ := Option.map_eq_some_iff.1 h
      have l₆ := l₅.trans (leaves_cons (c := '+') (by decide) rest)
      obtain ⟨hnone, hread⟩ := takeLocal_inv hparts
      refine ⟨rfl, fun hdot => hnone (l₆.dot hdot), by simp, fun p hp => ?_, hnumbers⟩
      obtain ⟨word, hinside, hword⟩ := hread p hp
      exact ⟨word, hinside.trans l₆.suffix.isInfix, hword⟩
    · cases h

/-! ## Before reading: trimming and lowering -/

theorem trimBy_isInfix (p : Char → Bool) (s : List Char) : trimBy p s <:+: s := by
  obtain ⟨before, after, hs, -⟩ := exists_eq_append_trimBy p s
  exact ⟨before, after, hs.symm⟩

theorem mem_dropWhile_of_not (hc : p c = false) (h : c ∈ s) : c ∈ s.dropWhile p := by
  rw [← List.takeWhile_append_dropWhile (p := p) (l := s), List.mem_append] at h
  rcases h with h | h
  · have htrue := List.all_eq_true.1 List.all_takeWhile c h
    rw [hc] at htrue
    cases htrue
  · exact h

theorem mem_trimBy_of_not (hc : p c = false) (h : c ∈ s) : c ∈ trimBy p s := by
  rw [trimBy, List.mem_reverse]
  exact mem_dropWhile_of_not hc (List.mem_reverse.2 (mem_dropWhile_of_not hc h))

theorem isPlainDigit_of_lowerLetter (h : isPlainDigit (lowerLetter c)) : isPlainDigit c := by
  rw [lowerLetter] at h
  split at h
  · exact absurd h (by decide)
  · by_cases hupper : 65 ≤ c.toNat ∧ c.toNat ≤ 90
    · have hcode : c.toLower.toNat = c.toNat + 32 := by
        have hval : c.val ≥ 'A'.val ∧ c.val ≤ 'Z'.val :=
          ⟨UInt32.le_iff_toNat_le.2 hupper.1, UInt32.le_iff_toNat_le.2 hupper.2⟩
        unfold Char.toLower
        rw [dif_pos hval]
        change (c.val + 32).toNat = c.val.toNat + 32
        change 65 ≤ c.val.toNat ∧ c.val.toNat ≤ 90 at hupper
        rw [UInt32.toNat_add]
        change (c.val.toNat + 32) % 4294967296 = _
        omega
      rw [isPlainDigit_iff, hcode] at h
      omega
    · rwa [toLower_of_not_upper hupper] at h

theorem ShortRuns.prepared (h : ShortRuns s) : ShortRuns ((trimBy isBlank s).map lowerLetter) := by
  intro ds hds hdigits
  obtain ⟨t, ht, rfl⟩ := List.infix_map_iff.1 hds
  rw [List.length_map]
  refine h t (ht.trans (trimBy_isInfix _ s)) fun c hc => ?_
  exact isPlainDigit_of_lowerLetter (hdigits _ (List.mem_map_of_mem hc))

/-! ## Versions that have been read -/

theorem parse?_inv {s : String} (h : parse? s = some v) :
    dotAbove ∉ s.toList ∧ v.release ≠ [] ∧
      (∀ p ∈ v.localParts, ∃ word, (ShortRuns s.toList → ShortRuns word) ∧ ReadPart p word) ∧
      (ShortRuns s.toList → IsShort v.epoch ∧ (∀ n ∈ v.release, IsShort n) ∧ (∀ p ∈ v.pre, IsShort p.2) ∧
        (∀ n ∈ v.post, IsShort n) ∧ ∀ n ∈ v.dev, IsShort n) := by
  rw [parse?] at h
  rcases hepoch : takeEpoch (dropV ((trimBy isBlank s.toList).map lowerLetter)) with ⟨epoch, rest⟩
  rw [hepoch] at h
  obtain ⟨hleaves, hshortEpoch⟩ := takeEpoch_leaves hepoch
  have hall := (leaves_dropV ((trimBy isBlank s.toList).map lowerLetter)).trans hleaves
  obtain ⟨rfl, hread⟩ := parseFrom_inv h
  refine ⟨fun hdot => hread.dot (hall.dot (List.mem_map.2 ⟨dotAbove, ?_, by decide⟩)), hread.release,
    fun p hp => ?_, fun hshort => ⟨?_, hread.numbers (hshort.prepared.mono hall.suffix.isInfix)⟩⟩
  · exact mem_trimBy_of_not (by decide) hdot
  · obtain ⟨word, hinside, hword⟩ := hread.parts p hp
    exact ⟨word, fun hshort => hshort.prepared.mono (hinside.trans hall.suffix.isInfix), hword⟩
  · exact hshortEpoch (hshort.prepared.mono (leaves_dropV _).suffix.isInfix)

theorem plainPart_of_readPart {p : LocalPart} {word : List Char} (h : ReadPart p word)
    (hdot : dotAbove ∉ (localText p).toList) :
    PlainPart p ∧ (ShortRuns word → ShortRuns (localText p).toList) := by
  obtain ⟨hne, hchars, rfl⟩ := h
  rw [partOf] at hdot ⊢
  split
  · next hdigits =>
    refine ⟨trivial, fun hshort ds hds _ => ?_⟩
    have hlength : IsShort (digitsValue word) := by
      rw [List.all_eq_true] at hdigits
      exact isShort_digitsValue hdigits (hshort word List.infix_rfl hdigits)
    rw [localText, natText, String.toList_ofList] at hds
    exact Nat.le_trans hds.length_le hlength
  · next hdigits =>
    rw [if_neg hdigits, localText, String.toList_ofList] at hdot
    have hplain : ∀ c ∈ word, c ≠ dottedI := by
      rintro c hc rfl
      exact hdot (List.mem_flatMap.2 ⟨dottedI, hc, by decide⟩)
    have hletters := flatMap_localLetters hplain
    rw [PlainPart, localText, hletters, String.toList_ofList]
    refine ⟨⟨hne, fun c hc => ⟨hchars c hc, hplain c hc⟩, by simpa using hdigits⟩, id⟩

theorem mem_text_of_part {p : LocalPart} (hp : p ∈ v.localParts) (hrelease : v.release ≠ [])
    (hc : c ∈ (localText p).toList) : c ∈ v.text.toList := by
  obtain ⟨n, ns, hcons⟩ := List.exists_cons_of_ne_nil hrelease
  have hmem : c ∈ localChars v.localParts := by
    rw [localChars, if_neg (by simpa using List.ne_nil_of_mem hp), join, String.toList_ofList]
    exact List.mem_cons_of_mem _ (mem_intercalate_of_mem (List.mem_map_of_mem (List.mem_map_of_mem hp)) hc)
  rw [toList_text v hcons]
  simp only [List.mem_append]
  exact .inr (.inr (.inr (.inr (.inr (.inr hmem)))))

end Stitchwork.Pattern.Version

namespace Stitchwork.Pattern

open Stitchwork.Number Stitchwork.Text

theorem readVersion_eq_ok {s : String} {v : Version} (h : readVersion s = .ok v) :
    Version.parse? s = some v ∧ Version.isTooLong s = false := by
  rw [readVersion] at h
  split at h
  · next w hw =>
    split at h
    · cases h
    · next hlong =>
      cases h
      exact ⟨hw, by simpa using hlong⟩
  · cases h

/-- The spelling of a version that has been read is made of a few characters only. -/
theorem toNat_of_mem_text {s : String} {v : Version} (h : readVersion s = .ok v) {c : Char}
    (hc : c ∈ v.text.toList) : 0x20 ≤ c.toNat ∧ c.toNat < 0x400 := by
  obtain ⟨-, hrelease, hparts, -⟩ := Version.parse?_inv (readVersion_eq_ok h).1
  have hplain : Version.isVersionChar c → 0x20 ≤ c.toNat ∧ c.toNat < 0x400 := by
    intro hc
    have hcode := Version.toNat_of_isVersionChar hc
    omega
  rcases Version.mem_text hrelease hc with hc | ⟨p, hp, hc⟩
  · exact hplain hc
  · obtain ⟨word, -, -, hchars, rfl⟩ := hparts p hp
    rw [Version.partOf] at hc
    split at hc
    · rw [Version.localText, natText, String.toList_ofList] at hc
      exact hplain (Version.isVersionChar_of_isPlainDigit (isPlainDigit_of_mem_toDigits hc))
    · rw [Version.localText, String.toList_ofList] at hc
      obtain ⟨d, hd, hc⟩ := List.mem_flatMap.1 hc
      rw [Version.localLetters] at hc
      split at hc
      · simp only [List.mem_cons, List.not_mem_nil, or_false] at hc
        rcases hc with rfl | rfl <;> decide
      · next hne =>
        have hdotted : d ≠ Version.dottedI := by simpa [Version.dottedI] using hne
        rw [List.mem_singleton.1 hc] at hplain ⊢
        exact hplain (by simp [Version.isVersionChar, hchars d hd, hdotted])

/-- The spelling of a version that has been read can be read again, and then gives the version, unless there
is a combining dot in it. -/
theorem readVersion_text {s : String} {v : Version} (h : readVersion s = .ok v) :
    readVersion v.text = .ok v ↔ Version.dotAbove ∉ v.text.toList := by
  have hinv := readVersion_eq_ok h
  obtain ⟨-, hrelease, hparts, hnumbers⟩ := Version.parse?_inv hinv.1
  have hshort := Version.isTooLong_eq_false.1 hinv.2
  constructor
  · intro hread
    rw [readVersion] at hread
    split at hread
    · next w hw => exact (Version.parse?_inv hw).1
    · cases hread
  · intro hdot
    have hplain : ∀ p ∈ v.localParts, Version.PlainPart p ∧ Version.ShortRuns (Version.localText p).toList := by
      intro p hp
      obtain ⟨word, hword, hread⟩ := hparts p hp
      obtain ⟨hpart, hruns⟩ := Version.plainPart_of_readPart hread fun hmem =>
        hdot (Version.mem_text_of_part hp hrelease hmem)
      exact ⟨hpart, hruns (hword hshort)⟩
    obtain ⟨hepoch, hrel, hpre, hpost, hdev⟩ := hnumbers hshort
    have hv : v.Plain := ⟨hrelease, fun p hp => (hplain p hp).1⟩
    rw [readVersion, Version.parse?_text hv]
    dsimp only
    rw [Version.isTooLong_text hv ⟨hepoch, hrel, hpre, hpost, hdev, fun p hp => (hplain p hp).2⟩]
    rfl

end Stitchwork.Pattern
