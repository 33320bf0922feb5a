/- # Stitchwork.Proofs.Pattern.Version — the one spelling of a version reads as the version.

A version that has been read is written in one spelling, and reading that spelling gives the version again.
There is one exception: the dotted capital i is read in a local part, but its lower case is two characters,
of which the second, a combining dot, is not.
-/
import Stitchwork.Proofs.Number.Digits
import Stitchwork.Proofs.Text.Pieces
import Stitchwork.Pattern.Source

namespace Stitchwork.Pattern.Version

open Stitchwork.Number Stitchwork.Text

variable {c : Char} {rest s : List Char} {parts : List LocalPart} {v : Version}

/-- The combining dot above. -/
def dotAbove : Char := Char.ofNat 0x307

/-- The capital i with a dot. -/
def dottedI : Char := Char.ofNat 0x130

/-! ## Numbers at the front -/

/-- No digit comes first. -/
def NoDigitFirst (s : List Char) : Prop := ∀ c ∈ s.head?, isPlainDigit c = false

theorem takeNumber_append {ds : List Char} (hds : ∀ c ∈ ds, isPlainDigit c) (hrest : NoDigitFirst rest) :
    takeNumber (ds ++ rest) = (ds, rest) := by
  obtain ⟨htake, hdrop⟩ := takeWhile_append hds hrest
  rw [takeNumber, htake, hdrop]

theorem takeNumber_toDigits (n : Nat) (hrest : NoDigitFirst rest) :
    takeNumber (Nat.toDigits 10 n ++ rest) = (Nat.toDigits 10 n, rest) :=
  takeNumber_append (fun _ => isPlainDigit_of_mem_toDigits) hrest

theorem toDigits_cons (n : Nat) : ∃ d ds, Nat.toDigits 10 n = d :: ds ∧ isPlainDigit d := by
  cases h : Nat.toDigits 10 n with
  | nil => exact absurd h (Nat.toDigits_ne_nil)
  | cons d ds => exact ⟨d, ds, rfl, isPlainDigit_of_mem_toDigits (n := n) (by simp [h])⟩

/-! ## Labels -/

theorem labelLetter_of_isPlainDigit (h : isPlainDigit c) : labelLetter c = c := by
  rw [labelLetter, if_neg]
  simpa using ne_of_isPlainDigit h (by decide)

theorem afterLabel?_digit {a d : Char} (ha : isPlainDigit a = false) (hd : isPlainDigit d)
    (w s : List Char) : afterLabel? (a :: w) (d :: s) = none := by
  rw [afterLabel?, labelLetter_of_isPlainDigit hd, if_neg]
  simpa using (ne_of_isPlainDigit hd ha).symm

theorem isSeparator_of_isPlainDigit (h : isPlainDigit c) : isSeparator c = false := by
  have hne : c ≠ '-' ∧ c ≠ '_' ∧ c ≠ '.' :=
    ⟨ne_of_isPlainDigit h (by decide), ne_of_isPlainDigit h (by decide), ne_of_isPlainDigit h (by decide)⟩
  simp [isSeparator, hne]

theorem dropSeparator_toDigits (n : Nat) (rest : List Char) :
    dropSeparator (Nat.toDigits 10 n ++ rest) = Nat.toDigits 10 n ++ rest := by
  obtain ⟨d, ds, hds, hd⟩ := toDigits_cons n
  rw [hds, List.cons_append, dropSeparator, isSeparator_of_isPlainDigit hd]
  rfl

/-- A label with its number. -/
theorem takeLabel_some {α : Type} {words : List (String × α)} {s : List Char} {a : α} {n : Nat}
    {rest : List Char} (hword : takeWordOf words (dropSeparator s) = some (a, Nat.toDigits 10 n ++ rest))
    (hrest : NoDigitFirst rest) : takeLabel words s = (some (a, n), rest) := by
  rw [takeLabel, hword]
  dsimp only
  rw [dropSeparator_toDigits, takeNumber_toDigits n hrest]
  simp

theorem takeLabel_none {α : Type} {words : List (String × α)} (hword : takeWordOf words (dropSeparator s) = none) :
    takeLabel words s = (none, s) := by
  rw [takeLabel, hword]

/-! ## Writing, piece by piece -/

/-- The characters of the numbers behind the first one of a release. -/
def releaseTail (ns : List Nat) : List Char := ns.flatMap fun n => '.' :: Nat.toDigits 10 n

/-- The characters of a pre-release. -/
def preChars : Option (PreRelease × Nat) → List Char
  | some (k, n) => (preText k).toList ++ Nat.toDigits 10 n
  | none => []

/-- The characters of a post-release. -/
def postChars : Option Nat → List Char
  | some n => '.' :: 'p' :: 'o' :: 's' :: 't' :: Nat.toDigits 10 n
  | none => []

/-- The characters of a development release. -/
def devChars : Option Nat → List Char
  | some n => '.' :: 'd' :: 'e' :: 'v' :: Nat.toDigits 10 n
  | none => []

/-- The characters of a local version. -/
def localChars (parts : List LocalPart) : List Char :=
  if parts.isEmpty then [] else '+' :: (join "." (parts.map localText)).toList

/-- The characters of an epoch. -/
def epochChars (n : Nat) : List Char := if n = 0 then [] else Nat.toDigits 10 n ++ ['!']

theorem intercalate_release (n : Nat) (ns : List Nat) :
    (join "." ((n :: ns).map natText)).toList = Nat.toDigits 10 n ++ releaseTail ns := by
  have hsep : ".".toList = ['.'] := rfl
  rw [join, String.toList_ofList, hsep]
  induction ns generalizing n with
  | nil => simp [natText, releaseTail]
  | cons m ns ih =>
    rw [List.map_cons, List.map_cons, List.map_cons, List.map_cons, List.intercalate_cons_cons]
    have hrest := ih m
    rw [List.map_cons, List.map_cons] at hrest
    rw [hrest]
    simp [natText, releaseTail]

/-- The characters of a version. -/
theorem toList_text (v : Version) {n : Nat} {ns : List Nat} (h : v.release = n :: ns) :
    v.text.toList = epochChars v.epoch ++ (Nat.toDigits 10 n ++ (releaseTail ns ++ (preChars v.pre ++
      (postChars v.post ++ (devChars v.dev ++ localChars v.localParts))))) := by
  have hepoch : (if v.epoch = 0 then "" else natText v.epoch ++ "!").toList = epochChars v.epoch := by
    rw [epochChars]
    split
    · rfl
    · simp [natText]
  have hpre : (match v.pre with | some (k, n) => preText k ++ natText n | none => "").toList =
      preChars v.pre := by
    cases v.pre with
    | none => rfl
    | some p => simp [preChars, natText]
  have hpost : (match v.post with | some n => ".post" ++ natText n | none => "").toList =
      postChars v.post := by
    cases v.post with
    | none => rfl
    | some n => simp [postChars, natText]
  have hdev : (match v.dev with | some n => ".dev" ++ natText n | none => "").toList =
      devChars v.dev := by
    cases v.dev with
    | none => rfl
    | some n => simp [devChars, natText]
  have hlocal : (if v.localParts.isEmpty then "" else "+" ++ join "." (v.localParts.map localText)).toList =
      localChars v.localParts := by
    rw [localChars]
    split
    · rfl
    · simp
  unfold text
  simp only [String.toList_append, hepoch, hlocal, h, intercalate_release, List.append_assoc]
  exact hpre ▸ hpost ▸ hdev ▸ rfl

/-! ## Reading, piece by piece -/

theorem takeRelease_append (ns : List Nat) (hrest : NoDigitFirst rest) (hstop : ∀ s, rest = '.' :: s → NoDigitFirst s)
    {fuel : Nat} (hfuel : ns.length ≤ fuel) : takeRelease fuel (releaseTail ns ++ rest) = (ns, rest) := by
  induction ns generalizing fuel with
  | nil =>
    cases fuel with
    | zero => rfl
    | succ fuel =>
      change takeRelease (fuel + 1) rest = _
      unfold takeRelease
      split
      · next s =>
        have hnone : takeNumber ([] ++ s) = ([], s) := takeNumber_append (by simp) (hstop s rfl)
        rw [List.nil_append] at hnone
        rw [hnone]
      · rfl
  | cons n ns ih =>
    cases fuel with
    | zero => cases hfuel
    | succ fuel =>
      have hnext : NoDigitFirst (releaseTail ns ++ rest) := by
        cases ns with
        | nil => exact hrest
        | cons m ns => simp [NoDigitFirst, releaseTail, isPlainDigit]
      obtain ⟨d, ds, hds, -⟩ := toDigits_cons n
      have hnumber := takeNumber_toDigits n hnext
      have htail : releaseTail (n :: ns) ++ rest = '.' :: (Nat.toDigits 10 n ++ (releaseTail ns ++ rest)) := by
        simp [releaseTail]
      rw [htail, takeRelease, hnumber, hds]
      dsimp only
      rw [ih (by simpa using hfuel), ← hds, digitsValue_toDigits]

theorem noDigitFirst_localChars (parts : List LocalPart) : NoDigitFirst (localChars parts) := by
  rw [localChars]
  split
  · simp [NoDigitFirst]
  · simp [NoDigitFirst, isPlainDigit]

theorem takeDev_append (dev : Option Nat) (parts : List LocalPart) :
    takeLabel devWords (devChars dev ++ localChars parts) = (dev.map ((), ·), localChars parts) := by
  cases dev with
  | some n => exact takeLabel_some rfl (noDigitFirst_localChars parts)
  | none =>
    refine takeLabel_none ?_
    rw [devChars, List.nil_append, localChars]
    split
    · rfl
    · rfl

theorem takePost_eq (h : s.head? ≠ some '-') :
    takePost s = ((takeLabel postWords s).1.map (·.2), (takeLabel postWords s).2) := by
  cases s with
  | nil => rfl
  | cons c s =>
    rw [takePost]
    rintro rest ⟨⟩
    exact h rfl

theorem takePost_append (post dev : Option Nat) (parts : List LocalPart) :
    takePost (postChars post ++ (devChars dev ++ localChars parts)) =
      (post, devChars dev ++ localChars parts) := by
  have hlocal := noDigitFirst_localChars parts
  have hdev : NoDigitFirst (devChars dev ++ localChars parts) := by
    cases dev with
    | some m => simp [NoDigitFirst, devChars, isPlainDigit]
    | none => exact hlocal
  cases post with
  | some n =>
    rw [takePost_eq (by simp [postChars]), @takeLabel_some _ postWords _ _ _ _ rfl hdev]
    rfl
  | none =>
    rw [postChars, List.nil_append]
    have hword : takeWordOf postWords (dropSeparator (devChars dev ++ localChars parts)) = none := by
      cases dev with
      | some m => rfl
      | none =>
        rw [devChars, List.nil_append, localChars]
        split <;> rfl
    have hhead : (devChars dev ++ localChars parts).head? ≠ some '-' := by
      cases dev with
      | some m => simp [devChars]
      | none =>
        rw [devChars, List.nil_append, localChars]
        split <;> simp
    rw [takePost_eq hhead, takeLabel_none hword]
    rfl

theorem takeWordOf_cons {α : Type} (w : String) (a : α) (words : List (String × α)) (s : List Char) :
    takeWordOf ((w, a) :: words) s = ((afterLabel? w.toList s).map (a, ·)).or (takeWordOf words s) := by
  rw [takeWordOf, List.findSome?_cons, takeWordOf]
  dsimp only
  cases afterLabel? w.toList s <;> rfl

theorem takeWordOf_preText (k : PreRelease) (n : Nat) (rest : List Char) :
    takeWordOf preWords (dropSeparator ((preText k).toList ++ (Nat.toDigits 10 n ++ rest))) =
      some (k, Nat.toDigits 10 n ++ rest) := by
  obtain ⟨d, ds, hds, hd⟩ := toDigits_cons n
  rw [hds, List.cons_append]
  cases k with
  | alpha =>
    have halpha : afterLabel? "alpha".toList ('a' :: d :: (ds ++ rest)) = none :=
      afterLabel?_digit (by decide) hd _ _
    change takeWordOf preWords ('a' :: d :: (ds ++ rest)) = _
    rw [preWords, takeWordOf_cons, halpha]
    rfl
  | beta =>
    have hbeta : afterLabel? "beta".toList ('b' :: d :: (ds ++ rest)) = none :=
      afterLabel?_digit (by decide) hd _ _
    change takeWordOf preWords ('b' :: d :: (ds ++ rest)) = _
    rw [preWords, takeWordOf_cons, takeWordOf_cons, takeWordOf_cons, hbeta]
    rfl
  | candidate => rfl

theorem noDigitFirst_tail (post dev : Option Nat) (parts : List LocalPart) :
    NoDigitFirst (postChars post ++ (devChars dev ++ localChars parts)) := by
  cases post with
  | some n => simp [NoDigitFirst, postChars, isPlainDigit]
  | none =>
    cases dev with
    | some m => simp [NoDigitFirst, postChars, devChars, isPlainDigit]
    | none => exact noDigitFirst_localChars parts

/-- What can come first behind a release: a letter, a plus sign, or a point with a letter behind it. -/
theorem tail_cases (pre : Option (PreRelease × Nat)) (post dev : Option Nat) (parts : List LocalPart)
    (h : preChars pre ++ (postChars post ++ (devChars dev ++ localChars parts)) = c :: s) :
    c ∈ ['a', 'b', 'r', '+'] ∨ c = '.' ∧ ∃ d t, s = d :: t ∧ (d = 'p' ∨ d = 'd') := by
  cases pre with
  | some p =>
    obtain ⟨k, n⟩ := p
    cases k <;> cases h <;> exact .inl (by decide)
  | none =>
    cases post with
    | some n =>
      cases h
      exact .inr ⟨rfl, _, _, rfl, .inl rfl⟩
    | none =>
      cases dev with
      | some n =>
        cases h
        exact .inr ⟨rfl, _, _, rfl, .inr rfl⟩
      | none =>
        change localChars parts = c :: s at h
        rw [localChars] at h
        split at h
        · cases h
        · cases h
          exact .inl (by decide)

theorem noDigitFirst_preChars (pre : Option (PreRelease × Nat)) (post dev : Option Nat)
    (parts : List LocalPart) :
    NoDigitFirst (preChars pre ++ (postChars post ++ (devChars dev ++ localChars parts))) := by
  intro c hc
  obtain ⟨s, hs⟩ := List.head?_eq_some_iff.1 hc
  rcases tail_cases pre post dev parts hs with h | ⟨rfl, -⟩
  · exact Bool.eq_false_iff.2 (List.any_eq_false.1 (by decide : ['a', 'b', 'r', '+'].any isPlainDigit = false) c h)
  · decide

theorem noDigitFirst_point (pre : Option (PreRelease × Nat)) (post dev : Option Nat) (parts : List LocalPart)
    (h : preChars pre ++ (postChars post ++ (devChars dev ++ localChars parts)) = '.' :: s) : NoDigitFirst s := by
  rcases tail_cases pre post dev parts h with h | ⟨-, d, t, rfl, rfl | rfl⟩
  · exact absurd h (by decide)
  · simp [NoDigitFirst, isPlainDigit]
  · simp [NoDigitFirst, isPlainDigit]

theorem takePre_append (pre : Option (PreRelease × Nat)) (post dev : Option Nat) (parts : List LocalPart) :
    takeLabel preWords (preChars pre ++ (postChars post ++ (devChars dev ++ localChars parts))) =
      (pre, postChars post ++ (devChars dev ++ localChars parts)) := by
  cases pre with
  | some p =>
    obtain ⟨k, n⟩ := p
    rw [preChars, List.append_assoc]
    exact takeLabel_some (takeWordOf_preText k n _) (noDigitFirst_tail post dev parts)
  | none =>
    rw [preChars, List.nil_append]
    refine takeLabel_none ?_
    cases post with
    | some n => rfl
    | none =>
      cases dev with
      | some m => rfl
      | none =>
        rw [postChars, devChars, List.nil_append, List.nil_append, localChars]
        split <;> rfl

/-! ## Local parts -/

/-- The part is written as it is read: a word is not empty, does not look like a number, and has no dotted
capital i in it. -/
def PlainPart : LocalPart → Prop
  | .number _ => True
  | .word s => s.toList ≠ [] ∧ (∀ c ∈ s.toList, isLocalChar c ∧ c ≠ dottedI) ∧
      s.toList.all isPlainDigit = false

theorem isLocalChar_of_isPlainDigit (h : isPlainDigit c) : isLocalChar c := by
  simp [isLocalChar, h]

theorem localChars_of_plainPart {p : LocalPart} (h : PlainPart p) :
    (localText p).toList ≠ [] ∧ ∀ c ∈ (localText p).toList, isLocalChar c := by
  cases p with
  | number n =>
    rw [localText, natText, String.toList_ofList]
    exact ⟨Nat.toDigits_ne_nil, fun c hc => isLocalChar_of_isPlainDigit (isPlainDigit_of_mem_toDigits hc)⟩
  | word s => exact ⟨h.1, fun c hc => (h.2.1 c hc).1⟩

/-- The part that the characters of a word are. -/
def partOf (word : List Char) : LocalPart :=
  if word.all isPlainDigit then .number (digitsValue word)
  else .word (String.ofList (word.flatMap localLetters))

theorem flatMap_localLetters {word : List Char} (h : ∀ c ∈ word, c ≠ dottedI) :
    word.flatMap localLetters = word := by
  have hmap : word.map localLetters = word.map ([·]) := by
    refine List.map_congr_left fun c hc => ?_
    rw [localLetters, if_neg]
    simpa [dottedI] using h c hc
  rw [List.flatMap_def, hmap, ← List.flatMap_def, List.flatMap_singleton']

theorem partOf_localText {p : LocalPart} (h : PlainPart p) : partOf (localText p).toList = p := by
  cases p with
  | number n =>
    rw [localText, natText, String.toList_ofList, partOf, if_pos, digitsValue_toDigits]
    exact List.all_eq_true.2 fun c hc => isPlainDigit_of_mem_toDigits hc
  | word s =>
    rw [localText, partOf, if_neg (by simp [h.2.2]), flatMap_localLetters fun c hc => (h.2.1 c hc).2,
      String.ofList_toList]

/-- Taking one word off the front. -/
theorem takeLocal_word (fuel : Nat) {word rest : List Char} (hne : word ≠ []) (hword : ∀ c ∈ word, isLocalChar c)
    (hrest : ∀ c ∈ rest.head?, isLocalChar c = false) :
    takeLocal (fuel + 1) (word ++ rest) = match rest with
      | [] => some [partOf word]
      | c :: rest => if isSeparator c then (takeLocal fuel rest).map (partOf word :: ·) else none := by
  obtain ⟨htake, hdrop⟩ := takeWhile_append hword hrest
  rw [takeLocal, htake, hdrop, if_neg (by simpa using hne)]
  cases rest <;> rfl

theorem takeLocal_join (hne : parts ≠ []) (hparts : ∀ p ∈ parts, PlainPart p) {fuel : Nat}
    (hfuel : parts.length ≤ fuel) : takeLocal fuel (join "." (parts.map localText)).toList = some parts := by
  have hsep : ".".toList = ['.'] := rfl
  rw [join, String.toList_ofList, hsep]
  induction parts generalizing fuel with
  | nil => exact absurd rfl hne
  | cons p parts ih =>
    rw [List.forall_mem_cons] at hparts
    obtain ⟨hword, hchars⟩ := localChars_of_plainPart hparts.1
    cases fuel with
    | zero => cases hfuel
    | succ fuel =>
      cases parts with
      | nil =>
        have hone := @takeLocal_word fuel _ [] hword hchars (by simp)
        rw [List.append_nil, partOf_localText hparts.1] at hone
        simpa using hone
      | cons q parts =>
        rw [List.map_cons, List.map_cons, List.map_cons, List.map_cons, List.intercalate_cons_cons,
          List.append_assoc, List.singleton_append, takeLocal_word fuel hword hchars (by simp; decide)]
        have hfewer : (q :: parts).length ≤ fuel := by simpa using hfuel
        have hrest := ih (by simp) hparts.2 hfewer
        rw [List.map_cons, List.map_cons] at hrest
        dsimp only
        rw [hrest, partOf_localText hparts.1]
        rfl

/-! ## The characters of a version -/

/-- The characters that versions are written with. -/
def isVersionChar (c : Char) : Bool :=
  (isLocalChar c && c != dottedI) || c == '.' || c == '!' || c == '+'

theorem isVersionChar_of_isPlainDigit (h : isPlainDigit c) : isVersionChar c := by
  have hne := ne_of_isPlainDigit h (d := dottedI) (by decide)
  simp [isVersionChar, isLocalChar_of_isPlainDigit h, hne]

theorem isVersionChar_of_mem_preChars {pre : Option (PreRelease × Nat)} (h : c ∈ preChars pre) : isVersionChar c := by
  cases pre with
  | none => cases h
  | some p =>
    have hletters : ∀ k, ∀ c ∈ (preText k).toList, isVersionChar c := by
      intro k
      cases k <;> exact List.all_eq_true.1 (by decide)
    rcases List.mem_append.1 h with h | h
    · exact hletters p.1 c h
    · exact isVersionChar_of_isPlainDigit (isPlainDigit_of_mem_toDigits h)

theorem isVersionChar_of_mem_postChars {post : Option Nat} (h : c ∈ postChars post) : isVersionChar c := by
  cases post with
  | none => cases h
  | some n =>
    have hletters : ∀ c ∈ ['.', 'p', 'o', 's', 't'], isVersionChar c := List.all_eq_true.1 (by decide)
    rcases List.mem_append.1 (show c ∈ ['.', 'p', 'o', 's', 't'] ++ Nat.toDigits 10 n from h) with h | h
    · exact hletters c h
    · exact isVersionChar_of_isPlainDigit (isPlainDigit_of_mem_toDigits h)

theorem isVersionChar_of_mem_devChars {dev : Option Nat} (h : c ∈ devChars dev) : isVersionChar c := by
  cases dev with
  | none => cases h
  | some n =>
    have hletters : ∀ c ∈ ['.', 'd', 'e', 'v'], isVersionChar c := List.all_eq_true.1 (by decide)
    rcases List.mem_append.1 (show c ∈ ['.', 'd', 'e', 'v'] ++ Nat.toDigits 10 n from h) with h | h
    · exact hletters c h
    · exact isVersionChar_of_isPlainDigit (isPlainDigit_of_mem_toDigits h)

theorem mem_localChars (h : c ∈ localChars parts) : c = '+' ∨ c = '.' ∨ ∃ p ∈ parts, c ∈ (localText p).toList := by
  rw [localChars] at h
  split at h
  · cases h
  · rcases List.mem_cons.1 h with rfl | h
    · exact .inl rfl
    · rcases mem_join h with h | ⟨t, ht, hc⟩
      · exact .inr (.inl (List.mem_singleton.1 h))
      · obtain ⟨p, hp, rfl⟩ := List.mem_map.1 ht
        exact .inr (.inr ⟨p, hp, hc⟩)

/-- The version is written as it is read. -/
structure Plain (v : Version) : Prop where
  release : v.release ≠ []
  parts : ∀ p ∈ v.localParts, PlainPart p

theorem isVersionChar_of_mem_localText {p : LocalPart} (hp : PlainPart p) (h : c ∈ (localText p).toList) :
    isVersionChar c := by
  cases p with
  | number n =>
    rw [localText, natText, String.toList_ofList] at h
    exact isVersionChar_of_isPlainDigit (isPlainDigit_of_mem_toDigits h)
  | word s => simp [isVersionChar, hp.2.1 c h]

/-- The characters of a version, but for its local part. -/
theorem mem_text (hrelease : v.release ≠ []) (h : c ∈ v.text.toList) :
    isVersionChar c ∨ ∃ p ∈ v.localParts, c ∈ (localText p).toList := by
  obtain ⟨n, ns, hcons⟩ := List.exists_cons_of_ne_nil hrelease
  have hdigits : ∀ n, c ∈ Nat.toDigits 10 n → isVersionChar c := fun n hc =>
    isVersionChar_of_isPlainDigit (isPlainDigit_of_mem_toDigits hc)
  rw [toList_text v hcons] at h
  simp only [List.mem_append] at h
  rcases h with h | h | h | h | h | h | h
  · rw [epochChars] at h
    split at h
    · cases h
    · rcases List.mem_append.1 h with h | h
      · exact .inl (hdigits _ h)
      · rw [List.mem_singleton.1 h]
        exact .inl (by decide)
  · exact .inl (hdigits n h)
  · obtain ⟨m, -, h⟩ := List.mem_flatMap.1 h
    rcases List.mem_cons.1 h with rfl | h
    · exact .inl (by decide)
    · exact .inl (hdigits m h)
  · exact .inl (isVersionChar_of_mem_preChars h)
  · exact .inl (isVersionChar_of_mem_postChars h)
  · exact .inl (isVersionChar_of_mem_devChars h)
  · rcases mem_localChars h with rfl | rfl | h
    · exact .inl (by decide)
    · exact .inl (by decide)
    · exact .inr h

theorem isVersionChar_of_mem_text (hv : v.Plain) (h : c ∈ v.text.toList) : isVersionChar c := by
  rcases mem_text hv.release h with h | ⟨p, hp, h⟩
  · exact h
  · exact isVersionChar_of_mem_localText (hv.parts p hp) h

theorem toNat_of_isVersionChar (h : isVersionChar c) :
    (97 ≤ c.toNat ∧ c.toNat ≤ 122) ∨ (48 ≤ c.toNat ∧ c.toNat ≤ 57) ∨ c.toNat = 0x131 ∨ c.toNat = 0x17F ∨
      c.toNat = 46 ∨ c.toNat = 33 ∨ c.toNat = 43 := by
  simp only [isVersionChar, isLocalChar, Bool.or_eq_true, Bool.and_eq_true, beq_iff_eq, bne_iff_ne,
    decide_eq_true_eq, Char.le_def, UInt32.le_iff_toNat_le, isPlainDigit_iff] at h
  rcases h with ((⟨h, hne⟩ | rfl) | rfl) | rfl
  · rcases h with (((h | h) | rfl) | rfl) | rfl
    · exact .inl h
    · exact .inr (.inl h)
    · decide
    · exact absurd rfl hne
    · decide
  · decide
  · decide
  · decide

theorem toLower_of_not_upper (h : ¬(65 ≤ c.toNat ∧ c.toNat ≤ 90)) : c.toLower = c := by
  unfold Char.toLower
  rw [dif_neg]
  exact fun hupper => h ⟨UInt32.le_iff_toNat_le.1 hupper.1, UInt32.le_iff_toNat_le.1 hupper.2⟩

/-- Nothing is trimmed off a version, and nothing in it is lowered. -/
theorem isVersionChar_plain (h : isVersionChar c) : isBlank c = false ∧ lowerLetter c = c := by
  have hcode := toNat_of_isVersionChar h
  constructor
  · rw [Bool.eq_false_iff]
    simp only [isBlank, blankRanges, inRanges, covers, List.any_cons, List.any_nil, Bool.or_false,
      Bool.or_eq_true, Bool.and_eq_true, decide_eq_true_eq, ne_eq]
    omega
  · have hne : c ≠ Char.ofNat 0x212A := by
      rintro rfl
      revert hcode
      decide
    rw [lowerLetter, if_neg (by simpa using hne)]
    exact toLower_of_not_upper (by omega)

/-! ## Reading what has been written -/

theorem prepare_text (hv : v.Plain) : (trimBy isBlank v.text.toList).map lowerLetter = v.text.toList := by
  rw [trimBy_of_forall fun c hc => (isVersionChar_plain (isVersionChar_of_mem_text hv hc)).1]
  refine (List.map_congr_left fun c hc => ?_).trans (List.map_id _)
  exact (isVersionChar_plain (isVersionChar_of_mem_text hv hc)).2

theorem length_le_length_releaseTail (ns : List Nat) : ns.length ≤ (releaseTail ns).length := by
  induction ns with
  | nil => simp
  | cons n ns ih =>
    have htail : releaseTail (n :: ns) = '.' :: (Nat.toDigits 10 n ++ releaseTail ns) := by simp [releaseTail]
    rw [htail, List.length_cons, List.length_cons, List.length_append]
    omega

theorem length_le_length_join (parts : List LocalPart) (h : ∀ p ∈ parts, PlainPart p) :
    parts.length ≤ (join "." (parts.map localText)).toList.length := by
  have hsep : ".".toList = ['.'] := rfl
  rw [join, String.toList_ofList, hsep]
  induction parts with
  | nil => simp
  | cons p parts ih =>
    rw [List.forall_mem_cons] at h
    have hp := List.length_pos_iff.2 (localChars_of_plainPart h.1).1
    cases parts with
    | nil => simpa using Nat.succ_le_of_lt hp
    | cons q parts =>
      have hrest := ih h.2
      rw [List.map_cons, List.map_cons, List.map_cons, List.map_cons, List.intercalate_cons_cons]
      rw [List.map_cons, List.map_cons] at hrest
      simp only [List.length_append, List.length_cons] at hrest ⊢
      omega

theorem takeEpoch_append (epoch n : Nat) (hrest : NoDigitFirst rest) (hmark : ∀ s, rest ≠ '!' :: s) :
    takeEpoch (epochChars epoch ++ (Nat.toDigits 10 n ++ rest)) = (epoch, Nat.toDigits 10 n ++ rest) := by
  rw [epochChars]
  split
  · next hzero =>
    obtain ⟨d, ds, hds, -⟩ := toDigits_cons n
    rw [List.nil_append, takeEpoch, takeNumber_toDigits n hrest, hds]
    split
    · next h => cases h
    · next h =>
      cases h
      exact absurd rfl (hmark _)
    · rw [hzero]
  · obtain ⟨d, ds, hds, -⟩ := toDigits_cons epoch
    rw [List.append_assoc, List.singleton_append, takeEpoch,
      takeNumber_toDigits epoch (by simp [NoDigitFirst, isPlainDigit]), hds]
    change (digitsValue (d :: ds), _) = _
    rw [← hds, digitsValue_toDigits]

theorem noDigitFirst_releaseTail (ns : List Nat) (h : NoDigitFirst rest) : NoDigitFirst (releaseTail ns ++ rest) := by
  cases ns with
  | nil => exact h
  | cons n ns => simp [NoDigitFirst, releaseTail, isPlainDigit]

theorem parseFrom_append (epoch n : Nat) (ns : List Nat) (pre : Option (PreRelease × Nat)) (post dev : Option Nat)
    (hparts : ∀ p ∈ parts, PlainPart p) :
    parseFrom epoch (Nat.toDigits 10 n ++ (releaseTail ns ++ (preChars pre ++
      (postChars post ++ (devChars dev ++ localChars parts))))) =
      some ⟨epoch, n :: ns, pre, post, dev, parts⟩ := by
  have htail := noDigitFirst_preChars pre post dev parts
  have hfuel : ns.length ≤
      (releaseTail ns ++ (preChars pre ++ (postChars post ++ (devChars dev ++ localChars parts)))).length := by
    rw [List.length_append]
    exact Nat.le_add_right_of_le (length_le_length_releaseTail ns)
  have hrelease := takeRelease_append ns htail (fun s hs => noDigitFirst_point pre post dev parts hs) hfuel
  obtain ⟨d, ds, hds, -⟩ := toDigits_cons n
  rw [parseFrom, takeNumber_toDigits n (noDigitFirst_releaseTail ns htail), hds]
  dsimp only
  rw [hrelease]
  dsimp only
  rw [takePre_append]
  dsimp only
  rw [takePost_append]
  dsimp only
  rw [takeDev_append, ← hds, digitsValue_toDigits]
  have hdev : (dev.map ((), ·)).map (·.2) = dev := by
    cases dev <;> rfl
  dsimp only
  rw [hdev]
  cases parts with
  | nil => rfl
  | cons p parts =>
    change (takeLocal _ (join "." ((p :: parts).map localText)).toList).map _ = _
    rw [takeLocal_join (by simp) hparts (Nat.le_add_right_of_le (length_le_length_join _ hparts))]
    rfl

theorem dropV_toDigits (n : Nat) (rest : List Char) :
    dropV (Nat.toDigits 10 n ++ rest) = Nat.toDigits 10 n ++ rest := by
  obtain ⟨d, ds, hds, hd⟩ := toDigits_cons n
  rw [hds, List.cons_append, dropV]
  rintro r ⟨⟩
  cases hd

theorem parse?_text (hv : v.Plain) : parse? v.text = some v := by
  obtain ⟨n, ns, hrelease⟩ := List.exists_cons_of_ne_nil hv.release
  have htail := noDigitFirst_preChars v.pre v.post v.dev v.localParts
  have hmark : ∀ s, releaseTail ns ++ (preChars v.pre ++ (postChars v.post ++
      (devChars v.dev ++ localChars v.localParts))) ≠ '!' :: s := by
    intro s hs
    cases ns with
    | nil =>
      rcases tail_cases v.pre v.post v.dev v.localParts hs with h | ⟨h, -⟩
      · exact absurd h (by decide)
      · cases h
    | cons m ns => cases hs
  have hfirst : dropV v.text.toList = v.text.toList := by
    rw [toList_text v hrelease, epochChars]
    split
    · exact dropV_toDigits n _
    · rw [List.append_assoc]
      exact dropV_toDigits v.epoch _
  rw [parse?, prepare_text hv, hfirst, toList_text v hrelease,
    takeEpoch_append _ _ (noDigitFirst_releaseTail ns htail) hmark]
  dsimp only
  rw [parseFrom_append _ _ _ _ _ _ hv.parts, ← hrelease]

end Stitchwork.Pattern.Version
