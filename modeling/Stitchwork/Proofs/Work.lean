/- # Stitchwork.Proofs.Work — reasoning about work that draws identifiers and can fail.

Two views of a piece of work are enough.  `Ensures x Q` says what holds of every result that `x` can give,
whatever has been drawn before.  `Gives x a` says that `x` succeeds with `a` and draws nothing.
-/
import Stitchwork.Error

namespace Stitchwork

variable {α β : Type}

/-- A result behind another: the first is there, and the second is made from it. -/
theorem bind_eq_ok {ε : Type} {x : Except ε α} {f : α → Except ε β} {b : β} :
    x >>= f = .ok b ↔ ∃ a, x = .ok a ∧ f a = .ok b := by
  cases x with
  | error e =>
    constructor
    · intro h
      cases h
    · rintro ⟨a, h, -⟩
      cases h
  | ok a =>
    constructor
    · intro h
      exact ⟨a, rfl, h⟩
    · rintro ⟨_, ⟨⟩, h⟩
      exact h

/-- A result behind another fails where the first fails, and where the second does. -/
theorem bind_eq_error {ε : Type} {x : Except ε α} {f : α → Except ε β} {e : ε} :
    x >>= f = .error e ↔ x = .error e ∨ ∃ a, x = .ok a ∧ f a = .error e := by
  cases x with
  | error e' => simp [bind, Except.bind]
  | ok a => simp [bind, Except.bind]

theorem map_eq_error {ε : Type} {x : Except ε α} {f : α → β} {e : ε} : x.map f = .error e ↔ x = .error e := by
  cases x with
  | error e' => simp [Except.map]
  | ok a => simp [Except.map]

theorem bind_ne_error {ε : Type} {x : Except ε α} {f : α → Except ε β} {e : ε} (hx : x ≠ .error e)
    (hf : ∀ a, f a ≠ .error e) : x >>= f ≠ .error e := by
  cases x with
  | error e' => exact fun h => hx (congrArg Except.error (Except.error.inj h))
  | ok a => exact hf a

theorem map_eq_ok {ε : Type} {x : Except ε α} {f : α → β} {b : β} :
    x.map f = .ok b ↔ ∃ a, x = .ok a ∧ f a = b := by
  cases x with
  | error e => simp [Except.map]
  | ok a => simp [Except.map]

@[simp] theorem mapError_eq_ok {ε δ : Type} {x : Except ε α} {f : ε → δ} {a : α} :
    x.mapError f = .ok a ↔ x = .ok a := by
  cases x with
  | error e => constructor <;> intro h <;> cases h
  | ok b => constructor <;> intro h <;> cases h <;> rfl

/-- Every result of the work has the property. -/
def Ensures (x : Work α) (Q : α → Prop) : Prop :=
  ∀ n a n', x.run.run n = (.ok a, n') → Q a

/-- The work succeeds with the given result and draws no identifier. -/
def Gives (x : Work α) (a : α) : Prop := ∀ n, x.run.run n = (.ok a, n)

/-- Work behind other work: the first part succeeds, and the second goes on from there. -/
theorem run_bind_eq_ok {x : Work α} {f : α → Work β} {n n' : Nat} {b : β}
    (h : (x >>= f).run.run n = (.ok b, n')) :
    ∃ a m, x.run.run n = (.ok a, m) ∧ (f a).run.run m = (.ok b, n') := by
  simp only [ExceptT.run_bind, StateT.run_bind] at h
  rcases hx : x.run.run n with ⟨r, m⟩
  rw [hx] at h
  cases r with
  | error e => cases h
  | ok a => exact ⟨a, m, rfl, h⟩

theorem run_liftExcept_eq_ok {r : Except Error α} {a : α} {n n' : Nat}
    (h : (liftExcept r).run.run n = (.ok a, n')) : r = .ok a ∧ n' = n := by
  cases r with
  | error e => cases h
  | ok b =>
    cases h
    exact ⟨rfl, rfl⟩

/-! ## What results have in common -/

theorem ensures_pure {Q : α → Prop} {a : α} (h : Q a) : Ensures (pure a) Q := by
  intro n b n' hrun
  cases hrun
  exact h

theorem ensures_throw {Q : α → Prop} (e : Error) : Ensures (throw e) Q := by
  intro n b n' hrun
  cases hrun

theorem ensures_liftExcept {Q : α → Prop} {r : Except Error α} (h : ∀ a, r = .ok a → Q a) :
    Ensures (liftExcept r) Q := by
  intro n a n' hrun
  cases r with
  | error e => cases hrun
  | ok b =>
    cases hrun
    exact h a rfl

theorem ensures_freshIdentifier {Q : String → Prop} (h : ∀ n, Q (identifier n)) :
    Ensures freshIdentifier Q := by
  intro n a n' hrun
  cases hrun
  exact h (n + 1)

theorem ensures_bind {P : α → Prop} {Q : β → Prop} {x : Work α} {f : α → Work β}
    (hx : Ensures x P) (hf : ∀ a, P a → Ensures (f a) Q) : Ensures (x >>= f) Q := by
  intro n b n' hrun
  obtain ⟨a, m, hrun₁, hrun₂⟩ := run_bind_eq_ok hrun
  exact hf a (hx n a m hrun₁) m b n' hrun₂

theorem Ensures.mono {P Q : α → Prop} {x : Work α} (hx : Ensures x P) (h : ∀ a, P a → Q a) :
    Ensures x Q :=
  fun n a n' hrun => h a (hx n a n' hrun)

theorem Ensures.and {P Q : α → Prop} {x : Work α} (hP : Ensures x P) (hQ : Ensures x Q) :
    Ensures x fun a => P a ∧ Q a :=
  fun n a n' hrun => ⟨hP n a n' hrun, hQ n a n' hrun⟩

/-- What every step keeps, the whole run keeps. -/
theorem ensures_foldlM {I : β → Prop} {f : β → α → Work β} (xs : List α)
    (hstep : ∀ b, ∀ x ∈ xs, I b → Ensures (f b x) I) {b : β} (hb : I b) :
    Ensures (xs.foldlM f b) I := by
  induction xs generalizing b with
  | nil => exact ensures_pure hb
  | cons x xs ih =>
    rw [List.foldlM_cons]
    refine ensures_bind (hstep b x (by simp) hb) fun b' hb' => ?_
    exact ih (fun c y hy => hstep c y (List.mem_cons_of_mem _ hy)) hb'

/-! ## Work that draws nothing -/

theorem gives_pure (a : α) : Gives (pure a) a := fun _ => rfl

theorem gives_liftExcept {r : Except Error α} {a : α} (h : r = .ok a) : Gives (liftExcept r) a := by
  subst h
  exact fun _ => rfl

theorem gives_bind {x : Work α} {f : α → Work β} {a : α} {b : β} (hx : Gives x a)
    (hf : Gives (f a) b) : Gives (x >>= f) b := by
  intro n
  simp only [ExceptT.run_bind, StateT.run_bind, hx n]
  exact hf n

/-! ## Reports that are not made -/

/-- Is the report one that no step makes by itself: that a config does not allow a value, or that blocks or files
stand too deep in each other? -/
def isForeign : Error → Bool
  | .notAllowed _ _ => true
  | .tooDeep => true
  | _ => false

/-- The result is not the given report. -/
def Avoids (bad : Error) (r : Except Error α) : Prop := r ≠ .error bad

section

variable {bad : Error}

theorem avoids_ok (a : α) : Avoids bad (.ok a) := nofun

/-- A report of one class is not one of another. -/
theorem avoids_error {P : Error → Bool} (hbad : P bad) {e : Error} (he : P e = false) :
    Avoids bad (.error e : Except Error α) := by
  rintro ⟨⟩
  rw [hbad] at he
  cases he

/-- A report that is passed on. -/
theorem avoids_passed {r : Except Error α} {e : Error} (hr : Avoids bad r) (h : r = .error e) :
    Avoids bad (.error e : Except Error β) := by
  rintro ⟨⟩
  exact hr h

theorem avoids_bind_of_ok {r : Except Error α} {f : α → Except Error β} (hr : Avoids bad r)
    (hf : ∀ a, r = .ok a → Avoids bad (f a)) : Avoids bad (r >>= f) := by
  cases r with
  | error e => exact fun h => hr (congrArg Except.error (Except.error.inj h))
  | ok a => exact hf a rfl

theorem avoids_bind {r : Except Error α} {f : α → Except Error β} (hr : Avoids bad r)
    (hf : ∀ a, Avoids bad (f a)) : Avoids bad (r >>= f) :=
  avoids_bind_of_ok hr fun a _ => hf a

theorem avoids_mapError {P : Error → Bool} (hbad : P bad) {ε : Type} {r : Except ε α} {f : ε → Error}
    (h : ∀ e, P (f e) = false) : Avoids bad (r.mapError f) := by
  cases r with
  | error e => exact avoids_error hbad (h e)
  | ok a => exact avoids_ok a

theorem avoids_optionMapM {f : α → Except Error β} (hf : ∀ a, Avoids bad (f a)) (x : Option α) :
    Avoids bad (x.mapM f) := by
  cases x with
  | none => exact avoids_ok none
  | some a => exact avoids_bind (hf a) fun _ => avoids_ok _

theorem avoids_listMapM {f : α → Except Error β} {xs : List α} (hf : ∀ a ∈ xs, Avoids bad (f a)) :
    Avoids bad (xs.mapM f) := by
  induction xs with
  | nil => exact avoids_ok []
  | cons x xs ih =>
    rw [List.forall_mem_cons] at hf
    rw [List.mapM_cons]
    exact avoids_bind hf.1 fun _ => avoids_bind (ih hf.2) fun _ => avoids_ok _

end

/-- The work does not end with the given report, whatever has been drawn before. -/
def Spares (bad : Error) (x : Work α) : Prop := ∀ n, Avoids bad (x.run.run n).1

section

variable {bad : Error}

theorem spares_pure (a : α) : Spares bad (pure a) := fun _ => avoids_ok a

theorem spares_liftExcept {r : Except Error α} (h : Avoids bad r) : Spares bad (liftExcept r) := by
  intro n
  cases r with
  | error e => exact h
  | ok a => exact avoids_ok a

theorem spares_freshIdentifier : Spares bad freshIdentifier := fun _ => avoids_ok _

theorem spares_bind {x : Work α} {f : α → Work β} (hx : Spares bad x) (hf : ∀ a, Spares bad (f a)) :
    Spares bad (x >>= f) := by
  intro n
  have hfirst := hx n
  rcases hrun : x.run.run n with ⟨r, m⟩
  rw [hrun] at hfirst
  simp only [ExceptT.run_bind, StateT.run_bind, hrun]
  cases r with
  | error e => exact fun h => hfirst (congrArg Except.error (Except.error.inj h))
  | ok a => exact hf a m

/-- Where the first step is no more than a result, the second is only taken with what is there. -/
theorem spares_liftExcept_bind {r : Except Error α} {f : α → Work β} (hr : Avoids bad r)
    (hf : ∀ a, r = .ok a → Spares bad (f a)) : Spares bad (liftExcept r >>= f) := by
  cases r with
  | error e => exact spares_liftExcept (r := .error e) fun h => hr (by cases h; rfl)
  | ok a => exact hf a rfl

/-- What no step reports, the whole run does not report. -/
theorem spares_foldlM {f : β → α → Work β} (xs : List α) (hf : ∀ b, ∀ x ∈ xs, Spares bad (f b x)) (b : β) :
    Spares bad (xs.foldlM f b) := by
  induction xs generalizing b with
  | nil => exact spares_pure b
  | cons x xs ih =>
    rw [List.foldlM_cons]
    exact spares_bind (hf b x (by simp)) fun b' => ih (fun c y hy => hf c y (List.mem_cons_of_mem _ hy)) b'

end

/-! ## Work that goes as other work -/

/-- Whenever the first work succeeds, the second succeeds with a related result and draws the same. -/
def Mirrors (R : α → β → Prop) (x : Work α) (y : Work β) : Prop :=
  ∀ n a n', x.run.run n = (.ok a, n') → ∃ b, y.run.run n = (.ok b, n') ∧ R a b

section

variable {γ δ : Type} {R : α → β → Prop} {S : γ → δ → Prop}

theorem mirrors_pure {a : α} {b : β} (h : R a b) : Mirrors R (pure a) (pure b) := by
  intro n a' n' hrun
  cases hrun
  exact ⟨b, rfl, h⟩

theorem mirrors_self (x : Work α) : Mirrors Eq x x := fun _ a _ hrun => ⟨a, hrun, rfl⟩

theorem mirrors_liftExcept {r : Except Error α} {s : Except Error β}
    (h : ∀ a, r = .ok a → ∃ b, s = .ok b ∧ R a b) : Mirrors R (liftExcept r) (liftExcept s) := by
  intro n a n' hrun
  cases r with
  | error e => cases hrun
  | ok a' =>
    cases hrun
    obtain ⟨b, rfl, hb⟩ := h a rfl
    exact ⟨b, rfl, hb⟩

theorem mirrors_bind {x : Work α} {y : Work β} {f : α → Work γ} {g : β → Work δ} (hxy : Mirrors R x y)
    (hfg : ∀ a b, R a b → Mirrors S (f a) (g b)) : Mirrors S (x >>= f) (y >>= g) := by
  intro n c n' hrun
  obtain ⟨a, m, hx, hf⟩ := run_bind_eq_ok hrun
  obtain ⟨b, hy, hab⟩ := hxy n a m hx
  obtain ⟨d, hg, hcd⟩ := hfg a b hab m c n' hf
  refine ⟨d, ?_, hcd⟩
  simp only [ExceptT.run_bind, StateT.run_bind, hy]
  exact hg

/-- Runs whose steps go alike go alike. -/
theorem mirrors_foldlM {f : α → γ → Work α} {g : β → γ → Work β} (xs : List γ)
    (hstep : ∀ a b, ∀ x ∈ xs, R a b → Mirrors R (f a x) (g b x)) {a : α} {b : β} (hab : R a b) :
    Mirrors R (xs.foldlM f a) (xs.foldlM g b) := by
  induction xs generalizing a b with
  | nil => exact mirrors_pure hab
  | cons x xs ih =>
    rw [List.foldlM_cons, List.foldlM_cons]
    refine mirrors_bind (hstep a b x (by simp) hab) fun a' b' hab' => ?_
    exact ih (fun c d y hy => hstep c d y (List.mem_cons_of_mem _ hy)) hab'

end

end Stitchwork
