/- # Stitchwork.Proofs.Table — what updates do to tables.

A table whose names are distinct is determined by its view `get?` up to the order of names.  Setting a name to
the value it has already changes nothing at all, not even the order, so updating twice with the same table is
the same as updating once.
-/
import Stitchwork.Table

namespace Stitchwork.Table

variable {α : Type}

/-! ## Entries and names -/

theorem valueIn?_eq_none_iff {k : String} {es : List (String × α)} :
    valueIn? k es = none ↔ k ∉ es.map (·.1) := by
  induction es with
  | nil => simp [valueIn?]
  | cons e es ih =>
    obtain ⟨i, v⟩ := e
    by_cases h : i = k
    · simp [valueIn?, h]
    · simp [valueIn?, h, Ne.symm h, ih]

theorem valueIn?_append (k : String) (es fs : List (String × α)) :
    valueIn? k (es ++ fs) = (valueIn? k es).or (valueIn? k fs) := by
  induction es with
  | nil => simp [valueIn?]
  | cons e es ih =>
    obtain ⟨i, v⟩ := e
    by_cases h : i = k <;> simp [valueIn?, h, ih]

/-- A name that is there has an entry with its value. -/
theorem mem_of_valueIn? {k : String} {v : α} {es : List (String × α)}
    (h : valueIn? k es = some v) : (k, v) ∈ es := by
  induction es with
  | nil => simp [valueIn?] at h
  | cons e es ih =>
    obtain ⟨i, w⟩ := e
    by_cases hi : i = k
    · simp only [valueIn?, hi, if_true, Option.some.injEq] at h
      simp [hi, h]
    · simp only [valueIn?, hi, if_false] at h
      exact List.mem_cons_of_mem _ (ih h)

/-- Where names are distinct, every entry is the one that is found. -/
theorem valueIn?_of_mem {k : String} {v : α} {es : List (String × α)}
    (hn : (es.map (·.1)).Nodup) (h : (k, v) ∈ es) : valueIn? k es = some v := by
  induction es with
  | nil => simp at h
  | cons e es ih =>
    obtain ⟨i, w⟩ := e
    simp only [List.map_cons, List.nodup_cons] at hn
    rcases List.mem_cons.mp h with heq | hmem
    · simp only [Prod.mk.injEq] at heq
      simp [valueIn?, heq]
    · have hik : i ≠ k := by
        rintro rfl
        exact hn.1 (List.mem_map.mpr ⟨_, hmem, rfl⟩)
      simp [valueIn?, hik, ih hn.2 hmem]

/-- Where names are distinct, the order of the entries does not matter. -/
theorem valueIn?_perm {es fs : List (String × α)} (hn : (es.map (·.1)).Nodup) (h : es.Perm fs) (k : String) :
    valueIn? k fs = valueIn? k es := by
  have hn' : (fs.map (·.1)).Nodup := (h.map _).nodup_iff.1 hn
  cases hk : valueIn? k es with
  | none =>
    rw [valueIn?_eq_none_iff] at hk ⊢
    rwa [← (h.map _).mem_iff]
  | some v => exact valueIn?_of_mem hn' (h.mem_iff.1 (mem_of_valueIn? hk))

theorem valueIn?_map (f : α → α) (k : String) (es : List (String × α)) :
    valueIn? k (es.map fun e => (e.1, f e.2)) = (valueIn? k es).map f := by
  induction es with
  | nil => rfl
  | cons e es ih =>
    obtain ⟨i, v⟩ := e
    by_cases h : i = k <;> simp [valueIn?, h, ih]

@[simp] theorem keys_empty : (empty : Table α).keys = [] := rfl

@[simp] theorem insertAll_nil (t : Table α) : t.insertAll [] = t := rfl

@[simp] theorem insertAll_cons (t : Table α) (e : String × α) (es : List (String × α)) :
    t.insertAll (e :: es) = (t.insert e.1 e.2).insertAll es := rfl

theorem nodup_keys_insert {t : Table α} (k : String) (v : α) (h : t.keys.Nodup) :
    (t.insert k v).keys.Nodup := by
  by_cases hk : k ∈ t.keys
  · rwa [keys_insert_of_mem v hk]
  · rw [keys_insert_of_not_mem v hk]
    exact List.nodup_append.mpr ⟨h, by simp, by simpa using fun a ha => ne_of_mem_of_not_mem ha hk⟩

theorem nodup_keys_insertAll (es : List (String × α)) {t : Table α} (h : t.keys.Nodup) :
    (t.insertAll es).keys.Nodup := by
  induction es generalizing t with
  | nil => exact h
  | cons e es ih => exact ih (nodup_keys_insert e.1 e.2 h)

theorem nodup_keys_ofList (es : List (String × α)) : (ofList es).keys.Nodup :=
  nodup_keys_insertAll es (by simp)

theorem mem_insertEntry {k : String} {v : α} {e : String × α} {es : List (String × α)}
    (h : e ∈ insertEntry k v es) : e = (k, v) ∨ e ∈ es := by
  induction es with
  | nil => exact .inl (List.mem_singleton.1 h)
  | cons f es ih =>
    rw [insertEntry] at h
    split at h
    · rcases List.mem_cons.1 h with h | h
      · exact .inl h
      · exact .inr (List.mem_cons_of_mem _ h)
    · rcases List.mem_cons.1 h with rfl | h
      · exact .inr (by simp)
      · exact (ih h).imp_right (List.mem_cons_of_mem _)

theorem mem_insertAll {e : String × α} (es : List (String × α)) {t : Table α}
    (h : e ∈ (t.insertAll es).entries) : e ∈ es ∨ e ∈ t.entries := by
  induction es generalizing t with
  | nil => exact .inr h
  | cons f es ih =>
    rcases ih h with h | h
    · exact .inl (List.mem_cons_of_mem _ h)
    · rcases mem_insertEntry h with rfl | h
      · exact .inl (by simp)
      · exact .inr h

/-- A table that is made of entries has no others. -/
theorem mem_ofList {e : String × α} {es : List (String × α)} (h : e ∈ (ofList es).entries) : e ∈ es :=
  (mem_insertAll es h).resolve_right List.not_mem_nil

/-- Removing a name changes that name and no other. -/
theorem get?_erase (t : Table α) (k j : String) : (t.erase k).get? j = if j = k then none else t.get? j := by
  obtain ⟨es⟩ := t
  simp only [erase, get?]
  induction es with
  | nil => simp [valueIn?]
  | cons e es ih =>
    obtain ⟨i, v⟩ := e
    rw [List.filter_cons]
    by_cases hi : i = k
    · subst hi
      by_cases hj : j = i
      · simpa [hj] using ih
      · simpa [valueIn?, hj, Ne.symm hj] using ih
    · simp only [bne_iff_ne, ne_eq, hi, not_false_eq_true, if_true, valueIn?, ih]
      by_cases hij : i = j
      · subst hij
        simp [hi]
      · simp [hij]

/-! ## Names that are new -/

/-- A name that is new goes behind the others. -/
theorem entries_insert_of_not_mem {t : Table α} {k : String} (v : α) (h : k ∉ t.keys) :
    (t.insert k v).entries = t.entries ++ [(k, v)] := by
  obtain ⟨es⟩ := t
  simp only [keys, insert] at h ⊢
  induction es with
  | nil => rfl
  | cons e es ih =>
    obtain ⟨i, w⟩ := e
    rw [List.map_cons, List.mem_cons, not_or] at h
    rw [insertEntry, if_neg (Ne.symm h.1), ih h.2, List.cons_append]

theorem entries_insertAll_of_nodup {t : Table α} {es : List (String × α)}
    (h : (t.keys ++ es.map (·.1)).Nodup) : (t.insertAll es).entries = t.entries ++ es := by
  induction es generalizing t with
  | nil => simp
  | cons e es ih =>
    have hnew : e.1 ∉ t.keys := fun hmem =>
      (List.nodup_append.mp h).2.2 e.1 hmem e.1 (by simp) rfl
    rw [insertAll_cons, ih, entries_insert_of_not_mem e.2 hnew, List.append_assoc,
      List.singleton_append]
    rw [keys_insert_of_not_mem e.2 hnew, List.append_assoc, List.singleton_append]
    exact h

/-- Names that are distinct make a table of just their entries. -/
theorem entries_ofList_of_nodup {es : List (String × α)} (h : (es.map (·.1)).Nodup) :
    (ofList es).entries = es :=
  entries_insertAll_of_nodup (by simpa using h)

/-! ## Setting a name to the value it has -/

/-- Setting a name to the value it has already changes nothing. -/
theorem insert_of_get?_eq_some {t : Table α} {k : String} {v : α} (h : t.get? k = some v) :
    t.insert k v = t := by
  obtain ⟨es⟩ := t
  simp only [get?, insert, Table.mk.injEq] at h ⊢
  induction es with
  | nil => simp [valueIn?] at h
  | cons e es ih =>
    obtain ⟨i, w⟩ := e
    by_cases hi : i = k
    · simp only [valueIn?, hi, if_true, Option.some.injEq] at h
      simp [insertEntry, hi, h]
    · simp only [valueIn?, hi, if_false] at h
      simp [insertEntry, hi, ih h]

/-- Setting names to the values they have already changes nothing. -/
theorem insertAll_of_forall_get? {t : Table α} {es : List (String × α)}
    (h : ∀ e ∈ es, t.get? e.1 = some e.2) : t.insertAll es = t := by
  induction es with
  | nil => rfl
  | cons e es ih =>
    have hhead : t.insert e.1 e.2 = t := insert_of_get?_eq_some (h e (by simp))
    have htail : t.insertAll es = t := ih fun f hf => h f (List.mem_cons_of_mem _ hf)
    rw [insertAll_cons, hhead, htail]

/-! ## The view of an update -/

/-- The value of a name after names have been set one after the other: the last one wins. -/
theorem get?_insertAll (t : Table α) (es : List (String × α)) (k : String) :
    (t.insertAll es).get? k = (valueIn? k es.reverse).or (t.get? k) := by
  induction es generalizing t with
  | nil => rfl
  | cons e es ih =>
    rw [insertAll_cons, ih, List.reverse_cons, valueIn?_append, Option.or_assoc, get?_insert]
    by_cases hk : k = e.1
    · simp [valueIn?, hk]
    · simp [valueIn?, hk, Ne.symm hk]

/-- The entries of a list, seen through the table that is made of them. -/
theorem get?_insertAll_ofList (t : Table α) (es : List (String × α)) (k : String) :
    (t.insertAll es).get? k = ((ofList es).get? k).or (t.get? k) := by
  simp [ofList, get?_insertAll]

/-- Where names are distinct, the first entry of a name is the last one. -/
theorem valueIn?_reverse {es : List (String × α)} (hn : (es.map (·.1)).Nodup) (k : String) :
    valueIn? k es.reverse = valueIn? k es := by
  cases h : valueIn? k es with
  | none =>
    rw [valueIn?_eq_none_iff] at h ⊢
    simpa using h
  | some v =>
    apply valueIn?_of_mem
    · rw [List.map_reverse]
      exact List.pairwise_reverse.mpr (hn.imp Ne.symm)
    · exact List.mem_reverse.mpr (mem_of_valueIn? h)

/-- After an update, a name has its value in the second table, and else the one in the first. -/
theorem get?_update (t : Table α) {u : Table α} (hu : u.keys.Nodup) (k : String) :
    (t.update u).get? k = (u.get? k).or (t.get? k) := by
  rw [update, get?_insertAll, valueIn?_reverse hu]
  rfl

/-- A table that has every entry of `u` is not changed by an update with `u`. -/
theorem update_of_forall_get? {t u : Table α} (h : ∀ e ∈ u.entries, t.get? e.1 = some e.2) :
    t.update u = t :=
  insertAll_of_forall_get? h

@[simp] theorem update_self {u : Table α} (hu : u.keys.Nodup) : u.update u = u :=
  update_of_forall_get? fun _ he => valueIn?_of_mem hu he

/-- Updating twice with one table is updating once. -/
@[simp] theorem update_update {t u : Table α} (hu : u.keys.Nodup) :
    (t.update u).update u = t.update u := by
  apply update_of_forall_get?
  intro e he
  have hfound : u.get? e.1 = some e.2 := valueIn?_of_mem hu he
  rw [get?_update t hu, hfound, Option.some_or]

end Stitchwork.Table
