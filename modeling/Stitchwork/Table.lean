/- # Stitchwork.Table — tables from names to values that remember the order of insertion.

Attributes of an element, parameters of a definition and the values a formula sees are all tables.
Setting a name that is already there keeps its place and replaces its value; a new name goes to the end.
-/

namespace Stitchwork

/-- A table from names to values, in the order in which the names were first set. -/
structure Table (α : Type) where
  entries : List (String × α)
deriving Repr, DecidableEq

namespace Table

variable {α β : Type}

/-- The table without names. -/
def empty : Table α := ⟨[]⟩

instance : Inhabited (Table α) := ⟨empty⟩

/-- The names, in order. -/
def keys (t : Table α) : List String := t.entries.map (·.1)

/-- The value of a name in a list of entries. -/
def valueIn? (k : String) : List (String × α) → Option α
  | [] => none
  | (i, v) :: rest => if i = k then some v else valueIn? k rest

/-- The value of a name. -/
def get? (t : Table α) (k : String) : Option α := valueIn? k t.entries

/-- Does the table have the name? -/
def contains (t : Table α) (k : String) : Bool := (t.get? k).isSome

/-- Sets a name in a list of entries. -/
def insertEntry (k : String) (v : α) : List (String × α) → List (String × α)
  | [] => [(k, v)]
  | (i, w) :: rest => if i = k then (k, v) :: rest else (i, w) :: insertEntry k v rest

/-- Sets a name: in its place if it is there, at the end otherwise. -/
def insert (t : Table α) (k : String) (v : α) : Table α := ⟨insertEntry k v t.entries⟩

/-- Removes a name. -/
def erase (t : Table α) (k : String) : Table α := ⟨t.entries.filter (·.1 != k)⟩

/-- Sets names one after the other. -/
def insertAll (t : Table α) (es : List (String × α)) : Table α :=
  es.foldl (fun t e => t.insert e.1 e.2) t

/-- The table that results from setting names one after the other, from nothing. -/
def ofList (es : List (String × α)) : Table α := empty.insertAll es

/-- Sets every name of `u` in `t`. -/
def update (t u : Table α) : Table α := t.insertAll u.entries

/-- Is the table without names? -/
def isEmpty (t : Table α) : Bool := t.entries.isEmpty

/-! ## What setting a name does to the view -/

theorem valueIn?_insertEntry (k j : String) (v : α) (es : List (String × α)) :
    valueIn? j (insertEntry k v es) = if j = k then some v else valueIn? j es := by
  induction es with
  | nil => simp [insertEntry, valueIn?, eq_comm]
  | cons e es ih =>
    obtain ⟨i, w⟩ := e
    by_cases hik : i = k
    · subst hik
      by_cases h : i = j
      · simp [insertEntry, valueIn?, h]
      · simp [insertEntry, valueIn?, h, Ne.symm h]
    · by_cases hij : i = j
      · subst hij
        simp [insertEntry, valueIn?, hik]
      · simp [insertEntry, valueIn?, hik, hij, ih]

/-- Setting a name changes that name and no other. -/
@[simp] theorem get?_insert (t : Table α) (k j : String) (v : α) :
    (t.insert k v).get? j = if j = k then some v else t.get? j :=
  valueIn?_insertEntry k j v t.entries

@[simp] theorem get?_empty (k : String) : (empty : Table α).get? k = none := rfl

/-- Setting a name that is there keeps the order of names. -/
theorem keys_insert_of_mem {t : Table α} {k : String} (v : α) (h : k ∈ t.keys) :
    (t.insert k v).keys = t.keys := by
  obtain ⟨es⟩ := t
  simp only [keys, insert] at h ⊢
  induction es with
  | nil => simp at h
  | cons e es ih =>
    by_cases hek : e.1 = k
    · simp [insertEntry, hek]
    · have hk : k ∈ es.map (·.1) := by
        rcases List.mem_cons.1 h with h | h
        · exact absurd h.symm hek
        · exact h
      simp [insertEntry, hek, ih hk]

/-- Setting a name that is not there puts it at the end. -/
theorem keys_insert_of_not_mem {t : Table α} {k : String} (v : α) (h : k ∉ t.keys) :
    (t.insert k v).keys = t.keys ++ [k] := by
  obtain ⟨es⟩ := t
  simp only [keys, insert] at h ⊢
  induction es with
  | nil => simp [insertEntry]
  | cons e es ih =>
    have hek : e.1 ≠ k := fun he => h (by simp [he])
    have hk : k ∉ es.map (·.1) := fun hm => h (by simp at hm ⊢; exact Or.inr hm)
    simp [insertEntry, hek, ih hk]

end Table

end Stitchwork
