namespace Sveltify

/-!
# Insertion-ordered tables

A table maps names to values and remembers the order in which the names were first entered.

* `Table.insert`: a new name goes to the end, a name already present keeps its place and takes the
  new value;
* `Table.insertNew`: the same, but a name already present keeps its value too;
* `Table.get?`, `Table.keys`, `Table.values`: look-up and the two columns.
-/

/-- Names with values, in the order of first entry. -/
structure Table (α : Type) where
  entries : List (String × α)
deriving Repr, DecidableEq

namespace Table

variable {α : Type}

/-- The table without entries. -/
def empty : Table α := ⟨[]⟩

instance : Inhabited (Table α) := ⟨empty⟩
instance : EmptyCollection (Table α) := ⟨empty⟩

/-- Enter `v` under `k` in a list of entries. -/
def insertEntry (k : String) (v : α) : List (String × α) → List (String × α)
  | [] => [(k, v)]
  | (k', v') :: es => if k' = k then (k, v) :: es else (k', v') :: insertEntry k v es

/-- Enter `v` under `k`; a name already present keeps its place. -/
def insert (t : Table α) (k : String) (v : α) : Table α := ⟨insertEntry k v t.entries⟩

/-- The value under `k`. -/
def get? (t : Table α) (k : String) : Option α := t.entries.lookup k

/-- Is there an entry under `k`? -/
def contains (t : Table α) (k : String) : Bool := t.entries.any fun e => e.1 == k

/-- Enter `v` under `k` unless there is an entry under `k`. -/
def insertNew (t : Table α) (k : String) (v : α) : Table α :=
  if t.contains k then t else t.insert k v

/-- The names, in order. -/
def keys (t : Table α) : List String := t.entries.map Prod.fst

/-- The values, in order. -/
def values (t : Table α) : List α := t.entries.map Prod.snd

/-- The number of entries. -/
def size (t : Table α) : Nat := t.entries.length

/-- Change every value, given its name. -/
def mapValues (f : String → α → α) (t : Table α) : Table α :=
  ⟨t.entries.map fun e => (e.1, f e.1 e.2)⟩

@[simp] theorem keys_empty : (empty : Table α).keys = [] := rfl

@[simp] theorem values_empty : (empty : Table α).values = [] := rfl

@[simp] theorem keys_mapValues (f : String → α → α) (t : Table α) :
    (t.mapValues f).keys = t.keys := by
  simp [keys, mapValues]

/-- The first entry answers for its own name. -/
theorem get?_cons (k j : String) (v : α) (es : List (String × α)) :
    (Table.mk ((k, v) :: es)).get? j = if j = k then some v else (Table.mk es).get? j := by
  by_cases h : j = k
  · simp [get?, h]
  · have hne : (j == k) = false := by simpa using h
    simp [get?, List.lookup_cons, h, hne]

/-- An entry changes what is found under its own name only. -/
theorem get?_insert (t : Table α) (k j : String) (v : α) :
    (t.insert k v).get? j = if j = k then some v else t.get? j := by
  obtain ⟨es⟩ := t
  induction es with
  | nil => exact get?_cons k j v []
  | cons e es ih =>
    obtain ⟨k', v'⟩ := e
    rw [get?_cons]
    by_cases hk : k' = k
    · subst hk
      rw [insert, insertEntry, if_pos rfl, get?_cons]
      by_cases hj : j = k' <;> simp [hj]
    · rw [insert, insertEntry, if_neg hk, get?_cons]
      by_cases hj : j = k'
      · subst hj
        simp [hk]
      · rw [if_neg hj, if_neg hj]
        exact ih

theorem contains_eq_isSome (t : Table α) (k : String) : t.contains k = (t.get? k).isSome := by
  obtain ⟨es⟩ := t
  induction es with
  | nil => rfl
  | cons e es ih =>
    obtain ⟨k', v⟩ := e
    rw [get?_cons]
    simp only [contains, List.any_cons] at ih ⊢
    by_cases hk : k = k'
    · simp [hk]
    · rw [if_neg hk, ← ih]
      simp [Ne.symm hk]

/-- A name that is present has a value, and they are an entry together. -/
theorem exists_entry_of_mem_keys {t : Table α} {k : String} (h : k ∈ t.keys) :
    ∃ v, t.get? k = some v ∧ (k, v) ∈ t.entries := by
  obtain ⟨es⟩ := t
  induction es with
  | nil => simp [keys] at h
  | cons e es ih =>
    obtain ⟨k', v⟩ := e
    rw [get?_cons]
    by_cases hk : k = k'
    · exact ⟨v, if_pos hk, by simp [hk]⟩
    · have rest : k ∈ (Table.mk es).keys := by simpa [keys, hk] using h
      obtain ⟨w, hget, hmem⟩ := ih rest
      exact ⟨w, by rw [if_neg hk, hget], List.mem_cons_of_mem _ hmem⟩

/-- A name already present keeps its value. -/
theorem get?_insertNew (t : Table α) (k j : String) (v : α) :
    (t.insertNew k v).get? j = if j = k then (t.get? k).or (some v) else t.get? j := by
  rw [insertNew, contains_eq_isSome]
  cases h : t.get? k with
  | none => simp [get?_insert]
  | some w =>
    by_cases hj : j = k
    · simp [hj, h]
    · simp [hj]

/-- A new name goes to the end, and a name already present keeps its place. -/
theorem keys_insert (t : Table α) (k : String) (v : α) :
    (t.insert k v).keys = if k ∈ t.keys then t.keys else t.keys ++ [k] := by
  obtain ⟨es⟩ := t
  induction es with
  | nil => simp [insert, insertEntry, keys]
  | cons e es ih =>
    obtain ⟨k', v'⟩ := e
    simp only [insert, keys] at ih
    by_cases hk : k' = k
    · simp [insert, insertEntry, keys, hk]
    · by_cases hm : k ∈ es.map Prod.fst <;> simp_all [insert, insertEntry, keys]
      · exact fun h => absurd h.symm hk

theorem mem_keys_insert {t : Table α} {k j : String} {v : α} :
    j ∈ (t.insert k v).keys ↔ j = k ∨ j ∈ t.keys := by
  rw [keys_insert]
  split
  case isTrue h =>
    constructor
    · exact .inr
    · rintro (rfl | h') <;> assumption
  case isFalse => simp [or_comm]

/-- The entries after `v` is entered under `k`: the new one, and old ones. -/
theorem mem_entries_of_insert {t : Table α} {k : String} {v : α} {e : String × α}
    (h : e ∈ (t.insert k v).entries) : e = (k, v) ∨ e ∈ t.entries := by
  obtain ⟨es⟩ := t
  induction es with
  | nil => simpa [insert, insertEntry] using h
  | cons e' es ih =>
    by_cases hk : e'.1 = k
    · simp only [insert, insertEntry, if_pos hk, List.mem_cons] at h
      exact h.imp_right (List.mem_cons_of_mem _)
    · simp only [insert, insertEntry, if_neg hk, List.mem_cons] at h ih
      rcases h with rfl | h
      · exact .inr (by simp)
      · exact (ih h).imp_right (List.mem_cons_of_mem _)

theorem mem_values_of_insert {t : Table α} {k : String} {v w : α}
    (h : w ∈ (t.insert k v).values) : w = v ∨ w ∈ t.values := by
  obtain ⟨e, he, rfl⟩ := List.mem_map.1 h
  rcases mem_entries_of_insert he with rfl | he
  · exact .inl rfl
  · exact .inr (List.mem_map_of_mem he)

theorem mem_entries_insert_self (t : Table α) (k : String) (v : α) :
    (k, v) ∈ (t.insert k v).entries := by
  obtain ⟨es⟩ := t
  induction es with
  | nil => simp [insert, insertEntry]
  | cons e es ih =>
    by_cases hk : e.1 = k
    · simp [insert, insertEntry, hk]
    · simp only [insert, insertEntry, if_neg hk] at ih ⊢
      exact List.mem_cons_of_mem _ ih

/-- An entry under another name stays. -/
theorem mem_entries_insert_of_ne {t : Table α} {k : String} {v : α} {e : String × α}
    (h : e ∈ t.entries) (hne : e.1 ≠ k) : e ∈ (t.insert k v).entries := by
  obtain ⟨es⟩ := t
  induction es with
  | nil => simp at h
  | cons e' es ih =>
    by_cases hk : e'.1 = k
    · simp only [insert, insertEntry, if_pos hk]
      rcases List.mem_cons.1 h with rfl | h
      · exact absurd hk hne
      · exact List.mem_cons_of_mem _ h
    · simp only [insert, insertEntry, if_neg hk] at ih ⊢
      rcases List.mem_cons.1 h with rfl | h
      · simp
      · exact List.mem_cons_of_mem _ (ih h)

theorem mem_values_insert_self (t : Table α) (k : String) (v : α) : v ∈ (t.insert k v).values :=
  List.mem_map_of_mem (mem_entries_insert_self t k v)

/-- Under a new name no value is lost. -/
theorem values_subset_insert {t : Table α} {k : String} (h : k ∉ t.keys) (v : α) :
    t.values ⊆ (t.insert k v).values := by
  intro w hw
  obtain ⟨e, he, rfl⟩ := List.mem_map.1 hw
  refine List.mem_map_of_mem (mem_entries_insert_of_ne he fun hk => h ?_)
  exact hk ▸ List.mem_map_of_mem he

end Table

end Sveltify
