/-
# Maps in the order of their keys

A finite map is the list of its entries, in strictly increasing order of the keys. So there is one
list for each map, two maps are equal when they answer alike, and a pass over the entries meets
the keys in order.
-/

namespace MiniSql

/-- A finite map. -/
structure SortedMap (κ α : Type) [LT κ] where
  entries : List (κ × α)
  sorted : entries.Pairwise fun a b => a.1 < b.1

namespace SortedMap

variable {κ α : Type} [LT κ]

/-- Maps with the same entries are the same. -/
theorem ext {m n : SortedMap κ α} (h : m.entries = n.entries) : m = n := by
  cases m; cases n; cases h; rfl

/-- The map without entries. -/
def empty : SortedMap κ α := ⟨[], .nil⟩

instance : Inhabited (SortedMap κ α) := ⟨empty⟩

/-- The keys, in order. -/
def keys (m : SortedMap κ α) : List κ := m.entries.map (·.1)

/-- The number of entries. -/
def size (m : SortedMap κ α) : Nat := m.entries.length

def isEmpty (m : SortedMap κ α) : Bool := m.entries.isEmpty

/-- The map with other values for its keys. -/
def map {β : Type} (f : α → β) (m : SortedMap κ α) : SortedMap κ β :=
  ⟨m.entries.map fun e => (e.1, f e.2), List.Pairwise.map _ (fun _ _ h => h) m.sorted⟩

/-- Two entries for one key are the same entry. -/
theorem entry_unique [Std.Irrefl (α := κ) (· < ·)] {m : SortedMap κ α} {e e' : κ × α}
    (h : e ∈ m.entries) (h' : e' ∈ m.entries) (hk : e.1 = e'.1) : e = e' := by
  obtain ⟨entries, sorted⟩ := m
  induction entries with
  | nil => cases h
  | cons d entries ih =>
    obtain ⟨hd, hs⟩ := List.pairwise_cons.1 sorted
    rcases List.mem_cons.1 h with rfl | hm <;> rcases List.mem_cons.1 h' with rfl | hm'
    · rfl
    · exact absurd (hk ▸ hd _ hm') (Std.Irrefl.irrefl _)
    · exact absurd (hk ▸ hd _ hm) (Std.Irrefl.irrefl _)
    · exact ih hs hm hm'

variable [DecidableEq κ]

/-- What a key stands for. -/
def get? (m : SortedMap κ α) (k : κ) : Option α := (m.entries.find? fun e => e.1 = k).map (·.2)

/-- The map has an entry for the key. -/
def contains (m : SortedMap κ α) (k : κ) : Bool := (m.get? k).isSome

/-- The map without its entry for a key. -/
def erase (m : SortedMap κ α) (k : κ) : SortedMap κ α :=
  ⟨m.entries.filter fun e => e.1 ≠ k, m.sorted.filter _⟩

/-- What is found is an entry. -/
theorem mem_entries_of_get? {m : SortedMap κ α} {k : κ} {a : α} (h : m.get? k = some a) :
    (k, a) ∈ m.entries := by
  obtain ⟨e, he, rfl⟩ := Option.map_eq_some_iff.1 h
  have hk := List.find?_some he
  simp only [decide_eq_true_eq] at hk
  subst hk
  exact List.mem_of_find?_eq_some he

/-- **The entries are what the map answers.** -/
theorem mem_entries_iff [Std.Irrefl (α := κ) (· < ·)] {m : SortedMap κ α} {k : κ} {a : α} :
    (k, a) ∈ m.entries ↔ m.get? k = some a := by
  refine ⟨fun h => ?_, mem_entries_of_get?⟩
  have hfound : (m.entries.find? fun e => e.1 = k).isSome :=
    List.find?_isSome.2 ⟨(k, a), h, by simp⟩
  obtain ⟨e, he⟩ := Option.isSome_iff_exists.1 hfound
  have hk : e.1 = k := by simpa using List.find?_some he
  have : e = (k, a) := entry_unique (List.mem_of_find?_eq_some he) h hk
  rw [get?, he, this]
  rfl

/-- Nothing is found in the empty map. -/
@[simp] theorem get?_empty (k : κ) : (empty : SortedMap κ α).get? k = none := rfl

/-- Erasing a key leaves the entries of the others. -/
@[simp] theorem mem_entries_erase {m : SortedMap κ α} {k : κ} {e : κ × α} :
    e ∈ (m.erase k).entries ↔ e ∈ m.entries ∧ e.1 ≠ k := by simp [erase]

/-- **Erasing takes one key away.** -/
theorem get?_erase (m : SortedMap κ α) (k k' : κ) :
    (m.erase k).get? k' = if k = k' then none else m.get? k' := by
  unfold get? erase
  rw [List.find?_filter]
  by_cases h : k = k'
  · simp [h]
  · rw [if_neg h]
    congr 2
    funext e
    by_cases he : e.1 = k'
    · simp [he, Ne.symm h]
    · simp [he]

variable [DecidableLT κ]

/-- Puts an entry in its place, instead of any other for its key. -/
def insertSorted (k : κ) (a : α) : List (κ × α) → List (κ × α)
  | [] => [(k, a)]
  | e :: es =>
    if k < e.1 then (k, a) :: e :: es
    else if e.1 = k then (k, a) :: es
    else e :: insertSorted k a es

/-- Inserting adds one entry. -/
theorem mem_insertSorted {k : κ} {a : α} {es : List (κ × α)} {e : κ × α}
    (h : e ∈ insertSorted k a es) : e = (k, a) ∨ e ∈ es := by
  induction es with
  | nil => simpa [insertSorted] using h
  | cons e' es ih =>
    unfold insertSorted at h
    split at h
    · simpa using h
    · split at h
      · rcases List.mem_cons.1 h with h | h
        · exact .inl h
        · exact .inr (List.mem_cons_of_mem _ h)
      · rcases List.mem_cons.1 h with h | h
        · exact .inr (h ▸ List.mem_cons_self)
        · rcases ih h with h | h
          · exact .inl h
          · exact .inr (List.mem_cons_of_mem _ h)

variable [Trans (α := κ) (· < ·) (· < ·) (· < ·)] [Std.Trichotomous (α := κ) (· < ·)]

/-- Inserting keeps the keys in order. -/
theorem pairwise_insertSorted {k : κ} {a : α} {es : List (κ × α)}
    (h : es.Pairwise fun a b => a.1 < b.1) :
    (insertSorted k a es).Pairwise fun a b => a.1 < b.1 := by
  induction es with
  | nil => simp [insertSorted]
  | cons e es ih =>
    obtain ⟨he, hes⟩ := List.pairwise_cons.1 h
    unfold insertSorted
    split
    · rename_i hlt
      refine List.pairwise_cons.2 ⟨fun e' he' => ?_, h⟩
      rcases List.mem_cons.1 he' with rfl | he'
      · exact hlt
      · exact Trans.trans hlt (he e' he')
    · rename_i hlt
      split
      · rename_i heq
        subst heq
        exact List.pairwise_cons.2 ⟨he, hes⟩
      · rename_i hne
        refine List.pairwise_cons.2 ⟨fun e' he' => ?_, ih hes⟩
        rcases mem_insertSorted he' with rfl | he'
        · apply Decidable.byContradiction
          intro hge
          exact hne (Std.Trichotomous.trichotomous _ _ hge hlt)
        · exact he e' he'

/-- The map with an entry for a key, instead of any it had. -/
def insert (m : SortedMap κ α) (k : κ) (a : α) : SortedMap κ α :=
  ⟨insertSorted k a m.entries, pairwise_insertSorted m.sorted⟩

omit [Trans (α := κ) (· < ·) (· < ·) (· < ·)] [Std.Trichotomous (α := κ) (· < ·)] in
/-- The key that was inserted is found, and the others as before. -/
theorem find?_insertSorted (k k' : κ) (a : α) (es : List (κ × α)) :
    ((insertSorted k a es).find? fun e => e.1 = k') =
      if k = k' then some (k, a) else es.find? fun e => e.1 = k' := by
  induction es with
  | nil => by_cases h : k = k' <;> simp [insertSorted, h]
  | cons e es ih =>
    unfold insertSorted
    split
    · by_cases h : k = k' <;> simp [h]
    · split
      · rename_i heq
        by_cases h : k = k' <;> simp [heq, h]
      · rename_i hne
        rw [List.find?_cons, ih, List.find?_cons]
        by_cases h : k = k'
        · simp [← h, hne]
        · simp [h]

/-- **Inserting sets one key.** -/
theorem get?_insert (m : SortedMap κ α) (k k' : κ) (a : α) :
    (m.insert k a).get? k' = if k = k' then some a else m.get? k' := by
  unfold get? insert
  rw [find?_insertSorted]
  split <;> rfl

/-- An entry after an insertion is the new one, or one for another key. -/
theorem mem_entries_insert [Std.Irrefl (α := κ) (· < ·)] {m : SortedMap κ α} {k : κ} {a : α}
    {e : κ × α} : e ∈ (m.insert k a).entries ↔ e = (k, a) ∨ e ∈ m.entries ∧ e.1 ≠ k := by
  obtain ⟨k', a'⟩ := e
  rw [mem_entries_iff, get?_insert, mem_entries_iff]
  by_cases h : k = k'
  · subst h
    simp [eq_comm]
  · simp [h, Ne.symm h]

/-! ## Other values -/

section Map

variable {β : Type} {f : α → β} {m : SortedMap κ α}

omit [Trans (α := κ) (· < ·) (· < ·) (· < ·)] [Std.Trichotomous (α := κ) (· < ·)] [DecidableLT κ] in
/-- Erasing a key goes with a change of the values. -/
theorem map_erase (k : κ) : (m.erase k).map f = (m.map f).erase k :=
  ext (List.filter_map (p := fun e : κ × β => decide (e.1 ≠ k))).symm

omit [Trans (α := κ) (· < ·) (· < ·) (· < ·)] [Std.Trichotomous (α := κ) (· < ·)] [DecidableLT κ] in
/-- A map has the same keys with other values. -/
@[simp] theorem contains_map (k : κ) : (m.map f).contains k = m.contains k := by
  simp [contains, get?, map, List.find?_map, Function.comp_def]

/-- Inserting a key goes with a change of the values. -/
theorem map_insert (k : κ) (a : α) : (m.insert k a).map f = (m.map f).insert k (f a) := by
  have hplace (es : List (κ × α)) : (insertSorted k a es).map (fun e => (e.1, f e.2)) =
      insertSorted k (f a) (es.map fun e => (e.1, f e.2)) := by
    induction es with
    | nil => rfl
    | cons e es ih =>
      rw [List.map_cons, insertSorted, insertSorted]
      split
      · rfl
      · split
        · rfl
        · rw [List.map_cons, ih]
  exact ext (hplace m.entries)

end Map

/-! ## Names as keys -/

instance : Trans (α := String) (· < ·) (· < ·) (· < ·) := ⟨String.lt_trans⟩

instance : Std.Trichotomous (α := String) (· < ·) :=
  ⟨fun _ _ h h' => String.le_antisymm (String.not_lt.1 h') (String.not_lt.1 h)⟩

end SortedMap

end MiniSql
