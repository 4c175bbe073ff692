/-
# The positions that a plan asks for

Rows and columns are asked for by position. `Plan.Asks c p i n` says that carrying out `p` asks a
list of length `n` for what stands at position `i`:

| step | position | lists |
| --- | --- | --- |
| sort | the columns of the keys | the rows to sort |
| projection | the columns shown | the labels, and the rows |
| aggregate | the columns of the calls | the rows |
| insert | the columns named | the slots of a row |
| insert, update | the primary key | the columns, the stored rows, and the new ones |
| insert | the column returned | the rows stored |
| update | the columns assigned | the columns, and the rows changed |
| update | the columns stamped | the rows changed |

In a well typed catalog each of them is there (`Plan.asks_lt`).
-/

import MiniSql.Database
import MiniSql.Proofs.Store.Locks
import MiniSql.Proofs.Store.Writes

namespace MiniSql

open Timed

variable {i n : Nat}

/-! ## Queries -/

namespace Rowset

/-- Sorting asks every row for its keys. -/
def SortAsks (s : Rowset) (keys : List (ColumnRef × Direction)) (i n : Nat) : Prop :=
  ∃ resolved, resolveKeys s.columns keys = .ok resolved ∧ i ∈ resolved.map (·.1) ∧
    ∃ row ∈ s.rows, n = row.length

/-- A projection asks the labels and every row for the columns that it shows. -/
def ProjectAsks (s : Rowset) (items : List SelectItem) (i n : Nat) : Prop :=
  ∃ picked, items.mapM (pick s.columns) = .ok picked ∧ i ∈ picked.flatten ∧
    (n = s.columns.length ∨ ∃ row ∈ s.rows, n = row.length)

/-- A call asks every row for its column. -/
def AggregateAsks (s : Rowset) (calls : List AggregateCall) (i n : Nat) : Prop :=
  ∃ call ∈ calls, ∃ c, call.argument = some c ∧ c.resolve s.columns = .ok i ∧
    ∃ row ∈ s.rows, n = row.length

variable {s : Rowset}

/-- Sorting asks only for columns that rows have. -/
theorem lt_of_sortAsks {keys : List (ColumnRef × Direction)} (hs : s.Rectangular)
    (h : s.SortAsks keys i n) : i < n := by
  obtain ⟨resolved, hresolved, hi, row, hrow, rfl⟩ := h
  obtain ⟨key, hkey, rfl⟩ := List.mem_map.1 hi
  obtain ⟨_, -, hkey⟩ := exists_mem_of_forall₂ (Except.mapM_eq_ok.1 hresolved) hkey
  obtain ⟨j, hj, hkey⟩ := Except.bind_eq_ok.1 hkey
  cases hkey
  rw [hs row hrow]
  exact ColumnRef.resolve_lt hj

/-- The positions found are those of labels. -/
theorem lt_of_mem_positionsOf {table : String} {start : Nat} {labels : List String}
    (h : i ∈ positionsOf table start labels) : i < start + labels.length := by
  induction labels generalizing start with
  | nil => cases h
  | cons l labels ih =>
    rw [List.length_cons]
    unfold positionsOf at h
    split at h
    · rcases List.mem_cons.1 h with rfl | h
      · omega
      · have := ih h
        omega
    · have := ih h
      omega

/-- An item stands for columns that are there. -/
theorem lt_of_mem_pick {labels : List String} {item : SelectItem} {picked : List Nat}
    (h : pick labels item = .ok picked) (hi : i ∈ picked) : i < labels.length := by
  cases item with
  | all =>
    cases h
    exact List.mem_range.1 hi
  | allOf table =>
    simp only [pick] at h
    split at h
    · cases h
    · cases h
      simpa using lt_of_mem_positionsOf hi
  | column c =>
    obtain ⟨j, hj, h⟩ := Except.bind_eq_ok.1 h
    cases h
    obtain rfl := List.mem_singleton.1 hi
    exact ColumnRef.resolve_lt hj

/-- Choosing columns asks only for columns that rows have. -/
theorem lt_of_projectAsks {items : List SelectItem} (hs : s.Rectangular)
    (h : s.ProjectAsks items i n) : i < n := by
  obtain ⟨picked, hpicked, hi, hn⟩ := h
  obtain ⟨is, his, hi⟩ := List.mem_flatten.1 hi
  obtain ⟨item, -, his⟩ := exists_mem_of_forall₂ (Except.mapM_eq_ok.1 hpicked) his
  have hlt : i < s.columns.length := lt_of_mem_pick his hi
  rcases hn with rfl | ⟨row, hrow, rfl⟩
  · exact hlt
  · rw [hs row hrow]
    exact hlt

/-- Aggregates ask only for columns that rows have. -/
theorem lt_of_aggregateAsks {calls : List AggregateCall} (hs : s.Rectangular)
    (h : s.AggregateAsks calls i n) : i < n := by
  obtain ⟨call, -, c, -, hi, row, hrow, rfl⟩ := h
  rw [hs row hrow]
  exact ColumnRef.resolve_lt hi

end Rowset

/-- A query and those that it takes its rows from. -/
def Query.parts : Query → List Query
  | scan table => [scan table]
  | join left right p outer => join left right p outer :: (left.parts ++ right.parts)
  | filter source p => filter source p :: source.parts
  | order source keys => order source keys :: source.parts
  | offset source count => offset source count :: source.parts
  | limit source count => limit source count :: source.parts
  | projection source items => projection source items :: source.parts
  | aggregate source calls => aggregate source calls :: source.parts

/-- Running a query over the tables that `table` gives asks a list of length `n` for what stands at
`i`. -/
inductive Query.Asks (table : String → Except Error Relation) (q : Query) (i n : Nat) : Prop
  | sort {source keys s t t'} (hpart : order source keys ∈ q.parts)
      (hs : Gives (source.run table) t s t') (h : s.SortAsks keys i n)
  | project {source items s t t'} (hpart : projection source items ∈ q.parts)
      (hs : Gives (source.run table) t s t') (h : s.ProjectAsks items i n)
  | aggregate {source calls s t t'} (hpart : aggregate source calls ∈ q.parts)
      (hs : Gives (source.run table) t s t') (h : s.AggregateAsks calls i n)

/-- **A query** asks only for columns that rows have. -/
theorem Query.asks_lt {table : String → Except Error Relation} {q : Query}
    (htable : ∀ name r, table name = .ok r → r.rowset.Rectangular) (h : q.Asks table i n) :
    i < n := by
  cases h with
  | sort _ hs h => exact Rowset.lt_of_sortAsks (run_rectangular htable hs) h
  | project _ hs h => exact Rowset.lt_of_projectAsks (run_rectangular htable hs) h
  | aggregate _ hs h => exact Rowset.lt_of_aggregateAsks (run_rectangular htable hs) h

/-! ## Changes -/

/-- A column of a schema is within its width. -/
theorem Schema.columnIndex_lt {s : Schema} {name : String} (h : s.columnIndex name = .ok i) :
    i < s.width := by
  unfold columnIndex at h
  split at h
  · rename_i j hj
    cases h
    exact (List.findIdx?_eq_some_iff_getElem.1 hj).1
  · cases h

namespace Relation

/-- The check of the keys of some rows asks these rows, the stored ones, and the columns. -/
def KeyAsks (r : Relation) (rows : List Row) (i n : Nat) : Prop :=
  r.schema.primaryKey? = some i ∧
    (n = r.schema.width ∨ (∃ row ∈ rows, n = row.length) ∨ ∃ e ∈ r.scan, n = e.2.length)

variable {r : Relation}

/-- The check of keys asks only for columns that rows have. -/
theorem lt_of_keyAsks {rows : List Row} (hr : r.WellTyped)
    (hrows : ∀ row ∈ rows, r.schema.Holds row) (h : r.KeyAsks rows i n) : i < n := by
  obtain ⟨hkey, hn⟩ := h
  have hlt : i < r.schema.width := (List.findIdx?_eq_some_iff_getElem.1 hkey).1
  rcases hn with rfl | ⟨row, hrow, rfl⟩ | ⟨e, he, rfl⟩
  · exact hlt
  · exact (hrows row hrow).length_eq ▸ hlt
  · exact (hr.rows e he).length_eq ▸ hlt

end Relation

namespace Mutation

/-- An `INSERT` asks a list of length `n` for what stands at `i`. -/
inductive InsertAsks (r : Relation) (columns : List String) (rows : List (List Expression))
    (returning : Option ColumnRef) : Nat → Nat → Prop
  | named {name i} (hname : name ∈ columns) (hi : r.schema.columnIndex name = .ok i) :
      InsertAsks r columns rows returning i r.schema.width
  | key {slotted completed numbers t t' t'' i n}
      (hslots : Gives (slots r.schema columns rows) t slotted t')
      (hrows : Gives (Relation.completeRows r.schema slotted ⟨r.nextNumber, none⟩) t'
        (completed, numbers) t'')
      (h : r.KeyAsks completed i n) : InsertAsks r columns rows returning i n
  | returned {c r' stored row t t' i} (hc : returning = some c)
      (h : Gives (insert r columns rows) t (r', stored) t')
      (hi : c.resolve r.schema.labels = .ok i) (hrow : row ∈ stored.rows) :
      InsertAsks r columns rows returning i row.length

/-- An `UPDATE` asks a list of length `n` for what stands at `i`. -/
inductive UpdateAsks (r : Relation) (p : Expression) (assignments : List (String × Expression)) :
    Nat → Nat → Prop
  | named {name new i} (hname : (name, new) ∈ assignments)
      (hi : r.schema.columnIndex name = .ok i) : UpdateAsks r p assignments i r.schema.width
  | assigned {assigned i new e} (htargets : targets r.schema [] assignments = .ok assigned)
      (hi : (i, new) ∈ assigned) (he : e ∈ r.scan) : UpdateAsks r p assignments i e.2.length
  | stamped {assigned changed e row c t t' i}
      (htargets : targets r.schema [] assignments = .ok assigned)
      (hchanged : Gives (changes r.schema p assigned r.scan) t changed t') (he : e ∈ changed)
      (hrow : Relation.prepare r.schema e.2 = .ok row) (hc : r.schema.columns[i]? = some c)
      (hstamp : c.onUpdate = true) : UpdateAsks r p assignments i row.length
  | key {assigned changed stored t t' t'' i n}
      (htargets : targets r.schema [] assignments = .ok assigned)
      (hchanged : Gives (changes r.schema p assigned r.scan) t changed t')
      (hstored : Gives (changed.mapM fun e => r.change e.1 e.2) t' stored t'')
      (h : r.KeyAsks (stored.map (·.2)) i n) : UpdateAsks r p assignments i n

variable {r : Relation} {p : Expression} {assignments : List (String × Expression)}

/-- **An insertion** asks only for columns that rows have. -/
theorem insertAsks_lt {columns : List String} {rows : List (List Expression)}
    {returning : Option ColumnRef} (hr : r.WellTyped)
    (h : InsertAsks r columns rows returning i n) : i < n := by
  have hcompleted {slotted : List (List (Option Value))} {completed : List Row}
      {numbers numbers' : Relation.Numbering} {t t' : Time.Clock}
      (hrows : Gives (Relation.completeRows r.schema slotted numbers) t (completed, numbers') t') :
      ∀ row ∈ completed, r.schema.Holds row := fun row hrow => by
    obtain ⟨_, -, _, _, _, _, hrow⟩ :=
      exists_mem_of_forall₂ (Relation.completeRows_each hrows) hrow
    exact Relation.completeRow_holds hrow
  cases h with
  | named _ hi => exact Schema.columnIndex_lt hi
  | key _ hrows h => exact Relation.lt_of_keyAsks hr (hcompleted hrows) h
  | returned _ h hi hrow =>
    obtain ⟨slotted, mid, -, h⟩ := gives_bind.1 h
    obtain ⟨completed, numbers, hrows, -, -, rfl⟩ := Relation.gives_insert.1 h
    rw [Schema.length_eq_of_holds (hcompleted hrows _ hrow)]
    exact ColumnRef.resolve_lt hi

/-- The columns that an `UPDATE` assigns are there. -/
theorem lt_of_mem_targets {s : Schema} {seen : List Nat} {assigned : List (Nat × Expression)}
    (h : targets s seen assignments = .ok assigned) : ∀ a ∈ assigned, a.1 < s.width := by
  induction assignments generalizing seen assigned with
  | nil =>
    cases h
    simp
  | cons a assignments ih =>
    obtain ⟨j, hj, h⟩ := Except.bind_eq_ok.1 h
    split at h
    · cases h
    · split at h
      · cases h
      · obtain ⟨rest, hrest, h⟩ := Except.bind_eq_ok.1 h
        cases h
        exact List.forall_mem_cons.2 ⟨Schema.columnIndex_lt hj, ih hrest⟩

/-- **An update** asks only for columns that rows have. -/
theorem updateAsks_lt (hr : r.WellTyped) (h : UpdateAsks r p assignments i n) : i < n := by
  cases h with
  | named _ hi => exact Schema.columnIndex_lt hi
  | assigned htargets hi he =>
    rw [Schema.length_eq_of_holds (hr.rows _ he), Schema.length_labels]
    exact lt_of_mem_targets htargets _ hi
  | stamped _ _ _ hrow hc _ =>
    rw [← (Relation.prepare_holds hrow).length_eq]
    exact (List.getElem?_eq_some_iff.1 hc).1
  | key _ _ hstored h =>
    refine Relation.lt_of_keyAsks hr (fun row hrow => ?_) h
    obtain ⟨e, he, rfl⟩ := List.mem_map.1 hrow
    obtain ⟨_, -, _, _, hchange⟩ := exists_mem_of_forall₂ hstored.mapM he
    exact Relation.change_holds hr.schema hchange

end Mutation

/-! ## Plans -/

/-- Carrying out a plan asks a list of length `n` for what stands at `i`. -/
inductive Plan.Asks (c : Catalog) : Plan → Nat → Nat → Prop
  | query {q i n} (h : q.Asks (c.table (Plan.query q).locks) i n) : Asks c (.query q) i n
  | insert {table columns rows returning r i n} (hr : c.tables.get? table = some r)
      (h : Mutation.InsertAsks r columns rows returning i n) :
      Asks c (.insert table columns rows returning) i n
  | update {table p assignments r i n} (hr : c.tables.get? table = some r)
      (h : Mutation.UpdateAsks r p assignments i n) : Asks c (.update table p assignments) i n

/-- **In a well typed catalog every position that a plan asks for is there.** -/
theorem Plan.asks_lt {c : Catalog} {p : Plan} (hc : c.WellTyped) (h : p.Asks c i n) : i < n := by
  cases h with
  | query h =>
    refine Query.asks_lt (fun name r hr => ?_) h
    exact (hc _ (SortedMap.mem_entries_of_get? (Catalog.get?_of_table hr))).2.rectangular
  | insert hr h => exact Mutation.insertAsks_lt (hc _ (SortedMap.mem_entries_of_get? hr)).2 h
  | update hr h => exact Mutation.updateAsks_lt (hc _ (SortedMap.mem_entries_of_get? hr)).2 h

end MiniSql
