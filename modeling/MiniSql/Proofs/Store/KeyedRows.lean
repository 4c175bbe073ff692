/-
# Rows under their keys

A relation is written row by row. What its rows are under their ids and what they are under their
keys stay in step through every write (`KeyedRows.Mirrors.write`), because the keys are in the order
of the ids. So a pass over the keys meets the rows in the order of their ids
(`KeyedRows.Mirrors.scan`), as long as the ids are numbers of 64 bits.
-/

import MiniSql.Proofs.Store.Rows
import MiniSql.Store.RowKey

namespace MiniSql

/-- The rows after a write, under their ids. -/
def RowWrite.apply (rows : SortedMap Nat Record) : RowWrite → SortedMap Nat Record
  | set id record => rows.insert id record
  | remove id => rows.erase id
  | clear => .empty

/-- The id that is written has a key. -/
def RowWrite.HasKey : RowWrite → Prop
  | set id _ => id < RowKey.limit
  | remove id => id < RowKey.limit
  | clear => True

namespace KeyedRows

/-- The entry of a row, under its key. -/
def entry (e : Nat × Record) : List UInt8 × Record := (RowKey.ofId e.1, e.2)

/-- The keyed rows are these rows: all of them, each under its key, in the same order. -/
def Mirrors (m : KeyedRows) (rows : SortedMap Nat Record) : Prop :=
  m.entries = rows.entries.map entry

/-- The ids of the rows have keys. -/
def HaveKeys (rows : SortedMap Nat Record) : Prop := ∀ e ∈ rows.entries, e.1 < RowKey.limit

variable {m : KeyedRows} {rows : SortedMap Nat Record} {w : RowWrite} {writes : List RowWrite}

/-- The empty maps mirror each other. -/
theorem mirrors_empty : Mirrors .empty .empty := rfl

/-- Maps that mirror each other have the same size. -/
theorem Mirrors.size (h : m.Mirrors rows) : m.size = rows.size := by
  rw [SortedMap.size, h, List.length_map]
  rfl

/-- A row is found under its key where it is found under its id. -/
theorem Mirrors.contains (h : m.Mirrors rows) (hrows : HaveKeys rows) {id : Nat}
    (hid : id < RowKey.limit) : m.contains (RowKey.ofId id) = rows.contains id := by
  have hfound : ∀ es : List (Nat × Record), (∀ e ∈ es, e.1 < RowKey.limit) →
      ((es.map entry).find? fun e => e.1 = RowKey.ofId id).isSome =
        (es.find? fun e => e.1 = id).isSome := by
    intro es hes
    induction es with
    | nil => rfl
    | cons e es ih =>
      obtain ⟨he, hes⟩ := List.forall_mem_cons.1 hes
      have heq : (entry e).1 = RowKey.ofId id ↔ e.1 = id := RowKey.ofId_inj he hid
      rw [List.map_cons, List.find?_cons, List.find?_cons]
      simp only [heq]
      split
      · rfl
      · exact ih hes
  rw [SortedMap.contains, SortedMap.contains, SortedMap.get?, SortedMap.get?, Option.isSome_map,
    Option.isSome_map, h]
  exact hfound rows.entries hrows

/-- A row finds the same place under its key as under its id. -/
theorem insertSorted_entry {id : Nat} {record : Record} {es : List (Nat × Record)}
    (hid : id < RowKey.limit)
    (hes : ∀ e ∈ es, e.1 < RowKey.limit) :
    SortedMap.insertSorted (RowKey.ofId id) record (es.map entry) =
      (SortedMap.insertSorted id record es).map entry := by
  induction es with
  | nil => rfl
  | cons e es ih =>
    obtain ⟨he, hes⟩ := List.forall_mem_cons.1 hes
    have hlt : RowKey.ofId id < (entry e).1 ↔ id < e.1 := RowKey.ofId_lt_iff hid he
    have heq : (entry e).1 = RowKey.ofId id ↔ e.1 = id := RowKey.ofId_inj he hid
    rw [List.map_cons, SortedMap.insertSorted, SortedMap.insertSorted]
    simp only [hlt, heq]
    split
    · rfl
    · split
      · rfl
      · rw [ih hes]
        rfl

/-- A write with a key leaves rows with keys. -/
theorem haveKeys_apply (hrows : HaveKeys rows) (hw : w.HasKey) : HaveKeys (w.apply rows) := by
  cases w with
  | set id record =>
    intro e he
    rcases SortedMap.mem_entries_insert.1 he with rfl | ⟨he, -⟩
    · exact hw
    · exact hrows e he
  | remove id => exact fun e he => hrows e (SortedMap.mem_entries_erase.1 he).1
  | clear => exact fun e he => nomatch he

/-- **One write** is the same under keys and under ids. -/
theorem Mirrors.write (h : m.Mirrors rows) (hrows : HaveKeys rows) (hw : w.HasKey) :
    (m.write w).Mirrors (w.apply rows) := by
  cases w with
  | set id record =>
    show SortedMap.insertSorted (RowKey.ofId id) record m.entries = _
    rw [h, insertSorted_entry hw hrows]
    rfl
  | remove id =>
    show m.entries.filter _ = (rows.entries.filter _).map entry
    rw [h, List.filter_map]
    refine congrArg _ (List.filter_congr fun e he => ?_)
    have heq : (entry e).1 = RowKey.ofId id ↔ e.1 = id := RowKey.ofId_inj (hrows e he) hw
    simp [heq]
  | clear => rfl

/-- So are writes in turn. -/
theorem Mirrors.writeAll (h : m.Mirrors rows) (hrows : HaveKeys rows)
    (hwrites : ∀ w ∈ writes, w.HasKey) :
    (writes.foldl KeyedRows.write m).Mirrors (writes.foldl RowWrite.apply rows) := by
  induction writes generalizing m rows with
  | nil => exact h
  | cons w writes ih =>
    obtain ⟨hw, hwrites⟩ := List.forall_mem_cons.1 hwrites
    exact ih (h.write hrows hw) (haveKeys_apply hrows hw) hwrites

/-- **A pass over the keys** meets the rows in the order of their ids. -/
theorem Mirrors.scan (h : m.Mirrors rows) (hrows : HaveKeys rows) :
    m.scan = some (rows.map Record.decode).entries := by
  have hread : ∀ es : List (Nat × Record), (∀ e ∈ es, e.1 < RowKey.limit) →
      (es.map entry).mapM (fun e => do return (← RowKey.toId? e.1, e.2.decode)) =
        some (es.map fun e => (e.1, e.2.decode)) := by
    intro es hes
    induction es with
    | nil => rfl
    | cons e es ih =>
      obtain ⟨he, hes⟩ := List.forall_mem_cons.1 hes
      have hid : RowKey.toId? (entry e).1 = some e.1 := RowKey.toId?_ofId he
      rw [List.map_cons, List.mapM_cons, hid, ih hes]
      rfl
  rw [KeyedRows.scan, h]
  exact hread rows.entries hrows

end KeyedRows

end MiniSql
