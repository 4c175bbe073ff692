/-
# What is true of every database

Sessions that start without tables have databases whose tables stand under their names, are well
typed and have no key twice (`Relation.Stored`). A statement that changes a table keeps each of the
three, so every state that is reached has them (`Session.Reached.stored`).

| consequence | theorem |
| --- | --- |
| schemas are well formed, and rows fit them | `Session.Reached.tables_wellTyped` |
| keys do not compare as equal, but for the two zeros | `Session.Reached.keys_compare` |

The exception is real: keys differ when they are not identical, and a table whose key is a floating
point number takes both zeros, which a predicate cannot tell apart.
-/

import MiniSql.Proofs.Session.Reached
import MiniSql.Proofs.Store.Keys
import MiniSql.Proofs.Value.Same

namespace MiniSql

open MiniSql.Relation (valueAt)

/-- What is true of a table that stands under a name. -/
structure Relation.Stored (name : String) (r : Relation) : Prop where
  named : r.schema.name = name
  wellTyped : r.WellTyped
  keysDistinct : r.KeysDistinct

namespace Relation

variable {name : String} {r r' : Relation}

/-- A new relation is stored under its name. -/
theorem stored_new {s : Schema} {start : Int64} (hs : s.WellFormed) :
    (new s start).Stored s.name :=
  ⟨rfl, wellTyped_new hs, keysDistinct_new⟩

/-- A relation stays stored under its name after a step. -/
theorem Stored.step (hr : r.Stored name) (h : r.Step r') : r'.Stored name :=
  ⟨h.schema_eq ▸ hr.named, hr.wellTyped.step h, hr.keysDistinct.step h⟩

/-- The keys of two rows of one table are of one type and not identical. -/
theorem Stored.keys {key : Nat} {e e' : Nat × Row} (hr : r.Stored name)
    (hkey : r.schema.primaryKey? = some key) (he : e ∈ r.scan) (he' : e' ∈ r.scan) (hne : e ≠ e') :
    (valueAt key e.2).type? = (valueAt key e'.2).type? ∧ valueAt key e.2 ≠ valueAt key e'.2 := by
  constructor
  · obtain ⟨c, hc, ht⟩ := hr.wellTyped.key_type hkey he
    obtain ⟨c', hc', ht'⟩ := hr.wellTyped.key_type hkey he'
    rw [hc] at hc'
    cases hc'
    rw [ht, ht']
  · intro heq
    exact hne (SortedMap.entry_unique he he' (hr.keysDistinct key hkey e he e' he' heq))

end Relation

/-- Tables of which this is true are well typed. -/
theorem Catalog.WellTyped.of_stored {c : Catalog} (h : ∀ e ∈ c.tables.entries, e.2.Stored e.1) :
    c.WellTyped := fun e he => ⟨(h e he).named, (h e he).wellTyped⟩

namespace Session

variable {options : Options} {s : Session}

/-- All three are true of every table in every state. -/
theorem Reached.stored (hs : s.Reached options) :
    ∀ e ∈ s.database.catalog.tables.entries, e.2.Stored e.1 :=
  hs.tables (P := fun name r => r.Stored name) (fun _ hs _ => Relation.stored_new hs)
    (fun _ _ _ hr h => hr.step h)

/-- **Every table is well typed**, and stands under its name, in every state that statements and
waiting lead to. -/
theorem Reached.tables_wellTyped (hs : s.Reached options) : s.database.catalog.WellTyped :=
  Catalog.WellTyped.of_stored hs.stored

/-- A table with a counted key, a default and a stamp, and the two rows of it that were taken. Four
statements of the run are refused. -/
def twoTaken : List Statement :=
  [⟨"CREATE TABLE t (k INT AUTOINCREMENT PRIMARY KEY, b TEXT NOT NULL DEFAULT 'x',
      at TIMESTAMP ON UPDATE CURRENT_TIMESTAMP)", []⟩,
    ⟨"INSERT INTO t (b) VALUES ('y'), (DEFAULT)", []⟩, ⟨"INSERT INTO t (b) VALUES (NULL)", []⟩,
    ⟨"INSERT INTO t (k) VALUES (1)", []⟩, ⟨"UPDATE t SET b = NULL", []⟩,
    ⟨"CREATE TABLE t (a INT)", []⟩, ⟨"UPDATE t SET b = $1 WHERE k = 2", [.text "z"]⟩]

/-- Time passes after the run, and the table is well typed, with both rows in it. -/
theorem tables_wellTyped_twoTaken :
    let s := ((new .standard ⟨0, []⟩).run twoTaken).2
    Session.Reached .standard ⟨s.database, ⟨1000000, [7]⟩⟩ ∧ s.database.catalog.WellTyped ∧
      s.database.catalog.tables.entries.map (fun e => (e.1, e.2.scan.map fun e => e.2.take 2)) =
        [("t", [[.integer 1, .text "y"], [.integer 2, .text "z"]])] := by
  intro s
  have hnext : s.clock.next ≤ 1000000 := by decide +kernel
  have hreached : Session.Reached .standard ⟨s.database, ⟨1000000, [7]⟩⟩ :=
    ⟨⟨0, []⟩, .wait (.run .refl twoTaken) hnext⟩
  exact ⟨hreached, hreached.tables_wellTyped, by decide +kernel⟩

/-- **Two stored keys compare as equal only where they are the two zeros**, and then they do. No
third value of their type is equal to both in any other case. -/
theorem Reached.keys_compare (hs : s.Reached options) {name : String} {r : Relation} {key : Nat}
    {e e' : Nat × Row} (hr : (name, r) ∈ s.database.catalog.tables.entries)
    (hkey : r.schema.primaryKey? = some key) (he : e ∈ r.scan) (he' : e' ∈ r.scan)
    (hne : e ≠ e') :
    ((valueAt key e.2).compare? (valueAt key e'.2) = some .eq ↔
        (valueAt key e.2).Zeros (valueAt key e'.2)) ∧
      ((∃ v, v.type? = (valueAt key e.2).type? ∧ (valueAt key e.2).compare? v = some .eq ∧
          (valueAt key e'.2).compare? v = some .eq) ↔
        (valueAt key e.2).Zeros (valueAt key e'.2)) := by
  obtain ⟨htype, hkeys⟩ := (hs.stored _ hr).keys hkey he he' hne
  refine ⟨⟨fun h => ?_, Value.Zeros.compare?⟩, Value.exists_equal_iff_zeros htype hkeys⟩
  exact (Value.same_or_zeros htype h).resolve_left hkeys

/-- A table keyed by a floating point number, with both zeros in it. -/
def bothZeros : List Statement :=
  [⟨"CREATE TABLE t (k FLOAT PRIMARY KEY)", []⟩, ⟨"INSERT INTO t VALUES (0.0)", []⟩,
    ⟨"INSERT INTO t VALUES (-0.0)", []⟩]

/-- The exception is met: the session stores both zeros, and they compare as equal. -/
theorem keys_compare_bothZeros :
    ∃ e ∈ ((new .standard ⟨0, []⟩).run bothZeros).2.database.catalog.tables.entries,
      ∃ d ∈ e.2.scan, ∃ d' ∈ e.2.scan, d ≠ d' ∧
        (valueAt 0 d.2).compare? (valueAt 0 d'.2) = some .eq := by
  have hstored : ((new .standard ⟨0, []⟩).run bothZeros).2.database.catalog.tables.entries.map
      (fun e => (e.2.schema.primaryKey?, e.2.scan)) =
        [(some 0, [(0, [.float (.zero false)]), (1, [.float (.zero true)])])] := by
    decide +kernel
  obtain ⟨⟨name, r⟩, hr, hrow⟩ := List.mem_map.1 (hstored ▸ List.mem_singleton_self _)
  obtain ⟨hkey, hscan⟩ := Prod.mk.inj hrow
  have he : (0, [.float (.zero false)]) ∈ r.scan := hscan ▸ List.mem_cons_self
  have he' : (1, [.float (.zero true)]) ∈ r.scan :=
    hscan ▸ List.mem_cons_of_mem _ List.mem_cons_self
  have hne : ((0, [.float (.zero false)]) : Nat × Row) ≠ (1, [.float (.zero true)]) := by decide
  exact ⟨_, hr, _, he, _, he', hne,
    ((reached_run .standard ⟨0, []⟩ bothZeros).keys_compare hr hkey he he' hne).1.2
      ⟨false, rfl, rfl⟩⟩

end Session
end MiniSql
