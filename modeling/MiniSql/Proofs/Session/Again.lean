/-
# Assigning a column to itself

`UPDATE t SET c = c` passes every row through the checks that it has passed before: the type of each
column, `NULL`, and the primary key. Whatever statements have led to the table, the rows pass again
and come out as they were, but for the columns that an update stamps
(`Session.Reached.execute_toItself`).

| what a value came from | why it passes again |
| --- | --- |
| a statement, or the default of its column | a value of that type is stored as itself |
| the counter of the table | it is an integer |
| the clock, as a default or as a stamp | it is an instant |
-/

import MiniSql.Proofs.Session.Assignments
import MiniSql.Proofs.Store.Again

namespace MiniSql

open Timed
open Grammar (Tree renderName)

/-! ## The text -/

namespace Grammar

open Spells

/-- `UPDATE name SET column = column` -/
def Tree.updateOwn (name column : String) : Tree :=
  .updateSet name [⟨.equal, "=", [.leaf .ident column, .leaf .ident column]⟩] (.leaf .number "1")

/-- A column set to itself is read as an assignment. -/
theorem lexes_assignOwn (column : String) :
    Lexes (renderName column ++ " " ++ "=" ++ " " ++ renderName column)
      (Assignment · ⟨.equal, "=", [.leaf .ident column, .leaf .ident column]⟩) := by
  have hsign : Kind.equal.Carries "=" := rfl
  refine ((lexes_name column).compared (lexes_name column) rfl hsign).mono ?_
  rintro _ ⟨_, _, rfl, hleft, _, _, rfl, ⟨s, rfl, hs, hlexeme⟩, hright⟩
  obtain ⟨t, rfl, -, ht⟩ := name_of_is hleft
  obtain ⟨d, rfl, hkind, hd⟩ := name_of_is hright
  rw [← hlexeme]
  exact .mk ht hs (.column (.plain hd) (by simp [hkind]))

/-- A text that assigns a column to itself. -/
theorem parse_updateOwn (name column : String) :
    parse ("UPDATE " ++ renderName name ++ " SET " ++ renderName column ++ " = " ++
      renderName column) = .ok (.updateOwn name column) := by
  have hset := (lexes_assignOwn column).afterWord .SET rfl
  have hname := lexes_node (fun n => .table n []) name
  have htext : "UPDATE " ++ renderName name ++ " SET " ++ renderName column ++ " = " ++
      renderName column = " ".intercalate ["UPDATE", renderName name,
        "SET " ++ (renderName column ++ " " ++ "=" ++ " " ++ renderName column)] := by
    simp [← String.toList_inj]
  obtain ⟨_, _, htokens, ⟨t, rfl, ht, -⟩, u, _, rfl, hu, s, v, rfl, hs, hv⟩ :=
    ((lexes_keyword .UPDATE).trailed (.cons hname (.one hset))).alone
  have hstatement := Statement.update ht hu hs (.one hv) .none
  refine parse_eq_ok_iff.2 ⟨_, [], ?_, hstatement, .inl rfl⟩
  rw [htext]
  exact htokens.trans (by simp)

end Grammar

/-- A text that sets a column to itself is planned so, for all rows. -/
theorem Plan.ofText_updateOwn {sql name column : String} {strict : Bool}
    (hparse : Grammar.parse sql = .ok (.updateOwn name column)) :
    ofText sql [] strict =
      .ok (.update name (.constant (.integer 1)) [(column, .field ⟨none, column⟩)]) := by
  refine (ofText_updateSet_eq_ok hparse).2 ⟨_, _, ?_, rfl, rfl, rfl⟩
  have hnone : Arguments.placeholders (.updateOwn name column) = [] := rfl
  show Arguments.check (.updateOwn name column) 0 strict = .ok ()
  unfold Arguments.check
  rw [hnone]
  cases strict <;> rfl

/-! ## The law -/

namespace Session

variable {options : Options} {s : Session} {name : String} {r : Relation} {c : Column}

/-- **Stored rows are stored again.** In a session that can be reached, on a table whose columns
have no full stop in their names, the text `UPDATE name SET c = c` is answered with the number of
all rows, unless the column takes its numbers from the counter of the table. Nothing is changed but
the stamps of this table, which are the next readings of the clock. -/
theorem Reached.execute_toItself (hs : s.Reached options) (hr : s.table? name = some r)
    (hstops : ∀ d ∈ r.schema.columns, '.' ∉ d.name.toList) (hc : c ∈ r.schema.columns)
    (hnumber : c.autoincrement = false) :
    Grammar.parse ("UPDATE " ++ renderName name ++ " SET " ++ renderName c.name ++ " = " ++
        renderName c.name) = .ok (.updateOwn name c.name) ∧
      ∀ sql, Grammar.parse sql = .ok (.updateOwn name c.name) → ∃ r' clock,
        s.execute ⟨sql, []⟩ = (.ok (.updated r.scan.length),
          ⟨{ s.database with catalog := s.database.catalog.put name r' }, clock⟩) ∧
        r.Refreshes s.clock r' clock := by
  refine ⟨Grammar.parse_updateOwn name c.name, fun sql hparse => ?_⟩
  have hstored : r.Stored name := hs.stored _ (SortedMap.mem_entries_of_get? hr)
  obtain ⟨i, hi⟩ := List.mem_iff_getElem?.1 hc
  have href := Schema.resolve_own hstored.wellTyped.schema.names_nodup hstops hi
  obtain ⟨r', clock, hupdate, hrefreshes⟩ := Mutation.gives_update_own hstored.wellTyped
    hstored.keysDistinct hi href hnumber s.clock
  refine ⟨r', clock, execute_eq (Database.execute_of_gives (Plan.ofText_updateOwn hparse) ?_),
    hrefreshes⟩
  rw [Plan.run_update hr]
  exact gives_bind.2 ⟨_, clock, hupdate, gives_pure.2 ⟨rfl, rfl⟩⟩

/-- A session with two rows, whose values come from a statement, from the counter of the table and
from the clock. -/
def twoMade : Session :=
  ((new .standard ⟨0, []⟩).run [⟨"CREATE TABLE t (id INT PRIMARY KEY AUTOINCREMENT, x FLOAT,
      made TIMESTAMP DEFAULT CURRENT_TIMESTAMP,
      changed TIMESTAMP ON UPDATE CURRENT_TIMESTAMP)", []⟩,
    ⟨"INSERT INTO t (x) VALUES (1), (NULL)", []⟩]).2

/-- Both rows pass again, and the stamps are the third and the fourth reading. -/
theorem execute_toItself_twoMade :
    (twoMade.execute ⟨"UPDATE t SET x = x", []⟩).1 = .ok (.updated 2) ∧
      (((twoMade.execute ⟨"UPDATE t SET x = x", []⟩).2.table? "t").map fun r =>
        r.scan.map fun e => (e.1, Relation.valueAt 3 e.2)) =
          some [(0, .timestamp ⟨0, 2000⟩), (1, .timestamp ⟨0, 3000⟩)] ∧
      ∃ r r' clock, twoMade.table? "t" = some r ∧
        (twoMade.execute ⟨"UPDATE t SET x = x", []⟩).2.table? "t" = some r' ∧
        r.Refreshes twoMade.clock r' clock := by
  have hreached : twoMade.Reached .standard := reached_run _ _ _
  have hparse : Grammar.parse "UPDATE t SET x = x" = .ok (.updateOwn "t" "x") := by decide +kernel
  have hrows : (((twoMade.execute ⟨"UPDATE t SET x = x", []⟩).2.table? "t").map fun r =>
      r.scan.map fun e => (e.1, Relation.valueAt 3 e.2)) =
        some [(0, .timestamp ⟨0, 2000⟩), (1, .timestamp ⟨0, 3000⟩)] := by decide +kernel
  have htable : (twoMade.table? "t").map (fun r => (r.schema.columns, r.scan.length)) =
      some ([⟨"id", .integer, false, true, true, none, false⟩, .plain "x" .float,
        { Column.plain "made" .timestamp with default := some .now },
        { Column.plain "changed" .timestamp with onUpdate := true }], 2) := by decide +kernel
  obtain ⟨r, hr, hschema⟩ := Option.map_eq_some_iff.1 htable
  obtain ⟨hcolumns, hcount⟩ := Prod.mk.inj hschema
  have hx : Column.plain "x" .float ∈ r.schema.columns := by simp [hcolumns]
  have hstops : ∀ d ∈ r.schema.columns, '.' ∉ d.name.toList := by
    rw [hcolumns]
    decide
  obtain ⟨r', clock, hexecute, hrefreshes⟩ :=
    (hreached.execute_toItself hr hstops hx rfl).2 "UPDATE t SET x = x" hparse
  refine ⟨by rw [hexecute, hcount], hrows, r, r', clock, hr, ?_, hrefreshes⟩
  rw [hexecute]
  exact Catalog.get?_put_self _ "t" r'

end Session
end MiniSql
