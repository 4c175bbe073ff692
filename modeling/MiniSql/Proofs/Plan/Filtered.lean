/-
# Three statements with one predicate

`SELECT * FROM t WHERE p`, `DELETE FROM t WHERE p` and `UPDATE t SET .. WHERE p` ask for one lock on
one table, and their plans have one predicate. Where the table is there, each plan is one pass over
its rows; where it is not, all three are refused.
-/

import MiniSql.Database
import MiniSql.Proofs.Plan.Placeholders
import MiniSql.Proofs.Query.Matching
import MiniSql.Proofs.Query.Width
import MiniSql.Proofs.Store.Locks

namespace MiniSql

open Timed
open Grammar (Tree)

/-! ## Trees -/

namespace Grammar.Tree

/-- `SELECT * FROM table WHERE p` -/
def selectAll (name : String) (p : Tree) : Tree :=
  .word .SELECT [.leaf .asterisk "*", .word .FROM [.table name []], .word .WHERE [p]]

/-- `DELETE FROM table WHERE p` -/
def deleteFrom (name : String) (p : Tree) : Tree :=
  .word .DELETE [.word .FROM [.table name []], .word .WHERE [p]]

/-- `UPDATE table SET assignments WHERE p` -/
def updateSet (name : String) (assignments : List Tree) (p : Tree) : Tree :=
  .word .UPDATE [.table name [], .word .SET assignments, .word .WHERE [p]]

end Grammar.Tree

/-! ## Plans -/

/-- The plan of `SELECT * FROM table WHERE e`. -/
def Plan.selectAll (name : String) (e : Expression) : Plan :=
  query (.projection (.filter (.scan name) e) [.all])

namespace Planning

variable {arguments : List Value} {name : String} {p : Tree} {assignments : List Tree}

/-- A selection of all columns is planned with its predicate. -/
theorem statement_selectAll : statement arguments (.selectAll name p) =
    (do return .selectAll name (← predicate arguments p)) := by
  have hstar : Draft.add arguments {} (.leaf .asterisk "*") = .ok { items := [.all] } := rfl
  have hfrom (d : Draft) : d.add arguments (.word .FROM [.table name []]) =
      .ok (d.addTable name) := rfl
  have hwhere (d : Draft) : d.add arguments (.word .WHERE [p]) =
      (do return { d with predicate := some (← predicate arguments p) }) := rfl
  show select arguments (.selectAll name p) = _
  rw [select, Tree.selectAll, Tree.word, List.foldlM_cons, hstar]
  simp only [bind, Except.bind, List.foldlM_cons, hfrom, hwhere]
  cases predicate arguments p with
  | error x => rfl
  | ok e => rfl

/-- A deletion is planned with its predicate. -/
theorem statement_deleteFrom : statement arguments (.deleteFrom name p) =
    (do return .delete name (← predicate arguments p)) := rfl

/-- An update is planned with its predicate and its assignments. -/
theorem statement_updateSet : statement arguments (.updateSet name assignments p) =
    (do
      let assigned ← assignments.mapM (assignment arguments)
      return .update name (← predicate arguments p) assigned) := rfl

end Planning

/-- The placeholders of both are those of the predicate. -/
theorem Arguments.check_deleteFrom (name : String) (p : Tree) (given : Nat) (strict : Bool) :
    check (.deleteFrom name p) given strict = check (.selectAll name p) given strict := by
  have hplaceholders : placeholders (.deleteFrom name p) = placeholders (.selectAll name p) := by
    simp [Tree.deleteFrom, Tree.selectAll]
  exact check_congr hplaceholders given strict

namespace Plan

variable {sql name : String} {p : Tree} {arguments : List Value} {strict : Bool}

/-- The predicate of a text `SELECT * FROM name WHERE p` with its arguments. -/
def predicateOf (name : String) (p : Tree) (arguments : List Value) (strict : Bool) :
    Except Error Expression := do
  Arguments.check (.selectAll name p) arguments.length strict
  Planning.predicate arguments p

/-- A text that selects all columns has the plan of its predicate. -/
theorem ofText_selectAll (h : Grammar.parse sql = .ok (.selectAll name p)) :
    ofText sql arguments strict =
      (do return .selectAll name (← predicateOf name p arguments strict)) := by
  rw [ofText, h]
  show (do
    Arguments.check (.selectAll name p) arguments.length strict
    Planning.statement arguments (.selectAll name p)) = _
  rw [Planning.statement_selectAll, predicateOf, bind_assoc]

/-- The same predicate is that of the text `DELETE FROM name WHERE p`. -/
theorem ofText_deleteFrom (h : Grammar.parse sql = .ok (.deleteFrom name p)) :
    ofText sql arguments strict =
      (do return .delete name (← predicateOf name p arguments strict)) := by
  rw [ofText, h]
  show (do
    Arguments.check (.deleteFrom name p) arguments.length strict
    Planning.statement arguments (.deleteFrom name p)) = _
  rw [Planning.statement_deleteFrom, predicateOf, bind_assoc, Arguments.check_deleteFrom]

/-- A text that updates has its predicate and its assignments planned. -/
theorem ofText_updateSet {assignments : List Tree} {plan : Plan}
    (h : Grammar.parse sql = .ok (.updateSet name assignments p))
    (hplan : ofText sql arguments strict = .ok plan) :
    ∃ e assigned, Planning.predicate arguments p = .ok e ∧ plan = .update name e assigned := by
  rw [ofText, h] at hplan
  obtain ⟨_, -, hplan⟩ := Except.bind_eq_ok.1 hplan
  rw [Planning.statement_updateSet] at hplan
  obtain ⟨assigned, -, hplan⟩ := Except.bind_eq_ok.1 hplan
  obtain ⟨e, he, hplan⟩ := Except.bind_eq_ok.1 hplan
  cases hplan
  exact ⟨e, assigned, he, rfl⟩

end Plan

/-! ## Running the plans -/

/-- What stands at each position of a list is the list. -/
theorem map_getD_range {α β : Type} (l : List α) (d : α) (f : α → β) :
    (List.range l.length).map (fun i => f (l[i]?.getD d)) = l.map f := by
  refine List.ext_getElem (by simp) fun i hi _ => ?_
  have hlt : i < l.length := by simpa using hi
  simp [List.getElem?_eq_getElem hlt]

/-- A star shows all rows as they are. -/
theorem Rowset.project_all {s : Rowset} (hs : s.Rectangular) :
    s.project [.all] = .ok ⟨s.columns.map labelColumn, s.rows⟩ := by
  have hrows : (s.rows.map fun row => (List.range s.columns.length).map
      fun i => Relation.valueAt i row) = s.rows := by
    refine (List.map_congr_left fun row hrow => ?_).trans (List.map_id s.rows)
    rw [← hs row hrow]
    exact (map_getD_range row .null id).trans (List.map_id row)
  have hcolumns := map_getD_range s.columns "" labelColumn
  have hpicked : [SelectItem.all].mapM (pick s.columns) = .ok [List.range s.columns.length] := rfl
  rw [project, hpicked]
  simp only [bind, Except.bind, List.flatten_singleton, hrows, hcolumns]
  rfl

variable {c : Catalog} {name : String} {e : Expression} {r : Relation} {start : Int64}
  {t : Time.Clock}

/-- A request for one table is granted where it is there. -/
theorem Catalog.grant_one {q : LockRequest} (hq : q.keys = [name])
    (hr : c.tables.get? name = some r) : c.grant q = .ok () ∧ c.table q name = .ok r := by
  have hgrant : c.grant q = .ok () := by
    rw [grant, hq, List.find?_singleton, has, SortedMap.contains, hr]
    rfl
  obtain ⟨d, hd, hname⟩ := List.map_eq_singleton_iff.1 hq
  have hlocked : (q.get? name).isSome := by
    rw [SortedMap.get?, hd, List.find?_singleton, hname]
    simp
  obtain ⟨r', hr', htable⟩ := table_of_grant hgrant hlocked
  rw [hr] at hr'
  cases hr'
  exact ⟨hgrant, htable⟩

/-- So is a request to write it, and the table is given. -/
theorem Catalog.write_granted (hr : c.tables.get? name = some r) :
    c.grant (LockRequest.write .empty name) = .ok () ∧
      c.tableToWrite (LockRequest.write .empty name) name = .ok r := by
  obtain ⟨hgrant, htable⟩ := c.grant_one (rfl : (LockRequest.write .empty name).keys = [name]) hr
  rw [tableToWrite, LockRequest.get?_write]
  exact ⟨hgrant, htable⟩

namespace Plan

/-- A plan that locks one table is refused where it is not there. -/
theorem refuses_run {p : Plan} (hlocks : p.locks.keys = [name])
    (hnone : c.tables.get? name = none) :
    Refuses (p.run start c) t (.schema (.noTable name)) t := by
  have hgrant : c.grant p.locks = .error (.schema (.noTable name)) := by
    rw [Catalog.grant, hlocks, List.find?_singleton, Catalog.has, SortedMap.contains, hnone]
    rfl
  rw [run, hgrant]
  rfl

/-- **A query** for rows of a table is one pass over them. -/
theorem run_selectAll (hr : c.tables.get? name = some r) : (selectAll name e).run start c =
    (do
      let set ← r.rowset.filter e
      let shown ← Timed.ofExcept (set.project [.all])
      return (c, .ok (.rows shown))) := by
  obtain ⟨hgrant, htable⟩ := c.grant_one (rfl : (selectAll name e).locks.keys = [name]) hr
  rw [run, hgrant]
  show carryOut start c (selectAll name e) = _
  rw [selectAll] at htable
  rw [selectAll, carryOut]
  simp only [Query.run, htable, Timed.ofExcept, pure_bind, bind_assoc]

/-- A selection answers with the rows that the relation selects. -/
theorem gives_selectAll (hr : c.tables.get? name = some r) (hrows : r.rowset.Rectangular)
    {c' : Catalog} {answer : Except Error Answer} {t' : Time.Clock} :
    Gives ((selectAll name e).run start c) t (c', answer) t' ↔
      ∃ kept, Gives (r.select e) t kept t' ∧ c' = c ∧
        answer = .ok (.rows ⟨r.schema.labels.map labelColumn, kept⟩) := by
  have hshown {kept : List Row} {mid : Time.Clock}
      (h : Gives (r.rowset.filter e) t ⟨r.schema.labels, kept⟩ mid) :
      Rowset.project ⟨r.schema.labels, kept⟩ [.all] =
        .ok ⟨r.schema.labels.map labelColumn, kept⟩ := Rowset.project_all (hrows.filter h)
  have hfilter {set : Rowset} {mid : Time.Clock} : Gives (r.rowset.filter e) t set mid ↔
      ∃ kept, Gives (r.select e) t kept mid ∧ set = ⟨r.schema.labels, kept⟩ := by
    simp only [Rowset.filter, gives_bind, gives_pure]
    constructor
    · rintro ⟨kept, _, hkept, rfl, rfl⟩
      exact ⟨kept, hkept, rfl⟩
    · rintro ⟨kept, hkept, rfl⟩
      exact ⟨kept, mid, hkept, rfl, rfl⟩
  rw [run_selectAll hr]
  simp only [gives_bind, gives_ofExcept, gives_pure, Prod.mk.injEq]
  constructor
  · rintro ⟨set, _, hset, shown, _, ⟨hproject, rfl⟩, ⟨rfl, rfl⟩, rfl⟩
    obtain ⟨kept, hkept, rfl⟩ := hfilter.1 hset
    rw [hshown hset] at hproject
    cases hproject
    exact ⟨kept, hkept, rfl, rfl⟩
  · rintro ⟨kept, hkept, rfl, rfl⟩
    have hset := hfilter.2 ⟨kept, hkept, rfl⟩
    exact ⟨_, t', hset, _, t', ⟨hshown hset, rfl⟩, ⟨rfl, rfl⟩, rfl⟩

/-- A selection is refused as the relation refuses to select. -/
theorem refuses_selectAll (hr : c.tables.get? name = some r) (hrows : r.rowset.Rectangular)
    {x : Error} {t' : Time.Clock} :
    Refuses ((selectAll name e).run start c) t x t' ↔ Refuses (r.select e) t x t' := by
  rw [run_selectAll hr]
  simp only [refuses_bind, refuses_ofExcept, not_refuses_pure, and_false, exists_false, or_false,
    Rowset.filter]
  constructor
  · rintro (h | ⟨set, mid, hset, hproject, rfl⟩)
    · exact h
    · rw [Rowset.project_all (hrows.filter (p := e) hset)] at hproject
      cases hproject
  · exact .inl

/-- A deletion is carried out on its relation. -/
theorem run_delete (hr : c.tables.get? name = some r) : (delete name e).run start c =
    (do
      let (r', n) ← Mutation.delete r e
      return (c.put name r', .ok (.deleted n))) := by
  obtain ⟨hgrant, hwrite⟩ := c.write_granted hr
  rw [run, locks, hgrant]
  show carryOut start c (delete name e) = _
  simp only [carryOut, locks, hwrite]
  rfl

/-- A `DELETE` is refused where the query is, with the same error. -/
theorem refuses_delete (hr : c.tables.get? name = some r) {x : Error} {t' : Time.Clock} :
    Refuses ((delete name e).run start c) t x t' ↔ Refuses (r.select e) t x t' := by
  rw [run_delete hr, ← Mutation.refuses_matching]
  simp only [Mutation.delete, refuses_bind, not_refuses_pure, and_false, exists_false, or_false]

/-- A deletion gives the count of the rows that the relation deletes. -/
theorem gives_delete (hr : c.tables.get? name = some r) {c' : Catalog}
    {answer : Except Error Answer} {t' : Time.Clock} :
    Gives ((delete name e).run start c) t (c', answer) t' ↔
      ∃ r' n, Gives (Mutation.delete r e) t (r', n) t' ∧ c' = c.put name r' ∧
        answer = .ok (.deleted n) := by
  rw [run_delete hr]
  simp only [gives_bind, gives_pure, Prod.exists, Prod.mk.injEq]
  constructor
  · rintro ⟨r', n, _, hdelete, ⟨rfl, rfl⟩, rfl⟩
    exact ⟨r', n, hdelete, rfl, rfl⟩
  · rintro ⟨r', n, hdelete, rfl, rfl⟩
    exact ⟨r', n, t', hdelete, ⟨rfl, rfl⟩, rfl⟩

/-- An update is carried out on its relation. -/
theorem run_update {assigned : List (String × Expression)} (hr : c.tables.get? name = some r) :
    (update name e assigned).run start c =
    (do
      let (r', n) ← Mutation.update r e assigned
      return (c.put name r', .ok (.updated n))) := by
  obtain ⟨hgrant, hwrite⟩ := c.write_granted hr
  rw [run, locks, hgrant]
  show carryOut start c (update name e assigned) = _
  simp only [carryOut, locks, hwrite]
  rfl

/-- An update gives the count of the rows that the relation updates. -/
theorem gives_update {assigned : List (String × Expression)} {c' : Catalog}
    {answer : Except Error Answer} {t' : Time.Clock}
    (h : Gives ((update name e assigned).run start c) t (c', answer) t') :
    ∃ r r' n, c.tables.get? name = some r ∧ Gives (Mutation.update r e assigned) t (r', n) t' ∧
      c' = c.put name r' ∧ answer = .ok (.updated n) := by
  cases hr : c.tables.get? name with
  | none => exact absurd (refuses_run rfl hr) h.not_refuses
  | some r =>
    rw [run_update hr] at h
    simp only [gives_bind, gives_pure, Prod.exists, Prod.mk.injEq] at h
    obtain ⟨r', n, _, hupdate, ⟨rfl, rfl⟩, rfl⟩ := h
    exact ⟨r, r', n, rfl, hupdate, rfl, rfl⟩

end Plan
end MiniSql
