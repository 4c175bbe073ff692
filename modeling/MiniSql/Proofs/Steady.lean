/-
# When a computation depends on the clock

A computation learns of the time only by reading the clock, and each reading moves the clock on. So
one that leaves the clock where it was would have ended in the same way at any other time. `Steady`
says this, and that the clock never goes back. There is one law for each way to build a computation,
and everything that a statement does is built in these ways (`Database.execute_steady`):

| part of a statement | theorem |
| --- | --- |
| predicates and values | `Expression.evaluate_steady` |
| queries | `Query.run_steady` |
| changes of a table | `Mutation.insert_steady`, `Mutation.update_steady`, `Mutation.delete_steady` |
-/

import MiniSql.Proofs.Timed
import MiniSql.Session

namespace MiniSql

/-! ## Ways to build a computation -/

namespace Timed

variable {α β : Type}

/-- The clock does not go back, and where it is left alone the time does not matter. -/
structure Steady (x : Timed α) : Prop where
  forward : ∀ t : Time.Clock, t.Passes (x.run.run t).2
  still : ∀ t, (x.run.run t).2 = t → ∀ u, x.run.run u = ((x.run.run t).1, u)

namespace Steady

/-- A value that is there needs no clock. -/
theorem pure (a : α) : Steady (Pure.pure a : Timed α) := ⟨.refl, fun _ _ _ => rfl⟩

/-- A refusal needs no clock. -/
theorem refuse (e : Error) : Steady (Timed.refuse e : Timed α) := ⟨.refl, fun _ _ _ => rfl⟩

/-- A computation that has no time in it needs no clock. -/
theorem ofExcept (x : Except Error α) : Steady (Timed.ofExcept x) := by
  cases x with
  | ok a => exact pure a
  | error e => exact refuse e

/-- A reading moves the clock on. -/
theorem now : Steady Timed.now := by
  refine ⟨Time.Clock.passes_read, fun t h => ?_⟩
  have hnext : t.read.2.next = t.next := congrArg Time.Clock.next h
  have hlt := t.next_lt_read
  omega

/-- Where the clock is left alone in the end, neither of two steps has moved it. -/
theorem bind {x : Timed α} {f : α → Timed β} (hx : Steady x) (hf : ∀ a, Steady (f a)) :
    Steady (x >>= f) := by
  constructor
  · intro t
    have hfirst := hx.forward t
    rw [run_bind]
    rcases hrun : x.run.run t with ⟨e | a, mid⟩ <;> rw [hrun] at hfirst
    · exact hfirst
    · exact hfirst.trans ((hf a).forward mid)
  · intro t hend u
    have hfirst := hx.forward t
    have hsame := hx.still t
    rw [run_bind] at hend
    rw [run_bind, run_bind]
    rcases hrun : x.run.run t with ⟨e | a, mid⟩ <;> rw [hrun] at hend hfirst hsame
    · obtain rfl : mid = t := hend
      rw [hsame rfl u]
    · have hback : mid.Passes t := hend ▸ (hf a).forward mid
      obtain rfl : mid = t := hfirst.antisymm hback
      rw [hsame rfl u]
      exact (hf a).still mid hend u

/-- What is made of a result afterwards leaves the clock. -/
theorem map {x : Timed α} (f : α → β) (hx : Steady x) : Steady (f <$> x) := by
  rw [map_eq_pure_bind]
  exact hx.bind fun a => pure (f a)

/-- A pass is steady if each of its steps is, by induction on the list. -/
theorem mapM {f : α → Timed β} (hf : ∀ a, Steady (f a)) (l : List α) : Steady (l.mapM f) := by
  induction l with
  | nil => exact pure []
  | cons a l ih =>
    rw [List.mapM_cons]
    exact (hf a).bind fun b => ih.bind fun bs => pure (b :: bs)

/-- A branch is steady if both sides are. -/
theorem ite {p : Prop} [Decidable p] {x y : Timed α} (hx : Steady x) (hy : Steady y) :
    Steady (if p then x else y) := by
  split
  · exact hx
  · exact hy

end Steady

end Timed

open Timed

/-! ## Expressions and queries -/

/-- **An expression** reads the clock for `CURRENT_TIMESTAMP` only, by induction on it. -/
theorem Expression.evaluate_steady (labels : List String) (row : Row) (e : Expression) :
    Steady (e.evaluate labels row) := by
  induction e with
  | constant v => exact .pure v
  | field c => exact .ofExcept _
  | currentTime => exact Steady.now.bind fun i => .pure _
  | default => exact .refuse _
  | compare sign left right ihl ihr => exact ihl.bind fun a => ihr.bind fun b => .pure _
  | isNull operand negated ih => exact ih.bind fun v => .pure _
  | and left right ihl ihr => exact ihl.bind fun a => .ite (ihr.bind fun b => .pure _) (.pure _)
  | or left right ihl ihr => exact ihl.bind fun a => .ite (.pure _) (ihr.bind fun b => .pure _)

/-- A predicate is the expression that it is read from. -/
theorem Expression.holds_steady (e : Expression) (labels : List String) (row : Row) :
    Steady (e.holds labels row) :=
  (e.evaluate_steady labels row).bind fun _ => .pure _

namespace Rowset

/-- Choosing rows is steady if the test is, row by row. -/
theorem keep_steady {test : Row → Timed Bool} (h : ∀ row, Steady (test row)) (rows : List Row) :
    Steady (keep test rows) := by
  induction rows with
  | nil => exact .pure []
  | cons row rows ih => exact (h row).bind fun kept => ih.bind fun rest => .pure _

/-- Filtering the rows of a set is steady, since a predicate is. -/
theorem filter_steady (s : Rowset) (p : Expression) : Steady (s.filter p) :=
  (keep_steady (p.holds_steady s.columns) s.rows).bind fun _ => .pure _

/-- The condition of a join is a predicate, or there is none. -/
theorem admits_steady (p : Option Expression) (labels : List String) (row : Row) :
    Steady (admits p labels row) := by
  cases p with
  | none => exact .pure true
  | some p => exact p.holds_steady labels row

/-- Pairing rows tests each pair in turn. -/
theorem pairAll_steady {test : Row → Timed Bool} (h : ∀ row, Steady (test row)) (outer : Bool)
    (padding : Row) (right lefts : List Row) : Steady (pairAll test outer padding right lefts) := by
  induction lefts with
  | nil => exact .pure []
  | cons left lefts ih => exact (keep_steady h _).bind fun found => ih.bind fun rest => .pure _

/-- A join is steady with any condition. -/
theorem join_steady (l r : Rowset) (p : Option Expression) (outer : Bool) :
    Steady (l.join r p outer) :=
  (pairAll_steady (admits_steady p _) outer _ r.rows l.rows).bind fun _ => .pure _

end Rowset

/-- **A query** depends on the time only through the clock. -/
theorem Query.run_steady (table : String → Except Error Relation) (q : Query) :
    Steady (q.run table) := by
  induction q with
  | scan name => exact (Steady.ofExcept _).bind fun r => .pure _
  | join left right p outer ihl ihr => exact ihl.bind fun l => ihr.bind fun r => l.join_steady r p _
  | filter source p ih => exact ih.bind fun s => s.filter_steady p
  | order source keys ih => exact ih.bind fun s => .ofExcept _
  | offset source n ih => exact ih.bind fun s => .pure _
  | limit source n ih => exact ih.bind fun s => .pure _
  | projection source items ih => exact ih.bind fun s => .ofExcept _
  | aggregate source calls ih => exact ih.bind fun s => .ofExcept _

/-! ## Changes of a table -/

/-- A default reads the clock if it is the current time. -/
theorem Column.defaultValue?_steady (c : Column) : Steady c.defaultValue? := by
  unfold defaultValue?
  split
  · exact .pure _
  · exact Steady.now.bind fun i => .pure _
  · exact .pure _

namespace Relation

/-- Completing a cell reads the clock for its default at most. -/
theorem complete_steady (c : Column) (slot : Option Value) (n : Numbering) :
    Steady (complete c slot n) := by
  unfold complete
  split
  · split
    · exact .pure _
    · exact .pure _
    · exact .refuse _
  · split
    · exact .pure _
    · refine c.defaultValue?_steady.bind fun v => ?_
      split
      · exact .pure _
      · exact .refuse _

/-- A row is completed cell by cell. -/
theorem completeAll_steady (columns : List Column) (slots : List (Option Value)) (n : Numbering) :
    Steady (completeAll columns slots n) := by
  induction columns generalizing slots n with
  | nil => exact .pure _
  | cons c columns ih =>
    cases slots with
    | nil => exact .pure _
    | cons slot slots =>
      exact (complete_steady c slot n).bind fun v => (ih slots v.2).bind fun row => .pure _

/-- A row of another width is refused at once. -/
theorem completeRow_steady (s : Schema) (slots : List (Option Value)) (n : Numbering) :
    Steady (completeRow s slots n) :=
  .ite (.refuse _) ((completeAll_steady s.columns slots n).bind fun _ =>
    (Steady.ofExcept _).bind fun _ => .pure _)

/-- Rows are completed one after the other. -/
theorem completeRows_steady (s : Schema) (slots : List (List (Option Value))) (n : Numbering) :
    Steady (completeRows s slots n) := by
  induction slots generalizing n with
  | nil => exact .pure _
  | cons slot slots ih =>
    exact (completeRow_steady s slot n).bind fun row => (ih row.2).bind fun rows => .pure _

/-- An insert reads the clock to complete its rows, and for nothing else. -/
theorem insert_steady (r : Relation) (slots : List (List (Option Value))) :
    Steady (r.insert slots) :=
  (completeRows_steady r.schema slots _).bind fun _ => (Steady.ofExcept _).bind fun _ => .pure _

/-- A stamp is a reading for each column that is stamped. -/
theorem stamp_steady (columns : List Column) (row : Row) : Steady (stamp columns row) := by
  induction columns generalizing row with
  | nil => exact .pure []
  | cons c columns ih =>
    cases row with
    | nil => exact .pure []
    | cons v row =>
      have hrest (w : Value) : Steady (do return w :: (← stamp columns row)) :=
        (ih row).bind fun _ => .pure _
      exact .ite ((Steady.now.map _).bind hrest) ((Steady.pure v).bind hrest)

/-- A changed row is prepared without the clock, and then stamped. -/
theorem change_steady (r : Relation) (id : Nat) (row : Row) : Steady (r.change id row) :=
  .ite ((Steady.ofExcept _).bind fun prepared =>
    (stamp_steady r.schema.columns prepared).bind fun _ => .pure _) (.refuse _)

/-- An update stores the rows that it lists one after the other. -/
theorem update_steady (r : Relation) (changes : List (Nat × Row)) : Steady (r.update changes) :=
  (Steady.mapM (f := fun e : Nat × Row => r.change e.1 e.2) (fun e => r.change_steady e.1 e.2)
    changes).bind fun _ => (Steady.ofExcept _).bind fun _ => .pure _

end Relation

namespace Mutation

/-- What a tuple supplies is an expression, or the word `DEFAULT`. -/
theorem slot_steady (e : Expression) : Steady (slot e) := by
  unfold slot
  split
  · exact .pure none
  · exact .refuse _
  · exact (e.evaluate_steady [] []).bind fun v => .pure _

/-- An `INSERT` evaluates its tuples and then inserts them. -/
theorem insert_steady (r : Relation) (columns : List String) (rows : List (List Expression)) :
    Steady (insert r columns rows) := by
  have hslots : Steady (slots r.schema columns rows) :=
    .mapM (fun tuple => (Steady.mapM slot_steady tuple).bind fun values => .ofExcept _) rows
  exact hslots.bind fun slotted => r.insert_steady slotted

/-- What is assigned is an expression, or the default of the column. -/
theorem newValue_steady (s : Schema) (row : Row) (i : Nat) (e : Expression) :
    Steady (newValue s row i e) := by
  unfold newValue
  split
  · refine (Column.defaultValue?_steady _).bind fun v => ?_
    split
    · exact .pure _
    · exact .refuse _
  · exact Expression.evaluate_steady _ _ _

/-- The assignments to a row are evaluated one after the other. -/
theorem assign_steady (s : Schema) (row changed : Row) (assigned : List (Nat × Expression)) :
    Steady (assign s row changed assigned) := by
  induction assigned generalizing changed with
  | nil => exact .pure changed
  | cons a assigned ih => exact (newValue_steady s row a.1 a.2).bind fun v => ih _

/-- An `UPDATE` evaluates the assignments to each row that the predicate finds. -/
theorem changes_steady (s : Schema) (p : Expression) (assigned : List (Nat × Expression))
    (entries : List (Nat × Row)) : Steady (changes s p assigned entries) := by
  induction entries with
  | nil => exact .pure []
  | cons e entries ih =>
    exact (p.holds_steady s.labels e.2).bind fun found =>
      .ite ((assign_steady s e.2 e.2 assigned).bind fun row => ih.bind fun rest => .pure _) ih

/-- An `UPDATE` computes its rows and then stores them. -/
theorem update_steady (r : Relation) (p : Expression) (assignments : List (String × Expression)) :
    Steady (update r p assignments) :=
  (Steady.ofExcept _).bind fun assigned =>
    (changes_steady r.schema p assigned r.scan).bind fun changed => r.update_steady changed

/-- A predicate is asked of one row after the other. -/
theorem matching_steady (s : Schema) (p : Expression) (entries : List (Nat × Row)) :
    Steady (matching s p entries) := by
  induction entries with
  | nil => exact .pure []
  | cons e entries ih =>
    exact (p.holds_steady s.labels e.2).bind fun found => ih.bind fun ids => .pure _

/-- A `DELETE` reads the clock for its predicate only. -/
theorem delete_steady (r : Relation) (p : Expression) : Steady (delete r p) :=
  (matching_steady r.schema p r.scan).bind fun _ => .pure _

end Mutation

/-! ## Statements -/

/-- A plan is carried out by one of these, or does not read the clock at all. -/
theorem Plan.carryOut_steady (start : Int64) (c : Catalog) (p : Plan) :
    Steady (p.carryOut start c) := by
  cases p with
  | createTable s ifNotExists => exact (Steady.ofExcept _).bind fun out => .pure _
  | dropTable table ifExists => exact (Steady.ofExcept _).bind fun out => .pure _
  | truncate table => exact (Steady.ofExcept _).bind fun r => .pure _
  | insert table columns rows returning =>
    exact (Steady.ofExcept _).bind fun r => (Mutation.insert_steady r columns rows).bind
      fun out => .pure _
  | update table p assignments =>
    exact (Steady.ofExcept _).bind fun r => (Mutation.update_steady r p assignments).bind
      fun out => .pure _
  | delete table p =>
    exact (Steady.ofExcept _).bind fun r => (Mutation.delete_steady r p).bind fun out => .pure _
  | query q => exact (q.run_steady _).bind fun set => .pure _

/-- The locks of a plan are granted without the clock. -/
theorem Plan.run_steady (start : Int64) (c : Catalog) (p : Plan) : Steady (p.run start c) :=
  (Steady.ofExcept _).bind fun _ => p.carryOut_steady start c

/-- **A statement** does not set the clock back. One that leaves it alone has the same answer, and
leaves the same database, at any other time. -/
theorem Database.execute_steady (d : Database) (sql : String) (arguments : List Value)
    (t : Time.Clock) :
    t.Passes ((d.execute sql arguments).run t).2 ∧
      (((d.execute sql arguments).run t).2 = t →
        ∀ u, (d.execute sql arguments).run u = (((d.execute sql arguments).run t).1, u)) := by
  unfold execute
  split
  · exact ⟨.refl t, fun _ _ => rfl⟩
  · rename_i p hp
    have hsteady := p.run_steady d.options.autoincrementStart d.catalog
    have hforward := hsteady.forward t
    have hstill := hsteady.still t
    rw [StateT.run_bind]
    rcases hrun : (p.run d.options.autoincrementStart d.catalog).run.run t with ⟨e | out, mid⟩ <;>
      rw [hrun] at hforward hstill
    · refine ⟨hforward, fun hend u => ?_⟩
      rw [StateT.run_bind, hstill hend u]
      rfl
    · refine ⟨hforward, fun hend u => ?_⟩
      rw [StateT.run_bind, hstill hend u]
      rfl

end MiniSql
