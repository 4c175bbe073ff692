/-
# Inserting several rows at once

An insert of several rows is the inserts of its rows one after the other: it is given exactly where
all of these are, and then it leaves the same relation and has stored what they have stored
(`Mutation.gives_insert_iff_inTurn`).

| what a batch does first for all rows | why it comes to the same row by row |
| --- | --- |
| its slots are computed | they do not depend on the table, nor on the time |
| the rows are completed | each goes on with the number and the time that the last one left |
| the keys are checked | a key is new among the stored rows and the earlier ones, pushed or not |
| the rows are pushed | they are pushed one by one |

The slots are those of values that do not read the clock. Defaults may read it: they are taken row
by row in both.
-/

import MiniSql.Proofs.Concur
import MiniSql.Proofs.Query.Matching
import MiniSql.Proofs.Store.Insert

namespace MiniSql

open Timed

namespace Relation

variable {s : Schema} {r r' : Relation} {t t' : Time.Clock} {slot : List (Option Value)}
  {slots : List (List (Option Value))} {row : Row} {rows : List Row} {stored : Inserted}

/-! ## The parts of an insert -/

/-- What two inserts have stored, one after the other. -/
def Inserted.append (a b : Inserted) : Inserted := ⟨a.rows ++ b.rows, b.lastNumber.or a.lastNumber⟩

/-- The last number that was handed out earlier only matters where none is handed out. -/
theorem completed_iff_fresh {n n' : Numbering} : Completed s n t slots rows n' t' ↔
    ∃ last, Completed s ⟨n.next, none⟩ t slots rows ⟨n'.next, last⟩ t' ∧
      n'.last = last.or n.last := by
  constructor
  · rintro ⟨hcells, ⟨hconsecutive, hlast⟩, htimes⟩
    exact ⟨(rows.flatMap (numbersOf s.columns)).getLast?,
      ⟨hcells, ⟨hconsecutive, Option.or_none.symm⟩, htimes⟩, hlast⟩
  · rintro ⟨last, ⟨hcells, ⟨hconsecutive, hlast⟩, htimes⟩, hn'⟩
    rw [Option.or_none] at hlast
    refine ⟨hcells, ⟨hconsecutive, ?_⟩, htimes⟩
    rw [hn', show last = _ from hlast]

/-- The first of the rows is completed, and the others from what it leaves. -/
theorem completed_cons_fresh {n : Int64} {n' : Numbering} :
    Completed s ⟨n, none⟩ t (slot :: slots) rows n' t' ↔
      ∃ row rest m mid last, rows = row :: rest ∧
        Completed s ⟨n, none⟩ t [slot] [row] m mid ∧
        Completed s ⟨m.next, none⟩ mid slots rest ⟨n'.next, last⟩ t' ∧
        n'.last = last.or m.last := by
  have hone {row : Row} {m : Numbering} {mid : Time.Clock} :
      Completed s ⟨n, none⟩ t [slot] [row] m mid ↔
        RowCompleted s.columns ⟨n, none⟩ t slot row m mid := by
    rw [completed_cons]
    constructor
    · rintro ⟨m', mid', hrow, hrest⟩
      obtain rfl := Numbering.handsOut_nil.1 hrest.numbers
      cases hrest.times
      exact hrow
    · exact fun h => ⟨m, mid, h, .nil, Numbering.handsOut_nil.2 rfl, .nil mid⟩
  constructor
  · intro h
    cases rows with
    | nil => cases h.cells
    | cons row rest =>
      obtain ⟨m, mid, hrow, hrest⟩ := completed_cons.1 h
      obtain ⟨last, hrest, hlast⟩ := completed_iff_fresh.1 hrest
      exact ⟨row, rest, m, mid, last, rfl, hone.2 hrow, hrest, hlast⟩
  · rintro ⟨row, rest, m, mid, last, rfl, hrow, hrest, hlast⟩
    exact completed_cons.2 ⟨m, mid, hone.1 hrow, completed_iff_fresh.2 ⟨last, hrest, hlast⟩⟩

/-- Keys are new where the first is, and the others are once the first is stored. -/
theorem keysNew_cons (hr : r.log.Ascends) :
    r.KeysNew Record.kept (row :: rows) ↔
      r.KeysNew Record.kept [row] ∧ (r.push row).KeysNew Record.kept rows := by
  have hscan : (r.push row).scan = r.scan ++ [(r.nextId, Record.kept row)] :=
    @scan_pushAll r [row] hr.below
  unfold KeysNew
  simp only [hscan, List.map_cons, List.nodup_cons, List.forall_mem_cons, List.forall_mem_append,
    List.map_nil, List.nodup_nil, List.mem_map, List.not_mem_nil, not_false_iff, not_exists,
    not_and, and_true, true_and, false_imp_iff, implies_true]
  constructor
  · intro h
    refine ⟨fun key hkey => (h key hkey).2.1, fun key hkey => ?_⟩
    obtain ⟨⟨hother, hnodup⟩, -, hnew⟩ := h key hkey
    exact ⟨hnodup, fun row' hrow' => ⟨hnew row' hrow', hother row' hrow'⟩⟩
  · rintro ⟨hfirst, hrest⟩ key hkey
    obtain ⟨hnodup, hnew⟩ := hrest key hkey
    exact ⟨⟨fun row' hrow' => (hnew row' hrow').2, hnodup⟩, hfirst key hkey,
      fun row' hrow' => (hnew row' hrow').1⟩

/-- The counter stands apart from the rows. -/
theorem pushAll_nextNumber (n : Int64) :
    rows.foldl push { r with nextNumber := n } = { rows.foldl push r with nextNumber := n } := by
  induction rows generalizing r with
  | nil => rfl
  | cons row rows ih => exact ih (r := r.push row)

/-- **An insert is the insert of its first row and that of the others.** -/
theorem gives_insert_cons (hr : r.log.Ascends) (hs : ∀ c ∈ r.schema.columns,
      Schema.columnFault? c = none) :
    Gives (r.insert (slot :: slots)) t (r', stored) t' ↔
      ∃ r₁ first mid rest, Gives (r.insert [slot]) t (r₁, first) mid ∧
        Gives (r₁.insert slots) mid (r', rest) t' ∧ stored = first.append rest := by
  constructor
  · intro h
    obtain ⟨rows, n, hrows, hunique, rfl, rfl⟩ := gives_insert.1 h
    obtain ⟨row, rest, m, mid, last, rfl, hfirst, hrest, hlast⟩ :=
      completed_cons_fresh.1 ((completeRows_iff hs).1 hrows)
    obtain ⟨hnew, hnewRest⟩ := (keysNew_cons hr).1 (checkUnique_eq_ok_iff_keysNew.1 hunique)
    refine ⟨_, _, mid, ⟨rest, last⟩, gives_insert.2 ⟨[row], m, (completeRows_iff hs).2 hfirst,
      checkUnique_eq_ok_iff_keysNew.2 hnew, rfl, rfl⟩, gives_insert.2 ⟨rest, ⟨n.next, last⟩,
      (completeRows_iff hs).2 hrest, checkUnique_eq_ok_iff_keysNew.2 hnewRest, ?_, rfl⟩, ?_⟩
    · exact congrArg (fun x : Relation => { x with nextNumber := n.next })
        (pushAll_nextNumber m.next).symm
    · rw [Inserted.append, hlast]
      rfl
  · rintro ⟨r₁, first, mid, rest, hfirst, hrest, rfl⟩
    obtain ⟨rows, m, hrows, hunique, rfl, rfl⟩ := gives_insert.1 hfirst
    obtain ⟨row, _, _, _, _, rfl, -⟩ := completed_cons_fresh.1 ((completeRows_iff hs).1 hrows)
    have hcells := ((completeRows_iff hs).1 hrows).cells.length_eq
    obtain rfl : _ = [] := List.length_eq_zero_iff.1 (by simpa using hcells.symm)
    obtain ⟨others, n, hothers, huniqueOthers, rfl, rfl⟩ := gives_insert.1 hrest
    refine gives_insert.2 ⟨row :: others, ⟨n.next, n.last.or m.last⟩, ?_, ?_, ?_, rfl⟩
    · refine (completeRows_iff hs).2 (completed_cons_fresh.2 ⟨row, others, m, mid, n.last, rfl,
        (completeRows_iff hs).1 hrows, (completeRows_iff hs).1 hothers, rfl⟩)
    · exact checkUnique_eq_ok_iff_keysNew.2 ((keysNew_cons hr).2
        ⟨checkUnique_eq_ok_iff_keysNew.1 hunique, checkUnique_eq_ok_iff_keysNew.1 huniqueOthers⟩)
    · exact congrArg (fun x : Relation => { x with nextNumber := n.next })
        (pushAll_nextNumber m.next)

/-! ## What several inserts have stored -/

/-- What some inserts have stored, one after the other. -/
def Inserted.total (each : List Inserted) : Inserted := each.foldr Inserted.append ⟨[], none⟩

/-- The rows of a batch are those of its parts. -/
theorem Inserted.rows_total (each : List Inserted) :
    (total each).rows = each.flatMap (·.rows) := by
  induction each with
  | nil => rfl
  | cons first each ih =>
    rw [List.flatMap_cons, ← ih]
    rfl

/-- The last number is that of the last insert, where all of them hand out numbers or none does. -/
theorem Inserted.lastNumber_total {each : List Inserted} {b : Bool}
    (h : ∀ stored ∈ each, stored.lastNumber.isSome = b) {last : Inserted}
    (hlast : each.getLast? = some last) : (total each).lastNumber = last.lastNumber := by
  induction each with
  | nil => cases hlast
  | cons first each ih =>
    obtain ⟨hfirst, hrest⟩ := List.forall_mem_cons.1 h
    show (total each).lastNumber.or first.lastNumber = _
    cases each with
    | nil =>
      obtain rfl : first = last := Option.some.inj hlast
      exact Option.none_or
    | cons second each =>
      rw [List.getLast?_cons_cons] at hlast
      have hb := hrest last (List.mem_of_getLast? hlast)
      rw [ih hrest hlast]
      cases hnumber : last.lastNumber with
      | some n => rfl
      | none =>
        rw [hnumber] at hb
        rw [← hb] at hfirst
        rw [Option.none_or]
        simpa using hfirst

/-- An insert of a row hands out a number if the table has an autoincrement column. -/
theorem isSome_lastNumber (hs : ∀ c ∈ r.schema.columns, Schema.columnFault? c = none)
    (h : Gives (r.insert [slot]) t (r', stored) t') : stored.rows.length = 1 ∧
      stored.lastNumber.isSome = decide (0 < r.schema.columns.countP (·.autoincrement)) := by
  obtain ⟨rows, n, hrows, -, -, rfl⟩ := gives_insert.1 h
  have hcompleted := (completeRows_iff hs).1 hrows
  have hlength : rows.length = 1 := hcompleted.cells.length_eq.symm
  have hnumbers := hcompleted.length_numbers
  have hlast : n.last = (rows.flatMap (numbersOf r.schema.columns)).getLast?.or none :=
    hcompleted.numbers.last
  rw [hlength, Nat.one_mul] at hnumbers
  refine ⟨hlength, ?_⟩
  rw [← hnumbers]
  show n.last.isSome = _
  rw [hlast, Option.or_none]
  cases rows.flatMap (numbersOf r.schema.columns) with
  | nil => rfl
  | cons k ks => simp [List.getLast?_cons]

end Relation

/-! ## Statements -/

open MiniSql.Relation (Inserted)

namespace Mutation

variable {r r' : Relation} {s : Schema} {t t' : Time.Clock} {columns : List String}
  {tuple : List Expression} {tuples : List (List Expression)} {stored : Inserted}

/-- None of the values reads the clock. -/
def Untimed (tuples : List (List Expression)) : Prop :=
  ∀ tuple ∈ tuples, ∀ e ∈ tuple, e.readsClock = false

/-- A slot without a clock is timeless. -/
theorem slot_timeless {e : Expression} (h : e.readsClock = false) : Timeless (slot e) := by
  unfold slot
  split
  · exact .pure _
  · exact .refuse _
  · exact (Expression.evaluate_timeless h).bind fun _ => .pure _

/-- Slots of rows without a clock are timeless. -/
theorem slots_timeless (h : Untimed tuples) : Timeless (slots s columns tuples) :=
  .mapM fun tuple htuple => (Timeless.mapM fun e he => slot_timeless (h tuple htuple e he)).bind
    fun _ => .ofExcept _

/-- The slots of several tuples are those of the first and those of the others. -/
theorem slots_cons : slots s columns (tuple :: tuples) = do
    let first ← slots s columns [tuple]
    let rest ← slots s columns tuples
    return first ++ rest := by
  unfold slots
  simp only [List.mapM_cons, List.mapM_nil, bind_assoc, pure_bind]
  rfl

/-- **An `INSERT` of several tuples** is that of the first and that of the others. -/
theorem gives_insert_cons (hr : r.log.Ascends)
    (hs : ∀ c ∈ r.schema.columns, Schema.columnFault? c = none)
    (h : Untimed (tuple :: tuples)) :
    Gives (insert r columns (tuple :: tuples)) t (r', stored) t' ↔
      ∃ r₁ first mid rest, Gives (insert r columns [tuple]) t (r₁, first) mid ∧
        Gives (insert r₁ columns tuples) mid (r', rest) t' ∧ stored = first.append rest := by
  have hone : Timeless (slots r.schema columns [tuple]) :=
    slots_timeless (List.forall_mem_singleton.2 (List.forall_mem_cons.1 h).1)
  have hothers : Timeless (slots r.schema columns tuples) :=
    slots_timeless (List.forall_mem_cons.1 h).2
  have hslots {slotted : List (List (Option Value))} {mid : Time.Clock} :
      Gives (slots r.schema columns (tuple :: tuples)) t slotted mid ↔
        ∃ slot rest, slotted = slot :: rest ∧ mid = t ∧
          (∀ u, Gives (slots r.schema columns [tuple]) u [slot] u) ∧
          ∀ u, Gives (slots r.schema columns tuples) u rest u := by
    rw [slots_cons]
    simp only [gives_bind, gives_pure]
    constructor
    · rintro ⟨first, _, hfirst, rest, _, hrest, rfl, rfl⟩
      obtain ⟨slot, rfl⟩ := List.length_eq_one_iff.1 hfirst.mapM.length_eq.symm
      obtain ⟨rfl, hslot⟩ := hone.gives_iff.1 hfirst
      obtain ⟨rfl, hothers⟩ := hothers.gives_iff.1 hrest
      exact ⟨slot, rest, rfl, rfl, hslot, hothers⟩
    · rintro ⟨slot, rest, rfl, rfl, hfirst, hrest⟩
      exact ⟨[slot], mid, hfirst mid, rest, mid, hrest mid, rfl, rfl⟩
  constructor
  · intro h
    obtain ⟨_, _, hslotted, hgiven⟩ := gives_insert.1 h
    obtain ⟨slot, rest, rfl, rfl, hfirst, hrest⟩ := hslots.1 hslotted
    obtain ⟨r₁, stored₁, mid, others, hinsert, hinserts, rfl⟩ :=
      (Relation.gives_insert_cons hr hs).1 hgiven
    have hschema := (Relation.Step.insert hinsert).schema_eq
    exact ⟨r₁, stored₁, mid, others, gives_insert.2 ⟨[slot], _, hfirst _, hinsert⟩,
      gives_insert.2 ⟨rest, mid, hschema ▸ hrest mid, hinserts⟩, rfl⟩
  · rintro ⟨r₁, stored₁, mid, others, h, h', rfl⟩
    obtain ⟨first, _, hslotsFirst, hinsert⟩ := gives_insert.1 h
    obtain ⟨rest, _, hslotsRest, hinserts⟩ := gives_insert.1 h'
    obtain ⟨slot, rfl⟩ := List.length_eq_one_iff.1 hslotsFirst.mapM.length_eq.symm
    rw [(Relation.Step.insert hinsert).schema_eq] at hslotsRest
    obtain ⟨rfl, hfirst⟩ := hone.gives_iff.1 hslotsFirst
    obtain ⟨rfl, hrest⟩ := hothers.gives_iff.1 hslotsRest
    exact gives_insert.2 ⟨slot :: rest, _, hslots.2 ⟨slot, rest, rfl, rfl, hfirst, hrest⟩,
      (Relation.gives_insert_cons hr hs).2 ⟨r₁, stored₁, _, others, hinsert, hinserts, rfl⟩⟩

/-- Inserts of one tuple each, one after the other, and what each of them stores. -/
inductive InTurn (columns : List String) : Relation → Time.Clock → List (List Expression) →
    List Inserted → Relation → Time.Clock → Prop
  | nil (r : Relation) (t : Time.Clock) : InTurn columns r t [] [] r t
  | cons {r r₁ r' : Relation} {t mid t' : Time.Clock} {tuple : List Expression}
      {tuples : List (List Expression)} {first : Inserted} {each : List Inserted}
      (h : Gives (insert r columns [tuple]) t (r₁, first) mid)
      (hs : InTurn columns r₁ mid tuples each r' t') :
      InTurn columns r t (tuple :: tuples) (first :: each) r' t'

/-- **A batch is its tuples one by one.** -/
theorem gives_insert_iff_inTurn (hr : r.log.Ascends)
    (hs : ∀ c ∈ r.schema.columns, Schema.columnFault? c = none) (h : Untimed tuples) :
    Gives (insert r columns tuples) t (r', stored) t' ↔
      ∃ each, InTurn columns r t tuples each r' t' ∧ stored = Inserted.total each := by
  induction tuples generalizing r t stored with
  | nil =>
    constructor
    · intro hinsert
      obtain ⟨_, _, hslots, hinsert⟩ := gives_insert.1 hinsert
      obtain ⟨rfl, rfl⟩ := gives_pure.1 hslots
      obtain ⟨_, _, hrows, -, rfl, rfl⟩ := Relation.gives_insert.1 hinsert
      obtain ⟨hsame, rfl⟩ := gives_pure.1 hrows
      cases hsame
      exact ⟨[], .nil r _, rfl⟩
    · rintro ⟨_, ⟨⟩, rfl⟩
      refine gives_insert.2 ⟨[], _, gives_pure.2 ⟨rfl, rfl⟩, Relation.gives_insert.2
        ⟨[], ⟨_, none⟩, gives_pure.2 ⟨rfl, rfl⟩, ?_, rfl, rfl⟩⟩
      exact Relation.checkUnique_eq_ok_iff_keysNew.2 fun _ _ => ⟨.nil, fun _ h => nomatch h⟩
  | cons tuple tuples ih =>
    have hrest : Untimed tuples := (List.forall_mem_cons.1 h).2
    rw [gives_insert_cons hr hs h]
    -- What the first insert leaves is a relation of the same schema whose ids ascend.
    have hleft {r₁ : Relation} {first : Inserted} {mid : Time.Clock}
        (h : Gives (insert r columns [tuple]) t (r₁, first) mid) :
        r₁.log.Ascends ∧ ∀ c ∈ r₁.schema.columns, Schema.columnFault? c = none := by
      obtain ⟨_, _, -, hinsert⟩ := gives_insert.1 h
      have hstep := Relation.Step.insert hinsert
      exact ⟨hstep.ascends hr, hstep.schema_eq ▸ hs⟩
    constructor
    · rintro ⟨r₁, first, mid, rest, hfirst, hinserts, rfl⟩
      obtain ⟨hr₁, hs₁⟩ := hleft hfirst
      obtain ⟨each, heach, rfl⟩ := (ih hr₁ hs₁ hrest).1 hinserts
      exact ⟨first :: each, .cons hfirst heach, rfl⟩
    · rintro ⟨_, ⟨⟩, rfl⟩
      rename_i r₁ mid first each hfirst heach
      obtain ⟨hr₁, hs₁⟩ := hleft hfirst
      exact ⟨r₁, first, mid, Inserted.total each, hfirst,
        (ih hr₁ hs₁ hrest).2 ⟨each, heach, rfl⟩, rfl⟩

/-- Each of the inserts stores one row, and all of them hand out numbers or none does. -/
theorem InTurn.each {each : List Inserted}
    (hs : ∀ c ∈ r.schema.columns, Schema.columnFault? c = none)
    (h : InTurn columns r t tuples each r' t') :
    each.length = tuples.length ∧ ∀ stored ∈ each, stored.rows.length = 1 ∧
      stored.lastNumber.isSome = decide (0 < r.schema.columns.countP (·.autoincrement)) := by
  induction h with
  | nil => exact ⟨rfl, fun _ h => nomatch h⟩
  | @cons r r₁ _ _ _ _ tuple _ first _ hfirst _ ih =>
    obtain ⟨slotted, _, hslots, hinsert⟩ := gives_insert.1 hfirst
    have hschema := (Relation.Step.insert hinsert).schema_eq
    obtain ⟨slot, rfl⟩ := List.length_eq_one_iff.1 hslots.mapM.length_eq.symm
    rw [hschema] at ih
    obtain ⟨hlength, hrest⟩ := ih hs
    exact ⟨congrArg (· + 1) hlength,
      List.forall_mem_cons.2 ⟨Relation.isSome_lastNumber hs hinsert, hrest⟩⟩

end Mutation
end MiniSql
