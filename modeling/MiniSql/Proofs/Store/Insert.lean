/-
# The law of an insert

When an insert of some rows is accepted, and what it stores (`Relation.insert_law`). It is accepted
when every row has one slot for each column, every slot is one that its column takes, and the
primary keys of the completed rows are new. What the rows are completed to is fixed by the counter
and the clock (`Relation.Completed`).

| part of the relation | after the insert |
| --- | --- |
| rows | the old ones, and the completed ones behind them under the next ids |
| numbers | consecutive in the autoincrement columns, column by column and row by row |
| counter | further by as many as there are numbers |
| all of it | unchanged if the insert is refused |

The law holds of the completed rows as they are kept: these are compared by their keys, and these
are read back. It holds of the completed rows themselves where everything that is supplied, and every
default, is decoded from its own bytes.

The relation is any that changes have led to, at whatever times (`Relation.Reachable`).
-/

import Mathlib.Algebra.Group.Defs
import MiniSql.Proofs.Store.Completed
import MiniSql.Proofs.Store.Keys
import MiniSql.Proofs.Store.Log

namespace MiniSql

namespace Relation

open Timed

/-! ## What an insert leaves -/

/-- The primary keys of the rows, as far as `keep` keeps them, differ from each other and from those
of all stored rows. -/
def KeysNew (keep : Row → Row) (r : Relation) (rows : List Row) : Prop :=
  ∀ key, r.schema.primaryKey? = some key → ((rows.map keep).map (valueAt key)).Nodup ∧
    ∀ row ∈ rows.map keep, ∀ e ∈ r.scan, valueAt key row ≠ valueAt key e.2

/-- The second relation is the first after an insert of some slots at some time, which has answered
with the completed rows and stored what `keep` keeps of them. -/
structure Inserts (keep : Row → Row) (r : Relation) (slots : List (List (Option Value)))
    (t : Time.Clock) (stored : Inserted) (r' : Relation) (t' : Time.Clock) : Prop where
  schema : r'.schema = r.schema
  /-- The rows are what the slots are completed to, from the counter of the table on. -/
  completed : Completed r.schema ⟨r.nextNumber, none⟩ t slots stored.rows
    ⟨r'.nextNumber, stored.lastNumber⟩ t'
  /-- They stand behind the others, under the next ids. -/
  scan : r'.scan = r.scan ++ ((stored.rows.map keep).zipIdx r.nextId).map Prod.swap
  nextId : r'.nextId = r.nextId + slots.length
  /-- Row by row and column by column, the autoincrement columns have the next numbers. -/
  numbers : stored.rows.flatMap (numbersOf r.schema.columns) =
    (List.range (slots.length * r.schema.columns.countP (·.autoincrement))).map
      fun i => r.nextNumber + Int64.ofNat i
  lastNumber : stored.lastNumber =
    (stored.rows.flatMap (numbersOf r.schema.columns)).getLast?
  nextNumber : r'.nextNumber = r.nextNumber +
    Int64.ofNat (slots.length * r.schema.columns.countP (·.autoincrement))
  /-- As long as the counter does not run over, it goes up by as many as there are numbers. -/
  counted : r.nextNumber.toInt + slots.length * r.schema.columns.countP (·.autoincrement) < 2 ^ 63 →
    r'.nextNumber.toInt =
      r.nextNumber.toInt + slots.length * r.schema.columns.countP (·.autoincrement)

/-- The law of an insert at some time, where `keep` says what becomes of a row that is stored. -/
structure InsertLaw (keep : Row → Row) (r : Relation) (slots : List (List (Option Value)))
    (t : Time.Clock) : Prop where
  /-- It is accepted when the columns take all slots and the keys of the completed rows are new. -/
  accepted : (∃ r' stored t', Gives (r.insert slots) t (r', stored) t') ↔
    (∀ row ∈ slots, List.Forall₂ Column.Takes r.schema.columns row) ∧
      ∀ rows n' t', Completed r.schema ⟨r.nextNumber, none⟩ t slots rows n' t' →
        r.KeysNew keep rows
  /-- It then stores these rows behind the others. -/
  stores : ∀ r' stored t', Gives (r.insert slots) t (r', stored) t' →
    r.Inserts keep slots t stored r' t'
  /-- Otherwise it leaves the relation as it is, with its counters. -/
  refused : ∀ e t', Refuses (r.insert slots) t e t' →
    (r.perform (.insert slots)).run t = ((r, .refused e), t')

/-! ## The law -/

section Law

variable {r r' : Relation} {t t' : Time.Clock} {slots : List (List (Option Value))}
  {stored : Inserted}

/-- A call answers what is stored. -/
theorem perform_insert (h : Gives (r.insert slots) t (r', stored) t') :
    (r.perform (.insert slots)).run t = ((r', .inserted stored), t') := by
  rw [perform, StateT.run_bind, show (r.insert slots).run.run t = _ from h]
  rfl

/-- A call that is refused leaves the relation. -/
theorem perform_insert_refused {e : Error} (h : Refuses (r.insert slots) t e t') :
    (r.perform (.insert slots)).run t = ((r, .refused e), t') := by
  rw [perform, StateT.run_bind, show (r.insert slots).run.run t = _ from h]
  rfl

/-- No change breaks the order of the ids. -/
theorem Step.ascends (hr : r.log.Ascends) (h : r.Step r') : r'.log.Ascends := by
  cases h with
  | insert h => exact perform_ascends hr (perform_insert h)
  | update h => exact ascends_update hr h
  | delete ids =>
    obtain ⟨writes, hdoes, -⟩ := delete_does r ids
    exact hdoes.ascends hr
  | truncate => exact Log.ascends_clear r.log

/-- In a reached relation the numbers ascend. -/
theorem Reachable.ascends (hr : r.Reachable) : r.log.Ascends := by
  induction hr with
  | new s start => exact ⟨.nil, fun _ he => nomatch he⟩
  | step _ h ih => exact h.ascends ih

/-- The check of keys passes exactly if the keys are new. -/
theorem checkUnique_eq_ok_iff_keysNew {rows : List Row} :
    r.checkUnique rows [] = .ok () ↔ r.KeysNew Record.kept rows := by
  simp [checkUnique_eq_ok, KeysNew]

/-- An insert that is accepted. -/
theorem inserts_of_gives (hr : r.Reachable) (hs : r.schema.validate = .ok ())
    (h : Gives (r.insert slots) t (r', stored) t') :
    r.Inserts Record.kept slots t stored r' t' := by
  obtain ⟨rows, n, hrows, -, rfl, rfl⟩ := gives_insert.1 h
  have hcompleted := (completeRows_iff (Schema.columnFault?_of_validate hs)).1 hrows
  have hlength : rows.length = slots.length := hcompleted.cells.length_eq.symm
  have hcount : (rows.flatMap (numbersOf r.schema.columns)).length =
      slots.length * r.schema.columns.countP (·.autoincrement) :=
    hlength ▸ hcompleted.length_numbers
  obtain ⟨hnumbers, hnext⟩ := hcompleted.numbers.consecutive.eq_range
  have hlast : n.last = (rows.flatMap (numbersOf r.schema.columns)).getLast?.or none :=
    hcompleted.numbers.last
  refine ⟨schema_pushAll, hcompleted, scan_pushAll hr.ascends.below, ?_, ?_, ?_, ?_, ?_⟩
  · show (rows.foldl push r).nextId = _
    rw [nextId_pushAll, hlength]
  · rw [← hcount]
    exact hnumbers
  · rw [hlast, Option.or_none]
  · rw [← hcount]
    exact hnext
  · intro hbound
    have hcountInt : ((rows.flatMap (numbersOf r.schema.columns)).length : Int) =
        slots.length * r.schema.columns.countP (·.autoincrement) := by
      rw [hcount, Int.natCast_mul]
    rw [← hcountInt] at hbound ⊢
    exact hcompleted.numbers.consecutive.toInt_last hbound

/-- The law of the rows as they are kept. -/
theorem insertLaw_kept (hr : r.Reachable) (hs : r.schema.validate = .ok ())
    (slots : List (List (Option Value))) (t : Time.Clock) :
    r.InsertLaw Record.kept slots t := by
  have hcolumns := Schema.columnFault?_of_validate hs
  refine ⟨⟨?_, ?_⟩, fun _ _ _ h => inserts_of_gives hr hs h, fun _ _ h => perform_insert_refused h⟩
  · rintro ⟨r', stored, t', h⟩
    obtain ⟨rows, n, hrows, hunique, -, -⟩ := gives_insert.1 h
    have hcompleted := (completeRows_iff hcolumns).1 hrows
    refine ⟨(exists_completed_iff hcolumns).1 ⟨rows, n, t', hcompleted⟩, ?_⟩
    intro rows' n' s' hrows'
    -- There is only one way to complete the rows.
    have hsame := hrows.symm.trans ((completeRows_iff hcolumns).2 hrows')
    cases hsame
    exact checkUnique_eq_ok_iff_keysNew.1 hunique
  · rintro ⟨hslots, hkeys⟩
    obtain ⟨rows, n', t', hrows⟩ := (exists_completed_iff (n := ⟨r.nextNumber, none⟩) (t := t)
      hcolumns).2 hslots
    have hunique := checkUnique_eq_ok_iff_keysNew.2 (hkeys rows n' t' hrows)
    exact ⟨_, _, t', gives_insert.2
      ⟨rows, n', (completeRows_iff hcolumns).2 hrows, hunique, rfl, rfl⟩⟩

/-- Completed rows are kept as they are, if all that is supplied round trips. -/
theorem Completed.map_kept {s : Schema} {n n' : Numbering} {rows : List Row}
    (h : Completed s n t slots rows n' t') (hs : ∀ c ∈ s.columns, Schema.columnFault? c = none)
    (hdefaults : s.RoundTrips) (hslots : ∀ row ∈ slots, SlotsRoundTrip row) :
    rows.map Record.kept = rows.map id := by
  refine List.map_congr_left fun row hrow => ?_
  obtain ⟨slot, hslot, _, _, _, _, hone⟩ :=
    exists_mem_of_forall₂ (completeRows_each ((completeRows_iff hs).2 h)) hrow
  exact completeRow_roundTrips hdefaults (hslots slot hslot) hone

/-- So the law of the rows as they are kept is that of the rows. -/
theorem InsertLaw.of_roundTrips (h : r.InsertLaw Record.kept slots t)
    (hs : r.schema.validate = .ok ()) (hdefaults : r.schema.RoundTrips)
    (hslots : ∀ row ∈ slots, SlotsRoundTrip row) : r.InsertLaw id slots t := by
  have hcolumns := Schema.columnFault?_of_validate hs
  refine ⟨h.accepted.trans (and_congr_right fun _ => ?_), fun r' stored t' hgiven => ?_, h.refused⟩
  · refine forall₃_congr fun rows n' t' => imp_congr_right fun hrows => ?_
    rw [KeysNew, KeysNew, hrows.map_kept hcolumns hdefaults hslots]
  · have hinserts := h.stores r' stored t' hgiven
    have hrows := hinserts.completed.map_kept hcolumns hdefaults hslots
    exact { hinserts with scan := hrows ▸ hinserts.scan }

/-- **The law of an insert.** It is accepted exactly when the columns take all slots and the keys of
the completed rows are new. It then stores these rows behind the others; otherwise it leaves the
relation as it is. What is compared and stored are the rows as they are kept, which are the rows
themselves if all that is supplied round trips. -/
theorem insert_law (hr : r.Reachable) (hs : r.schema.validate = .ok ())
    (slots : List (List (Option Value))) (t : Time.Clock) :
    r.InsertLaw Record.kept slots t ∧
      (r.schema.RoundTrips → (∀ row ∈ slots, SlotsRoundTrip row) → r.InsertLaw id slots t) :=
  ⟨insertLaw_kept hr hs slots t, (insertLaw_kept hr hs slots t).of_roundTrips hs⟩

/-- A table with a counted column, a key, a default and the time of the insert. -/
def guests : Relation :=
  new ⟨"guests", [⟨"id", .integer, false, true, false, none, false⟩,
    ⟨"name", .text, false, false, true, none, false⟩,
    ⟨"seated", .boolean, true, false, false, some (.value (.boolean false)), false⟩,
    ⟨"at", .timestamp, true, false, false, some .now, false⟩]⟩ 1

/-- Two guests, of whom one is seated and the other one has taken the default. -/
def twoGuests : List (List (Option Value)) :=
  [[none, some (.text "a"), some (.integer 1), none], [some .null, some (.text "b"), none, none]]

/-- They are stored under the numbers 1 and 2; whoever comes again is refused. -/
theorem insert_law_guests : ∃ r stored t, guests.Reachable ∧ guests.schema.validate = .ok () ∧
    guests.Inserts id twoGuests ⟨0, []⟩ stored r t ∧
    r.scan.map (fun e => (e.1, e.2.take 3)) =
      [(0, [.integer 1, .text "a", .boolean true]), (1, [.integer 2, .text "b", .boolean false])] ∧
    r.Reachable ∧ ∃ e t', (r.perform (.insert [[none, some (.text "b"), none, none]])).run t =
      ((r, .refused e), t') := by
  have hnew : guests.Reachable := .new _ _
  have hvalid : guests.schema.validate = .ok () := by decide
  have hdefaults : guests.schema.RoundTrips := by
    simp [guests, new, Schema.RoundTrips, Column.RoundTrips, Value.RoundTrips, Value.encode,
      Value.decode]
  have hslots : ∀ row ∈ twoGuests, SlotsRoundTrip row := by
    simp [twoGuests, SlotsRoundTrip, Value.RoundTrips, Value.encode, Value.decode]
  have hscan : ((guests.perform (.insert twoGuests)).run ⟨0, []⟩).1.1.scan.map
      (fun e => (e.1, e.2.take 3)) = [(0, [.integer 1, .text "a", .boolean true]),
        (1, [.integer 2, .text "b", .boolean false])] := by decide +kernel
  have hgiven : ((guests.insert twoGuests).run.run ⟨0, []⟩).1.isOk = true := by decide +kernel
  have hagain : ((((guests.perform (.insert twoGuests)).run ⟨0, []⟩).1.1.insert
      [[none, some (.text "b"), none, none]]).run.run
        ((guests.perform (.insert twoGuests)).run ⟨0, []⟩).2).1.isOk = false := by decide +kernel
  rcases gives_or_refuses (guests.insert twoGuests) ⟨0, []⟩ with ⟨⟨r, stored⟩, t, h⟩ | ⟨e, t, h⟩
  · rw [perform_insert h] at hscan hagain
    have hr : r.Reachable := hnew.step (.insert h)
    have hlaw := (insert_law hnew hvalid twoGuests ⟨0, []⟩).2 hdefaults hslots
    have hinserts := hlaw.stores r stored t h
    refine ⟨r, stored, t, hnew, hvalid, hinserts, hscan, hr, ?_⟩
    rcases gives_or_refuses (r.insert [[none, some (.text "b"), none, none]]) t with
      ⟨_, t', h'⟩ | ⟨e, t', h'⟩
    · rw [show (r.insert _).run.run t = _ from h'] at hagain
      cases hagain
    · have hvalid' : r.schema.validate = .ok () := hinserts.schema ▸ hvalid
      exact ⟨e, t', (insert_law hr hvalid' _ t).1.refused e t' h'⟩
  · rw [show (guests.insert twoGuests).run.run ⟨0, []⟩ = _ from h] at hgiven
    cases hgiven

end Law

end Relation
end MiniSql
