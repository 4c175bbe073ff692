/-
# Rows that are kept as they are

A row is kept as it is if all its instants are genuine. Where an instant of a stored row comes from
decides whether it is:

| instant | genuine |
| --- | --- |
| named by a text | always (`Time.Instant.genuine_of_ofText?`) |
| a reading of the clock | always (`Time.Clock.genuine_instantOf`) |
| handed over as an instant, or as the default of a column | if it is no leap second inside a minute |

So an insert and an update store their rows as they are, if all that is handed over round trips.
-/

import MiniSql.Proofs.Store.Change
import MiniSql.Proofs.Time.RoundTrip

namespace MiniSql

open Timed

/-- The default of the column is decoded from its own bytes, if it is a value. -/
def Column.RoundTrips (c : Column) : Prop := ∀ v, c.default = some (.value v) → v.RoundTrips

/-- So is that of every column. -/
def Schema.RoundTrips (s : Schema) : Prop := ∀ c ∈ s.columns, c.RoundTrips

/-- What the slots of a row supply is decoded from its own bytes. -/
def SlotsRoundTrip (slots : List (Option Value)) : Prop := ∀ v, some v ∈ slots → v.RoundTrips

/-- **Storing a value in a column** makes nothing of it that does not round trip. -/
theorem Value.RoundTrips.coerce {type : DataType} {v w : Value} (hv : v.RoundTrips)
    (h : v.coerce type = .ok w) : w.RoundTrips := by
  unfold Value.coerce at h
  split at h
  · cases h; rfl
  · cases h; rfl
  · split at h <;> cases h
    rename_i t ht
    exact Time.Instant.readBack_of_genuine (Time.Instant.genuine_of_ofText? ht) ▸
      roundTrips_kept (timestamp t)
  · split at h
    · cases h; rfl
    · split at h <;> cases h
      rfl
  · split at h <;> cases h
    exact hv

/-- A reading of the clock round trips. -/
theorem roundTrips_now {t t' : Time.Clock} {i : Time.Instant} (h : Gives Timed.now t i t') :
    (Value.timestamp i).RoundTrips := by
  obtain rfl : t.read.1 = i := by cases h; rfl
  exact Value.roundTrips_iff.2 fun u hu => by cases hu; exact Time.Clock.genuine_instantOf _

namespace Relation

variable {s : Schema} {c : Column} {columns : List Column} {v w : Value} {row row' : Row}
  {rows : List Row} {slot : Option Value} {slots : List (Option Value)} {n n' : Numbering}
  {t t' : Time.Clock}

/-- A value that is prepared round trips if the one that it is prepared from does. -/
theorem prepareValue_roundTrips (hv : v.RoundTrips) (h : prepareValue c v = .ok w) :
    w.RoundTrips := by
  unfold prepareValue at h
  split at h
  · cases h
  · rename_i hcoerced
    split at h <;> cases h
    exact hv.coerce hcoerced

/-- Preparing values that round-trip gives values that do. -/
theorem prepareValues_roundTrips (hrow : Record.RoundTrips row)
    (h : prepareValues columns row = .ok row') : Record.RoundTrips row' := by
  rw [Record.roundTrips_iff] at hrow ⊢
  induction columns generalizing row row' with
  | nil =>
    cases h
    exact fun _ hw => nomatch hw
  | cons c columns ih =>
    cases row with
    | nil =>
      cases h
      exact fun _ hw => nomatch hw
    | cons v row =>
      obtain ⟨hv, hrow⟩ := List.forall_mem_cons.1 hrow
      obtain ⟨w, hw, h⟩ := Except.bind_eq_ok.1 h
      obtain ⟨row', hrest, h⟩ := Except.bind_eq_ok.1 h
      cases h
      exact List.forall_mem_cons.2 ⟨prepareValue_roundTrips hv hw, ih hrow hrest⟩

/-- Preparing a row that round-trips gives one that does. -/
theorem prepare_roundTrips (hrow : Record.RoundTrips row) (h : prepare s row = .ok row') :
    Record.RoundTrips row' := by
  unfold prepare at h
  split at h
  · cases h
  · exact prepareValues_roundTrips hrow h

/-! ## Inserts -/

/-- The default of a column round trips: its value, or a reading of the clock. -/
theorem defaultValue?_roundTrips (hc : c.RoundTrips)
    (h : Gives c.defaultValue? t (some v) t') : v.RoundTrips := by
  unfold Column.defaultValue? at h
  split at h
  · rename_i hdefault
    obtain ⟨h, -⟩ := gives_pure.1 h
    cases h
    exact hc _ hdefault
  · simp only [gives_bind, gives_pure, Option.some.injEq] at h
    obtain ⟨i, _, hi, rfl, -⟩ := h
    exact roundTrips_now hi
  · obtain ⟨h, -⟩ := gives_pure.1 h
    split at h <;> cases h
    rfl

/-- What a column takes round trips: a number, what is supplied or a default. -/
theorem complete_roundTrips (hc : c.RoundTrips) (hslot : ∀ v ∈ slot, v.RoundTrips)
    (h : Gives (complete c slot n) t (v, n') t') : v.RoundTrips := by
  unfold complete at h
  split at h
  · split at h
    · obtain ⟨h, -⟩ := gives_pure.1 h
      cases h
      rfl
    · obtain ⟨h, -⟩ := gives_pure.1 h
      cases h
      rfl
    · cases not_gives_refuse h
  · split at h
    · obtain ⟨h, -⟩ := gives_pure.1 h
      cases h
      exact hslot _ rfl
    · simp only [gives_bind] at h
      obtain ⟨given, mid, hgiven, h⟩ := h
      split at h
      · obtain ⟨h, -⟩ := gives_pure.1 h
        cases h
        exact defaultValue?_roundTrips hc hgiven
      · cases not_gives_refuse h

/-- Completing slots gives a row that round-trips, if the slots and the defaults do. -/
theorem completeAll_roundTrips (hcolumns : ∀ c ∈ columns, c.RoundTrips)
    (hslots : SlotsRoundTrip slots) (h : Gives (completeAll columns slots n) t (row, n') t') :
    Record.RoundTrips row := by
  rw [Record.roundTrips_iff]
  induction columns generalizing slots n t row n' t' with
  | nil =>
    obtain ⟨h, -⟩ := gives_pure.1 h
    cases h
    exact fun _ hw => nomatch hw
  | cons c columns ih =>
    obtain ⟨hc, hcolumns⟩ := List.forall_mem_cons.1 hcolumns
    cases slots with
    | nil =>
      obtain ⟨h, -⟩ := gives_pure.1 h
      cases h
      exact fun _ hw => nomatch hw
    | cons slot slots =>
      simp only [completeAll, gives_bind, gives_pure, Prod.exists, Prod.mk.injEq] at h
      obtain ⟨v, m, mid, hv, rest, _, _, hrest, ⟨rfl, rfl⟩, rfl⟩ := h
      refine List.forall_mem_cons.2 ⟨complete_roundTrips hc (fun v hv => ?_) hv,
        ih hcolumns (fun v hv => hslots v (List.mem_cons_of_mem _ hv)) hrest⟩
      exact hslots v (List.mem_cons.2 (.inl hv.symm))

/-- **A completed row round trips** if what is supplied and the defaults do. -/
theorem completeRow_roundTrips (hs : s.RoundTrips) (hslots : SlotsRoundTrip slots)
    (h : Gives (completeRow s slots n) t (row, n') t') : Record.RoundTrips row := by
  unfold completeRow at h
  split at h
  · cases not_gives_refuse h
  · simp only [gives_bind, gives_ofExcept, gives_pure, Prod.exists, Prod.mk.injEq] at h
    obtain ⟨given, _, _, hgiven, _, _, ⟨hprepared, -⟩, ⟨rfl, -⟩, -⟩ := h
    exact prepare_roundTrips (completeAll_roundTrips hs hslots hgiven) hprepared

/-! ## Updates -/

/-- Stamping a row that round-trips gives one that does. -/
theorem stamp_roundTrips (hrow : Record.RoundTrips row)
    (h : Gives (stamp columns row) t row' t') : Record.RoundTrips row' := by
  rw [Record.roundTrips_iff] at hrow ⊢
  induction columns generalizing row t row' t' with
  | nil =>
    obtain ⟨rfl, -⟩ := gives_pure.1 h
    exact fun _ hw => nomatch hw
  | cons c columns ih =>
    cases row with
    | nil =>
      obtain ⟨rfl, -⟩ := gives_pure.1 h
      exact fun _ hw => nomatch hw
    | cons v row =>
      obtain ⟨hv, hrow⟩ := List.forall_mem_cons.1 hrow
      unfold stamp at h
      split at h
      · simp only [gives_bind, gives_map, gives_pure] at h
        obtain ⟨_, _, ⟨i, hi, rfl⟩, rest, _, hrest, rfl, -⟩ := h
        exact List.forall_mem_cons.2 ⟨roundTrips_now hi, ih hrow hrest⟩
      · simp only [gives_bind, gives_pure] at h
        obtain ⟨_, _, ⟨rfl, -⟩, rest, _, hrest, rfl, -⟩ := h
        exact List.forall_mem_cons.2 ⟨hv, ih hrow hrest⟩

/-- **A changed row round trips** if what it is changed to does. -/
theorem change_roundTrips {r : Relation} {id : Nat} {e : Nat × Row} (hrow : Record.RoundTrips row)
    (h : Gives (r.change id row) t e t') : Record.RoundTrips e.2 := by
  obtain ⟨-, prepared, stamped, hprepared, hstamped, rfl⟩ := gives_change.1 h
  exact stamp_roundTrips (prepare_roundTrips hrow hprepared) hstamped

end Relation

end MiniSql
