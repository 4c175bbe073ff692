/-
# The stamps of an update

An update reads the clock once for each column that it stamps, row by row and column by column,
after everything that its predicate and its assignments have read. So its stamps are readings in turn
(`Relation.changes_readings`). A later reading is a later instant, hence they ascend, and each is
later than what the clock has handed out before (`Readings.ascend`).

| part of a changed row | what an update leaves there |
| --- | --- |
| a column that it stamps | the reading, whatever was assigned |
| a column that is assigned | what was assigned, as the column stores it |
| any other column | what stood there |
-/

import MiniSql.Proofs.Steady
import MiniSql.Proofs.Store.Numbers
import Mathlib.Data.List.Sort

namespace MiniSql

open Timed
open MiniSql.Relation (valueAt)

/-! ## Readings -/

/-- The clock has gone past the instant: what it has handed out is among these. -/
def Time.Clock.HandedOut (t : Time.Clock) (i : Time.Instant) : Prop :=
  ∃ micros < t.next, i = Time.Clock.instantOf micros

/-- The first instant is earlier. -/
def Time.Instant.Earlier (i j : Time.Instant) : Prop := i.order j = .lt

/-- What has been handed out stays so. -/
theorem Time.Clock.HandedOut.later {t t' : Time.Clock} {i : Time.Instant} (h : t.HandedOut i)
    (hle : t.next ≤ t'.next) : t'.HandedOut i := by
  obtain ⟨micros, hmicros, rfl⟩ := h
  exact ⟨micros, Int.lt_of_lt_of_le hmicros hle, rfl⟩

/-- What is read has been handed out: as a default, by `NOW()` or as a stamp. -/
theorem Time.Clock.handedOut_read (t : Time.Clock) : t.read.2.HandedOut t.read.1 :=
  ⟨t.micros, Int.lt_succ t.micros, rfl⟩

/-- An earlier instant is another one. -/
theorem Time.Instant.Earlier.ne {i j : Time.Instant} (h : i.Earlier j) : i ≠ j := by
  rintro rfl
  have hsame : i.order i = .eq := by
    rw [order, show compare i.seconds i.seconds = .eq from Int.compare_eq_eq.2 rfl]
    exact Nat.compare_eq_eq.2 rfl
  rw [Earlier, hsame] at h
  cases h

/-- The values are the readings of the clock, one after the other, between two times. -/
inductive Readings : Time.Clock → List Value → Time.Clock → Prop
  | nil (t : Time.Clock) : Readings t [] t
  | cons {t t' : Time.Clock} {vs : List Value} (h : Readings t.read.2 vs t') :
      Readings t (.timestamp t.read.1 :: vs) t'

namespace Readings

variable {t mid t' : Time.Clock} {vs ws : List Value}

/-- Later readings follow those before. -/
theorem append (h : Readings t vs mid) (h' : Readings mid ws t') : Readings t (vs ++ ws) t' := by
  induction h with
  | nil => exact h'
  | cons _ ih => exact .cons (ih h')

/-- Readings may be split anywhere. -/
theorem append_iff : Readings t (vs ++ ws) t' ↔ ∃ mid, Readings t vs mid ∧ Readings mid ws t' := by
  constructor
  · intro h
    induction vs generalizing t with
    | nil => exact ⟨t, .nil t, h⟩
    | cons v vs ih =>
      cases h with
      | cons h =>
        obtain ⟨mid, hvs, hws⟩ := ih h
        exact ⟨mid, .cons hvs, hws⟩
  · rintro ⟨mid, hvs, hws⟩
    exact hvs.append hws

/-- Readings take the clock forward. -/
theorem forward (h : Readings t vs t') : t.next ≤ t'.next := by
  induction h with
  | nil t => exact Int.le_refl t.next
  | @cons t _ _ _ ih => exact Int.le_trans (Int.le_of_lt t.next_lt_read) ih

/-- **Readings ascend.** Each is later than all that the clock has handed out before them, and
handed out when they are done. -/
theorem ascend (h : Readings t vs t') : ∃ instants : List Time.Instant,
    vs = instants.map .timestamp ∧ instants.Pairwise Time.Instant.Earlier ∧
      ∀ i ∈ instants, t'.HandedOut i ∧ ∀ earlier, t.HandedOut earlier → earlier.Earlier i := by
  induction h with
  | nil => exact ⟨[], rfl, .nil, fun _ hi => nomatch hi⟩
  | @cons t t' vs h ih =>
    obtain ⟨instants, rfl, hpairs, hlater⟩ := ih
    have hfirst : t.read.2.HandedOut t.read.1 := t.handedOut_read
    have hnext : t.next ≤ t.read.2.next := Int.le_of_lt t.next_lt_read
    refine ⟨t.read.1 :: instants, rfl,
      List.pairwise_cons.2 ⟨fun i hi => (hlater i hi).2 _ hfirst, hpairs⟩,
      List.forall_mem_cons.2 ⟨⟨hfirst.later h.forward, ?_⟩, fun i hi => ⟨(hlater i hi).1,
        fun earlier hearlier => (hlater i hi).2 _ (hearlier.later hnext)⟩⟩⟩
    rintro _ ⟨micros, hmicros, rfl⟩
    exact Time.Clock.order_instantOf_of_lt (Int.lt_of_lt_of_le hmicros t.next_le_micros)

/-- Readings are kept as they are. -/
theorem map_kept (h : Readings t vs t') : vs.map Value.kept = vs := by
  induction h with
  | nil => rfl
  | @cons t _ _ _ ih =>
    have hfirst : (Value.timestamp t.read.1).kept = .timestamp t.read.1 :=
      congrArg Value.timestamp
        (Time.Instant.readBack_of_genuine (Time.Clock.genuine_instantOf t.micros))
    rw [List.map_cons, hfirst, ih]

end Readings

/-! ## The columns that are stamped -/

/-- The values of a row in the columns that an update stamps. -/
def stampsOf : List Column → Row → List Value
  | c :: columns, v :: row => if c.onUpdate then v :: stampsOf columns row else stampsOf columns row
  | _, _ => []

/-- The stamps of a row are kept as its values are. -/
theorem stampsOf_kept (columns : List Column) (row : Row) :
    stampsOf columns (Record.kept row) = (stampsOf columns row).map Value.kept := by
  induction columns generalizing row with
  | nil => rfl
  | cons c columns ih =>
    cases row with
    | nil => rfl
    | cons v row =>
      rw [Record.kept_cons, stampsOf, stampsOf, ih]
      split <;> rfl

/-- A value of a stamped column is among the stamps. -/
theorem valueAt_mem_stampsOf {columns : List Column} {row : Row} {i : Nat} {c : Column}
    (hlength : row.length = columns.length) (hi : columns[i]? = some c) (hc : c.onUpdate = true) :
    valueAt i row ∈ stampsOf columns row := by
  induction columns generalizing row i with
  | nil => simp at hi
  | cons d columns ih =>
    cases row with
    | nil => cases hlength
    | cons v row =>
      rw [stampsOf]
      cases i with
      | zero =>
        simp only [List.getElem?_cons_zero, Option.some.injEq] at hi
        rw [hi, if_pos hc]
        exact List.mem_cons_self
      | succ i =>
        have hrest : valueAt i row ∈ stampsOf columns row := ih (by simpa using hlength) hi
        split
        · exact List.mem_cons_of_mem _ hrest
        · exact hrest

namespace Relation

variable {r r' : Relation} {t t' : Time.Clock} {columns : List Column}

/-- A stamp reads the clock for each of its columns. -/
theorem stamp_readings {row row' : Row} (h : Gives (stamp columns row) t row' t') :
    Readings t (stampsOf columns row') t' := by
  induction columns generalizing row row' t with
  | nil =>
    obtain ⟨rfl, rfl⟩ := gives_pure.1 h
    exact .nil t
  | cons c columns ih =>
    cases row with
    | nil =>
      obtain ⟨rfl, rfl⟩ := gives_pure.1 h
      exact .nil t
    | cons v row =>
      unfold stamp at h
      split at h
      · rename_i hc
        simp only [gives_bind, gives_map, gives_pure] at h
        obtain ⟨_, _, ⟨i, hread, rfl⟩, rest, _, hrest, rfl, rfl⟩ := h
        cases hread
        rw [stampsOf, if_pos hc]
        exact .cons (ih hrest)
      · rename_i hc
        simp only [gives_bind, gives_pure] at h
        obtain ⟨_, _, ⟨rfl, rfl⟩, rest, _, hrest, rfl, rfl⟩ := h
        rw [stampsOf, if_neg hc]
        exact ih hrest

/-- So do the changes of some rows, in turn. -/
theorem changes_readings {changes stored : List (Nat × Row)}
    (h : Gives (changes.mapM fun e => r.change e.1 e.2) t stored t') :
    Readings t (stored.flatMap fun e => stampsOf r.schema.columns e.2) t' := by
  induction changes generalizing stored t with
  | nil =>
    obtain ⟨rfl, rfl⟩ := gives_pure.1 h
    exact .nil t
  | cons e changes ih =>
    rw [List.mapM_cons, gives_bind] at h
    obtain ⟨d, mid, hd, h⟩ := h
    obtain ⟨rest, _, hrest, h⟩ := gives_bind.1 h
    obtain ⟨rfl, rfl⟩ := gives_pure.1 h
    obtain ⟨-, _, stamped, -, hstamped, rfl⟩ := gives_change.1 hd
    rw [List.flatMap_cons]
    exact (stamp_readings hstamped).append (ih hrest)

end Relation

/-! ## The rows that are found -/

namespace Mutation

/-- The pass of an `UPDATE` over some rows between two times: those of which the predicate holds
when the pass comes to them, each with what is assigned to it then. -/
inductive Hits (s : Schema) (p : Expression) (assigned : List (Nat × Expression)) :
    Time.Clock → List (Nat × Row) → List (Nat × Row) → Time.Clock → Prop
  | nil (t : Time.Clock) : Hits s p assigned t [] [] t
  | hit {t mid mid' t' : Time.Clock} {id : Nat} {row new : Row} {entries found : List (Nat × Row)}
      (hp : Gives (p.holds s.labels row) t true mid)
      (hnew : Gives (assign s row row assigned) mid new mid')
      (hs : Hits s p assigned mid' entries found t') :
      Hits s p assigned t ((id, row) :: entries) ((id, new) :: found) t'
  | miss {t mid t' : Time.Clock} {e : Nat × Row} {entries found : List (Nat × Row)}
      (hp : Gives (p.holds s.labels e.2) t false mid)
      (hs : Hits s p assigned mid entries found t') :
      Hits s p assigned t (e :: entries) found t'

variable {s : Schema} {p : Expression} {assigned : List (Nat × Expression)} {t t' : Time.Clock}
  {entries found : List (Nat × Row)}

/-- **Changing rows** changes those that the predicate matches. -/
theorem hits_of_changes (h : Gives (changes s p assigned entries) t found t') :
    Hits s p assigned t entries found t' := by
  induction entries generalizing t found with
  | nil =>
    obtain ⟨rfl, rfl⟩ := gives_pure.1 h
    exact .nil t
  | cons e entries ih =>
    obtain ⟨b, mid, hb, h⟩ := gives_bind.1 h
    cases b with
    | true =>
      simp only [if_true, gives_bind, gives_pure] at h
      obtain ⟨new, mid', hnew, rest, _, hrest, rfl, rfl⟩ := h
      exact .hit hb hnew (ih hrest)
    | false => exact .miss hb (ih h)

/-- They are found in the order of the pass. -/
theorem Hits.sublist (h : Hits s p assigned t entries found t') :
    (found.map (·.1)).Sublist (entries.map (·.1)) := by
  induction h with
  | nil => exact .slnil
  | hit _ _ _ ih => exact ih.cons_cons _
  | miss _ _ ih => exact ih.cons _

/-- Positions that are assigned are those of columns that are named. -/
theorem name_mem_of_mem_targets {seen : List Nat} {assignments : List (String × Expression)}
    {c : Column} (h : targets s seen assignments = .ok assigned) {a : Nat × Expression}
    (ha : a ∈ assigned) (hc : s.columns[a.1]? = some c) : c.name ∈ assignments.map (·.1) := by
  induction assignments generalizing seen assigned with
  | nil =>
    cases h
    cases ha
  | cons d assignments ih =>
    obtain ⟨j, hj, h⟩ := Except.bind_eq_ok.1 h
    split at h
    · cases h
    · split at h
      · cases h
      · obtain ⟨rest, hrest, h⟩ := Except.bind_eq_ok.1 h
        cases h
        rcases List.mem_cons.1 ha with rfl | ha
        · unfold Schema.columnIndex at hj
          split at hj
          · rename_i k hk
            cases hj
            obtain ⟨hlt, hname, -⟩ := List.findIdx?_eq_some_iff_getElem.1 hk
            rw [List.getElem?_eq_getElem hlt] at hc
            cases hc
            rw [beq_iff_eq] at hname
            rw [hname]
            exact List.mem_cons_self
          · cases hj
        · exact List.mem_cons_of_mem _ (ih hrest ha)

end Mutation

/-! ## The relation that an update leaves -/

namespace Relation

variable {r r' : Relation} {t t' : Time.Clock} {changed stored : List (Nat × Row)}

/-- The second relation is the first after an update at some time, which has found the rows of some
ids and assigned to the columns of some names. -/
structure Updated (r r' : Relation) (assigned : List String) (found : List Nat)
    (t t' : Time.Clock) : Prop where
  schema : r'.schema = r.schema
  nextId : r'.nextId = r.nextId
  nextNumber : r'.nextNumber = r.nextNumber
  /-- Every row stays in its place. -/
  ids : r'.scan.map (·.1) = r.scan.map (·.1)
  /-- A row that was not found is not changed. -/
  others : ∀ e ∈ r.scan, e.1 ∉ found → e ∈ r'.scan
  /-- Neither is a column that is not assigned and not stamped. -/
  columns : ∀ e ∈ r.scan, ∀ e' ∈ r'.scan, e.1 = e'.1 → ∀ i c, r.schema.columns[i]? = some c →
    c.onUpdate = false → c.name ∉ assigned → valueAt i e'.2 = valueAt i e.2
  /-- A row that was found has new stamps. -/
  stamped : ∀ e ∈ r'.scan, e.1 ∈ found → ∀ i c, r.schema.columns[i]? = some c →
    c.onUpdate = true → ∃ instant, valueAt i e.2 = .timestamp instant ∧ t'.HandedOut instant ∧
      ∀ earlier, t.HandedOut earlier → earlier.Earlier instant
  /-- The stamps ascend from row to row, and from column to column. -/
  ascending : ∃ instants : List Time.Instant,
    (r'.scan.filter fun e => e.1 ∈ found).flatMap (fun e => stampsOf r.schema.columns e.2) =
      instants.map .timestamp ∧ instants.Pairwise Time.Instant.Earlier ∧ instants.Nodup

/-- The rows that are put in their places are the rows of their ids. -/
theorem filter_putAll (hstored : stored.Pairwise fun a b => a.1 < b.1)
    (hids : ∀ d ∈ stored, r.rows.contains d.1 = true) :
    ((stored.foldl put r).scan.filter fun e => e.1 ∈ stored.map (·.1)) = stored.map keptAt := by
  have hirrefl : Std.Irrefl fun a b : Nat × Row => a.1 < b.1 := ⟨fun a => Nat.lt_irrefl a.1⟩
  have hantisymm : Std.Antisymm fun a b : Nat × Row => a.1 < b.1 :=
    ⟨fun a b h h' => absurd h (Nat.lt_asymm h')⟩
  have hkept : (stored.map keptAt).Pairwise fun a b => a.1 < b.1 := List.pairwise_map.2 hstored
  refine ((SortedMap.sorted _).filter _).eq_of_mem_iff hkept fun e => ?_
  rw [List.mem_filter, decide_eq_true_iff, ← map_fst_keptAt]
  -- The row of an id that is put there is the row that is put.
  have hmem : ∀ e ∈ (stored.foldl put r).scan, e.1 ∈ (stored.map keptAt).map (·.1) →
      e ∈ stored.map keptAt := fun e he hid =>
    (mem_scan_putAll he).resolve_right fun h => h.2 (map_fst_keptAt stored ▸ hid)
  refine ⟨fun h => hmem e h.1 h.2, fun h => ⟨?_, List.mem_map_of_mem h⟩⟩
  obtain ⟨d, hd, rfl⟩ := List.mem_map.1 h
  obtain ⟨e, he, hid⟩ := List.mem_map.1 (contains_iff.1 (hids d hd))
  have hplace : replaced (stored.map keptAt) e ∈ (stored.foldl put r).scan := by
    rw [scan_putAll hids]
    exact List.mem_map_of_mem he
  have hsame : (replaced (stored.map keptAt) e).1 = (keptAt d).1 := (fst_replaced _ _).trans hid
  have hput := hmem _ hplace (hsame ▸ List.mem_map_of_mem h)
  have hnodup : ((stored.map keptAt).map (·.1)).Nodup :=
    hkept.map _ fun _ _ h => Nat.ne_of_lt h
  rwa [List.inj_on_of_nodup_map hnodup hput h hsame] at hplace

/-- A changed row has what it had in the columns that are neither assigned nor stamped. -/
theorem valueAt_change {s : Schema} {row new : Row} {d : Nat × Row} {id i : Nat} {c : Column}
    {assigned : List (Nat × Expression)} {s₁ s₂ : Time.Clock} (hrow : r.schema.Holds row)
    (hi : r.schema.columns[i]? = some c) (hc : c.onUpdate = false)
    (hassigned : ∀ a ∈ assigned, a.1 ≠ i)
    (hnew : Gives (Mutation.assign s row row assigned) s₁ new s₂)
    (h : Gives (r.change id new) t d t') : valueAt i d.2 = valueAt i row := by
  obtain ⟨-, prepared, stamped, hprepared, hstamped, rfl⟩ := gives_change.1 h
  have hvalue : valueAt i new = valueAt i row := Mutation.valueAt_assign hassigned hnew
  have htype : valueAt i new = .null ∨ (valueAt i new).type? = some c.type :=
    hvalue ▸ (hrow.valueAt hi).1
  rw [valueAt_stamp (prepare_holds hprepared).length_eq.symm hi hc hstamped,
    valueAt_prepare hi htype hprepared, hvalue]

section stored

variable {changes : List (Nat × Row)} {e : Nat × Row}
  (hstored : Gives (changes.mapM fun e => r.change e.1 e.2) t stored t')

include hstored

/-- The rows that are stored are the rows of the ids that are changed, in the order of the pass. -/
theorem filter_stored (hsub : (changes.map (·.1)).Sublist (r.scan.map (·.1))) :
    ((stored.foldl put r).scan.filter fun e => e.1 ∈ changes.map (·.1)) =
      stored.map keptAt := by
  obtain ⟨-, hids⟩ := scan_update hstored
  have hsorted : (stored.map (·.1)).Pairwise (· < ·) :=
    hids ▸ (List.pairwise_map.2 (r.rows.map Record.decode).sorted).sublist hsub
  have hthere : ∀ d ∈ stored, r.rows.contains d.1 = true := by
    intro d hd
    obtain ⟨_, -, _, _, hchange⟩ := exists_mem_of_forall₂ hstored.mapM hd
    obtain ⟨hid, _, _, -, -, rfl⟩ := gives_change.1 hchange
    exact hid
  rw [← hids]
  exact filter_putAll (List.pairwise_map.1 hsorted) hthere

/-- A row of another id stays. -/
theorem mem_of_not_changed (he : e ∈ r.scan) (hid : e.1 ∉ changes.map (·.1)) :
    e ∈ (stored.foldl put r).scan := by
  obtain ⟨hscan, hids⟩ := scan_update hstored
  rcases replaced_cases (stored.map keptAt) e with hmem | ⟨heq, -⟩
  · have hid' := List.mem_map_of_mem (f := Prod.fst) hmem
    rw [fst_replaced, map_fst_keptAt, hids] at hid'
    exact absurd hid' hid
  · rw [hscan]
    exact List.mem_map.2 ⟨e, he, heq⟩

/-- Where the changes are those of an `UPDATE`, the row of an id has what it had before in the
columns that are neither assigned nor stamped. -/
theorem valueAt_stored {p : Expression} {assigned : List (Nat × Expression)} {s₁ s₂ : Time.Clock}
    {e' : Nat × Row} {i : Nat} {c : Column} (hr : r.WellTyped)
    (hchanges : Gives (Mutation.changes r.schema p assigned r.scan) s₁ changes s₂)
    (he : e ∈ r.scan) (he' : e' ∈ (stored.foldl put r).scan) (hid : e.1 = e'.1)
    (hi : r.schema.columns[i]? = some c) (hc : c.onUpdate = false)
    (hassigned : ∀ a ∈ assigned, a.1 ≠ i) : valueAt i e'.2 = valueAt i e.2 := by
  rcases mem_scan_putAll he' with hmem | ⟨hmem, -⟩
  · obtain ⟨d', hd', rfl⟩ := List.mem_map.1 hmem
    obtain ⟨d, hd, _, _, hchange⟩ := exists_mem_of_forall₂ hstored.mapM hd'
    obtain ⟨row, hrow, _, _, hassign⟩ := Mutation.mem_changes hchanges d hd
    have hid' : d'.1 = d.1 := by
      obtain ⟨-, _, _, -, -, rfl⟩ := gives_change.1 hchange
      rfl
    obtain rfl : (d.1, row) = e := SortedMap.entry_unique hrow he (hid'.symm.trans hid.symm)
    rw [keptAt, Record.valueAt_kept, valueAt_change (hr.rows _ he) hi hc hassigned hassign hchange]
    exact kept_valueAt he i
  · rw [SortedMap.entry_unique he hmem hid]

/-- A stored row has one value for each column. -/
theorem length_of_stored (hr : r.WellTyped) (he : e ∈ stored) :
    e.2.length = r.schema.columns.length := by
  obtain ⟨d, -, _, _, hchange⟩ := exists_mem_of_forall₂ hstored.mapM he
  exact (change_holds hr.schema hchange).length_eq.symm

end stored

/-- **An `UPDATE`** that is given is one of the rows that its pass finds. -/
theorem updated_of_update {p : Expression} {assignments : List (String × Expression)} {n : Nat}
    (hr : r.WellTyped) (h : Gives (Mutation.update r p assignments) t (r', n) t') :
    ∃ assigned found mid, Mutation.targets r.schema [] assignments = .ok assigned ∧
      Mutation.Hits r.schema p assigned t r.scan found mid ∧ n = found.length ∧
      r.Updated r' (assignments.map (·.1)) (found.map (·.1)) t t' := by
  obtain ⟨assigned, changed, mid, htargets, hchanged, h⟩ := Mutation.gives_update.1 h
  obtain ⟨stored, hstored, -, rfl, rfl⟩ := gives_update.1 h
  obtain ⟨hscan, -⟩ := scan_update hstored
  have hhits := Mutation.hits_of_changes hchanged
  have hfilter := filter_stored hstored hhits.sublist
  -- The stamps are read after everything that the pass has read.
  have hforward : t.next ≤ mid.next := by
    have hforward := (Mutation.changes_steady r.schema p assigned r.scan).forward t
    rw [show (Mutation.changes r.schema p assigned r.scan).run.run t = _ from hchanged] at hforward
    exact hforward.le
  have hreadings := changes_readings hstored
  obtain ⟨instants, hinstants, hpairs, hlater⟩ := hreadings.ascend
  -- What is kept of the stored rows has the same stamps.
  have hkept : (stored.map keptAt).flatMap (fun e => stampsOf r.schema.columns e.2) =
      instants.map .timestamp := by
    rw [← hinstants, ← hreadings.map_kept, List.flatMap_map, List.map_flatMap]
    exact congrArg (List.flatMap · stored) (funext fun e => stampsOf_kept _ e.2)
  refine ⟨assigned, changed, mid, htargets, hhits, hstored.mapM.length_eq.symm, schema_putAll,
    counters_putAll.1, counters_putAll.2, by rw [hscan, map_fst_replaced],
    fun e he hid => mem_of_not_changed hstored he hid, ?_, ?_, ?_⟩
  · intro e he e' he' hid i c hi hc hname
    refine valueAt_stored hstored hr hchanged he he' hid hi hc fun a ha hpos => hname ?_
    exact Mutation.name_mem_of_mem_targets htargets ha (hpos ▸ hi)
  · intro e he hid i c hi hc
    have hmem : e ∈ stored.map keptAt := by
      rw [← hfilter, List.mem_filter, decide_eq_true_iff]
      exact ⟨he, hid⟩
    have hlength : e.2.length = r.schema.columns.length := by
      obtain ⟨d, hd, rfl⟩ := List.mem_map.1 hmem
      exact (Record.length_kept d.2).trans (length_of_stored hstored hr hd)
    have hstamp : valueAt i e.2 ∈ instants.map Value.timestamp := by
      rw [← hkept]
      exact List.mem_flatMap.2 ⟨e, hmem, valueAt_mem_stampsOf hlength hi hc⟩
    obtain ⟨instant, hinstant, heq⟩ := List.mem_map.1 hstamp
    exact ⟨instant, heq.symm, (hlater instant hinstant).1,
      fun earlier hearlier => (hlater instant hinstant).2 earlier (hearlier.later hforward)⟩
  · refine ⟨instants, ?_, hpairs, hpairs.imp Time.Instant.Earlier.ne⟩
    rw [hfilter, hkept]

end Relation

end MiniSql
