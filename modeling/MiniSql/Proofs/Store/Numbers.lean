/-
# The numbers of autoincrement columns

Every change of a table goes on from the table (`Relation.step_continues`): it keeps some rows with
their ids and numbers, and pushes rows that draw numbers from the counter.

| change | why |
| --- | --- |
| insert | the new rows stand last, and their numbers start at the counter |
| update | autoincrement columns are no targets, are stored as they are, and are not stamped |
| delete, truncate | the rows that stay keep their order |

So the numbers drawn are consecutive, and in each autoincrement column the numbers ascend from row to
row, below the counter (`Relation.Continues.counted`).
-/

import MiniSql.Proofs.Store.Draws
import MiniSql.Proofs.Store.Mutation
import MiniSql.Proofs.Store.Rows

namespace MiniSql

open Timed
open MiniSql.Relation (valueAt)

namespace Relation

variable {t t' : Time.Clock} {c : Column} {columns : List Column}

/-! ## Changing rows -/

/-- Storing a row leaves the values that their columns may hold. -/
theorem valueAt_prepare {s : Schema} {row row' : Row} {i : Nat} (hi : s.columns[i]? = some c)
    (hv : valueAt i row = .null ∨ (valueAt i row).type? = some c.type)
    (h : prepare s row = .ok row') : valueAt i row' = valueAt i row := by
  unfold prepare at h
  split at h
  · cases h
  · have hvalues : ∀ (columns : List Column) (row row' : Row) (i : Nat), columns[i]? = some c →
        (valueAt i row = .null ∨ (valueAt i row).type? = some c.type) →
        prepareValues columns row = .ok row' → valueAt i row' = valueAt i row := by
      intro columns
      induction columns with
      | nil => simp
      | cons d columns ih =>
        intro row row' i hi hv h
        cases row with
        | nil =>
          cases h
          rfl
        | cons v row =>
          obtain ⟨w, hw, h⟩ := Except.bind_eq_ok.1 h
          obtain ⟨rest, hrest, h⟩ := Except.bind_eq_ok.1 h
          cases h
          cases i with
          | zero =>
            simp only [List.getElem?_cons_zero, Option.some.injEq] at hi
            subst hi
            exact prepareValue_of_type hv hw
          | succ i => exact ih row rest i hi hv hrest
    exact hvalues s.columns row row' i hi hv h

/-- A stamp leaves the columns that it does not go to. -/
theorem valueAt_stamp {row row' : Row} {i : Nat} (hlength : row.length = columns.length)
    (hi : columns[i]? = some c) (hc : c.onUpdate = false)
    (h : Gives (stamp columns row) t row' t') : valueAt i row' = valueAt i row := by
  induction columns generalizing row row' i t t' with
  | nil => simp at hi
  | cons d columns ih =>
    cases row with
    | nil => cases hlength
    | cons v row =>
      unfold stamp at h
      split at h
      · rename_i hd
        simp only [gives_bind, gives_map, gives_pure] at h
        obtain ⟨_, _, -, rest, _, hrest, rfl, -⟩ := h
        cases i with
        | zero =>
          simp only [List.getElem?_cons_zero, Option.some.injEq] at hi
          rw [hi, hc] at hd
          cases hd
        | succ i =>
          have hvalue : valueAt i rest = valueAt i row := ih (by simpa using hlength) hi hrest
          exact hvalue
      · simp only [gives_bind, gives_pure] at h
        obtain ⟨_, _, ⟨rfl, -⟩, rest, _, hrest, rfl, -⟩ := h
        cases i with
        | zero => rfl
        | succ i =>
          have hvalue : valueAt i rest = valueAt i row := ih (by simpa using hlength) hi hrest
          exact hvalue

end Relation

namespace Mutation

variable {s : Schema} {t t' : Time.Clock} {c : Column} {i : Nat}

/-- An `UPDATE` does not assign to an autoincrement column. -/
theorem not_mem_targets {seen : List Nat} {assignments : List (String × Expression)}
    {assigned : List (Nat × Expression)} (hi : s.columns[i]? = some c)
    (hc : c.autoincrement = true) (h : targets s seen assignments = .ok assigned) :
    ∀ a ∈ assigned, a.1 ≠ i := by
  induction assignments generalizing seen assigned with
  | nil =>
    cases h
    simp
  | cons a assignments ih =>
    obtain ⟨j, -, h⟩ := Except.bind_eq_ok.1 h
    split at h
    · cases h
    · split at h
      · cases h
      · rename_i hother
        obtain ⟨rest, hrest, h⟩ := Except.bind_eq_ok.1 h
        cases h
        refine List.forall_mem_cons.2 ⟨?_, ih hrest⟩
        rintro rfl
        simp [hi, hc] at hother

/-- A column that is not assigned has its value as before. -/
theorem valueAt_assign {row changed row' : Row} {assigned : List (Nat × Expression)}
    (hi : ∀ a ∈ assigned, a.1 ≠ i) (h : Gives (assign s row changed assigned) t row' t') :
    valueAt i row' = valueAt i changed := by
  induction assigned generalizing changed t with
  | nil =>
    obtain ⟨rfl, -⟩ := gives_pure.1 h
    rfl
  | cons a assigned ih =>
    obtain ⟨ha, hi⟩ := List.forall_mem_cons.1 hi
    obtain ⟨v, mid, -, h⟩ := gives_bind.1 h
    rw [ih hi h, valueAt, valueAt, List.getElem?_set_ne ha]

end Mutation

/-! ## The numbers of a table -/

namespace Relation

/-- In the column at a position the rows have numbers that ascend, below the counter. -/
def Ascends (r : Relation) (i : Nat) : Prop :=
  ∃ ns : List Int64, r.scan.map (fun e => valueAt i e.2) = ns.map .integer ∧
    ns.Pairwise (· < ·) ∧ ∀ n ∈ ns, n < r.nextNumber

/-- The ids of the rows are below the next one, and the numbers of every autoincrement column
ascend. -/
structure Counted (r : Relation) : Prop where
  ids : ∀ e ∈ r.scan, e.1 < r.nextId
  columns : ∀ i c, r.schema.columns[i]? = some c → c.autoincrement = true → r.Ascends i

/-- The numbers in the rows that the second relation has and the first has not, row by row. -/
def added (r r' : Relation) : List Int64 :=
  (r'.scan.filter fun e => !r.rows.contains e.1).flatMap fun e => numbersOf r'.schema.columns e.2

/-- A row that is in both relations has the same numbers in both. -/
def KeepsNumbers (r r' : Relation) : Prop :=
  ∀ e ∈ r.scan, ∀ e' ∈ r'.scan, e.1 = e'.1 → ∀ i c, r.schema.columns[i]? = some c →
    c.autoincrement = true → valueAt i e'.2 = valueAt i e.2

/-- A row as far as the column at a position: its id and its value there. -/
def entryAt (i : Nat) (e : Nat × Row) : Nat × Value := (e.1, valueAt i e.2)

/-- The second relation goes on from the first: some of the rows of the first, as far as their ids
and numbers, and behind them rows with new ids that have drawn their numbers. -/
structure Continues (r r' : Relation) (kept pushed : List (Nat × Row)) : Prop where
  schema : r'.schema = r.schema
  scan : r'.scan = kept ++ pushed
  ids : (kept.map (·.1)).Sublist (r.scan.map (·.1))
  numbers : ∀ i c, r.schema.columns[i]? = some c → c.autoincrement = true →
    (kept.map (entryAt i)).Sublist (r.scan.map (entryAt i))
  nextId : r.nextId ≤ r'.nextId
  fresh : ∀ e ∈ pushed, r.nextId ≤ e.1 ∧ e.1 < r'.nextId
  draws : DrawsAll r.schema.columns r.nextNumber (pushed.map (·.2)) r'.nextNumber

variable {r r' : Relation} {kept pushed : List (Nat × Row)} {t t' : Time.Clock}

/-- A new relation has handed out nothing. -/
theorem counted_new {s : Schema} {start : Int64} : (new s start).Counted :=
  ⟨fun _ he => (nomatch he), fun _ _ _ _ => ⟨[], rfl, .nil, by simp⟩⟩

namespace Continues

/-- The row of a kept id is in the first relation. -/
theorem exists_of_kept (h : r.Continues r' kept pushed) {e : Nat × Row} (he : e ∈ kept) :
    ∃ d ∈ r.scan, d.1 = e.1 :=
  List.mem_map.1 (h.ids.subset (List.mem_map_of_mem he))

/-- The rows that are new are those that were pushed. -/
theorem added_eq (h : r.Continues r' kept pushed) (hr : r.Counted) :
    r.added r' = (pushed.map (·.2)).flatMap (numbersOf r.schema.columns) := by
  have hold : (kept.filter fun e => !r.rows.contains e.1) = [] := by
    refine List.filter_eq_nil_iff.2 fun e he => ?_
    obtain ⟨d, hd, hid⟩ := h.exists_of_kept he
    have hcontains : r.rows.contains d.1 = true := contains_of_mem_scan hd
    simp [← hid, hcontains]
  have hnew : (pushed.filter fun e => !r.rows.contains e.1) = pushed := by
    refine List.filter_eq_self.2 fun e he => ?_
    rw [Bool.not_eq_eq_eq_not, Bool.not_true, Bool.eq_false_iff]
    intro hcontains
    obtain ⟨d, hd, hid⟩ := List.mem_map.1 (contains_iff.1 hcontains)
    have hlower := (h.fresh e he).1
    have hupper := hr.ids d hd
    omega
  rw [added, h.scan, h.schema, List.filter_append, hold, hnew, List.nil_append, List.flatMap_map]

/-- The numbers that are drawn are consecutive. -/
theorem consecutive (h : r.Continues r' kept pushed) (hr : r.Counted) :
    Consecutive r.nextNumber (r.added r') r'.nextNumber := by
  rw [h.added_eq hr]
  exact h.draws.consecutive

/-- A relation that goes on keeps its numbers. -/
theorem keepsNumbers (h : r.Continues r' kept pushed) (hr : r.Counted) : r.KeepsNumbers r' := by
  intro e he e' he' hid i c hi hc
  rw [h.scan] at he'
  rcases List.mem_append.1 he' with he' | he'
  · have hentry := (h.numbers i c hi hc).subset (List.mem_map_of_mem he')
    obtain ⟨d, hd, hsame⟩ := List.mem_map.1 hentry
    obtain ⟨hd', hvalue⟩ := Prod.mk.inj hsame
    rw [SortedMap.entry_unique he hd (hid.trans hd'.symm)]
    exact hvalue.symm
  · have hlower := (h.fresh e' he').1
    have hupper := hr.ids e he
    omega

/-- In a column the kept rows have some of the numbers that ascended, and the pushed rows the next
ones. -/
theorem ascends (h : r.Continues r' kept pushed) (hr : r.Counted)
    (hbelow : ∀ n ∈ r.added r', n < Int64.maxValue) {i : Nat} {c : Column}
    (hi : r.schema.columns[i]? = some c) (hc : c.autoincrement = true) : r'.Ascends i := by
  have hadded := h.added_eq hr
  obtain ⟨hle, hall, hascending⟩ := (h.consecutive hr).ascending hbelow
  obtain ⟨ns, hns, hold, hlast⟩ := hr.columns i c hi hc
  obtain ⟨ms, hms, hsub⟩ := h.draws.column hi hc
  rw [← hadded] at hsub
  have hkept : (kept.map fun e => valueAt i e.2).Sublist (ns.map .integer) := by
    have hvalues := (h.numbers i c hi hc).map Prod.snd
    rw [List.map_map, List.map_map] at hvalues
    exact hns ▸ hvalues
  obtain ⟨ks, hks, heq⟩ := List.sublist_map_iff.1 hkept
  have hpushed : pushed.map (fun e => valueAt i e.2) = ms.map .integer := by
    rw [← hms, List.map_map]
    rfl
  refine ⟨ks ++ ms, ?_, List.pairwise_append.2 ⟨hold.sublist hks, hascending.sublist hsub, ?_⟩, ?_⟩
  · rw [h.scan, List.map_append, heq, hpushed, List.map_append]
  · exact fun a ha b hb =>
      Int64.lt_of_lt_of_le (hlast a (hks.subset ha)) (hall b (hsub.subset hb)).1
  · intro m hm
    rcases List.mem_append.1 hm with hm | hm
    · exact Int64.lt_of_lt_of_le (hlast m (hks.subset hm)) hle
    · exact (hall m (hsub.subset hm)).2

/-- **The numbers of the second relation** ascend as those of the first do. -/
theorem counted (h : r.Continues r' kept pushed) (hr : r.Counted)
    (hbelow : ∀ n ∈ r.added r', n < Int64.maxValue) : r'.Counted := by
  refine ⟨fun e he => ?_, fun i c hi hc => h.ascends hr hbelow (h.schema ▸ hi) hc⟩
  rw [h.scan] at he
  rcases List.mem_append.1 he with he | he
  · obtain ⟨d, hd, hid⟩ := h.exists_of_kept he
    have hlt := hr.ids d hd
    have hle := h.nextId
    omega
  · exact (h.fresh e he).2

end Continues

/-! ## Every change goes on from the relation -/

/-- Some of the old rows, under the same counters. -/
theorem continues_of_sublist (hschema : r'.schema = r.schema) (hnextId : r'.nextId = r.nextId)
    (hnextNumber : r'.nextNumber = r.nextNumber) (hscan : r'.scan.Sublist r.scan) :
    r.Continues r' r'.scan [] where
  schema := hschema
  scan := (List.append_nil _).symm
  ids := hscan.map _
  numbers _ _ _ _ := hscan.map _
  nextId := Nat.le_of_eq hnextId.symm
  fresh _ he := nomatch he
  draws := hnextNumber ▸ .nil _

/-- **An insert** pushes its rows behind all others, and they draw their numbers. -/
theorem insert_continues {slots : List (List (Option Value))} {stored : Inserted}
    (hs : r.schema.WellFormed) (hr : r.Counted) (h : Gives (r.insert slots) t (r', stored) t') :
    ∃ pushed, r.Continues r' r.scan pushed := by
  obtain ⟨rows, n, hrows, -, rfl, -⟩ := gives_insert.1 h
  have hvalues : (((rows.map Record.kept).zipIdx r.nextId).map Prod.swap).map (·.2) =
      rows.map Record.kept := by
    rw [List.map_map]
    exact List.zipIdx_map_fst r.nextId _
  refine ⟨((rows.map Record.kept).zipIdx r.nextId).map Prod.swap, schema_pushAll,
    scan_pushAll hr.ids, .refl _, fun _ _ _ _ => .refl _, ?_, fun e he => ?_, ?_⟩
  · show r.nextId ≤ (rows.foldl push r).nextId
    rw [nextId_pushAll]
    omega
  · obtain ⟨⟨row, k⟩, hk, rfl⟩ := List.mem_map.1 he
    have hlower := List.le_snd_of_mem_zipIdx hk
    have hupper := List.snd_lt_add_of_mem_zipIdx hk
    rw [List.length_map] at hupper
    show r.nextId ≤ k ∧ k < (rows.foldl push r).nextId
    rw [nextId_pushAll]
    constructor <;> omega
  · rw [hvalues]
    exact (completeRows_draws hs hrows).kept

/-- A changed row keeps the numbers of the row that it replaces. -/
theorem change_numbers {id : Nat} {row : Row} {e : Nat × Row} {i : Nat} {c : Column}
    (hs : r.schema.WellFormed) (hi : r.schema.columns[i]? = some c) (hc : c.autoincrement = true)
    {n : Int64} (hrow : valueAt i row = .integer n) (h : Gives (r.change id row) t e t') :
    valueAt i e.2 = .integer n := by
  obtain ⟨-, prepared, stamped, hprepared, hstamped, rfl⟩ := gives_change.1 h
  have hwell := hs.columns c (List.mem_of_getElem? hi)
  have htype := hwell.autoincrement_integer hc
  have hprepare : valueAt i prepared = .integer n := by
    rw [valueAt_prepare hi (.inr (by rw [hrow, htype]; rfl)) hprepared, hrow]
  -- A column of integers is not one of instants.
  have hstamp : c.onUpdate = false := by
    by_contra hstamp
    have hinstant := hwell.onUpdate_timestamp (by simpa using hstamp)
    rw [htype] at hinstant
    cases hinstant
  rw [valueAt_stamp (prepare_holds hprepared).length_eq.symm hi hstamp hstamped, hprepare]

/-- **An update** leaves every row in its place with its numbers, and draws none. -/
theorem update_continues {p : Expression} {assignments : List (String × Expression)} {k : Nat}
    (hs : r.schema.WellFormed) (hr : r.Counted)
    (h : Gives (Mutation.update r p assignments) t (r', k) t') : r.Continues r' r'.scan [] := by
  obtain ⟨assigned, changed, mid, htargets, hchanged, h⟩ := Mutation.gives_update.1 h
  obtain ⟨stored, hstored, -, rfl, -⟩ := gives_update.1 h
  obtain ⟨hscan, -⟩ := scan_update hstored
  -- A row has the same numbers in its place before and after.
  have hentry : ∀ e ∈ r.scan, ∀ i c, r.schema.columns[i]? = some c → c.autoincrement = true →
      entryAt i (replaced (stored.map keptAt) e) = entryAt i e := by
    intro e he i c hi hc
    rcases replaced_cases (stored.map keptAt) e with hmem | ⟨heq, -⟩
    · obtain ⟨d', hd', hkept⟩ := List.mem_map.1 hmem
      obtain ⟨d, hd, _, _, hchange⟩ := exists_mem_of_forall₂ hstored.mapM hd'
      obtain ⟨row, hrow, _, _, hassign⟩ := Mutation.mem_changes hchanged d hd
      have hid : e.1 = d.1 := by
        obtain ⟨-, _, _, _, _, heq⟩ := gives_change.1 hchange
        rw [← fst_replaced (stored.map keptAt) e, ← hkept, keptAt, heq]
      have hsame : (d.1, row) = e := SortedMap.entry_unique hrow he hid.symm
      obtain ⟨ns, hns, -, -⟩ := hr.columns i c hi hc
      obtain ⟨n, -, hn⟩ := List.mem_map.1 (hns ▸ List.mem_map_of_mem he :
        valueAt i e.2 ∈ ns.map .integer)
      have hassigned : valueAt i d.2 = .integer n := by
        rw [Mutation.valueAt_assign (Mutation.not_mem_targets hi hc htargets) hassign, hn, ← hsame]
      rw [entryAt, entryAt, fst_replaced, ← hkept, keptAt, Record.valueAt_kept,
        change_numbers hs hi hc hassigned hchange, Value.kept_integer, hn]
    · rw [heq]
  refine ⟨schema_putAll, (List.append_nil _).symm, ?_, fun i c hi hc => ?_,
    Nat.le_of_eq counters_putAll.1.symm, fun _ he => (nomatch he), ?_⟩
  · rw [hscan, map_fst_replaced]
  · have hentries : (r.scan.map (replaced (stored.map keptAt))).map (entryAt i) =
        r.scan.map (entryAt i) := by
      rw [List.map_map]
      exact List.map_congr_left fun e he => hentry e he i c hi hc
    rw [hscan, hentries]
  · rw [counters_putAll.2]
    exact .nil _

/-- **Every change of a table by a statement** goes on from the table. -/
theorem step_continues (hs : r.schema.WellFormed) (hr : r.Counted) (h : Mutation.Step r r') :
    ∃ kept pushed, r.Continues r' kept pushed := by
  cases h with
  | insert h =>
    obtain ⟨slotted, mid, -, h⟩ := Mutation.gives_insert.1 h
    exact ⟨r.scan, insert_continues hs hr h⟩
  | update h => exact ⟨_, [], update_continues hs hr h⟩
  | delete h =>
    obtain ⟨ids, -, h⟩ := Mutation.gives_delete.1 h
    obtain rfl : r' = (r.delete ids).1 := by rw [h]
    have hscan : (r.delete ids).1.scan.Sublist r.scan := by
      rw [scan_delete]
      exact List.filter_sublist
    exact ⟨_, [], continues_of_sublist schema_delete counters_delete.1 counters_delete.2 hscan⟩
  | truncate => exact ⟨_, [], continues_of_sublist rfl rfl rfl (List.nil_sublist _)⟩

end Relation
end MiniSql
