/-
# What the rows of an insert are completed to

An insert goes through its rows slot by slot. An autoincrement column takes the next number of the
table, a column for which nothing is supplied its default, and what comes out is then stored as the
column stores it. `Relation.Completed` says this of all rows at once: each cell is filled
(`Column.Fills`), the numbers are consecutive, and the default times are readings of the clock in
turn. The rows can be completed when every column takes its slots
(`Relation.exists_completed_iff`), and to nothing else than the rows so described
(`Relation.completeRows_iff`).

| step | what is said of it |
| --- | --- |
| a cell | `Relation.complete_iff` |
| a row | `Relation.completeRow_iff`, from its cells by `Relation.rowCompleted_cons` |
| all rows | `Relation.completeRows_iff`, from the rows by `Relation.completed_cons` |

This takes columns that have no fault: a default that is the current time is stored as it is read,
and a number as it is counted.
-/

import MiniSql.Proofs.Store.Cells

namespace MiniSql

open Timed
open MiniSql.Relation (Numbering)

/-! ## Handing out numbers -/

namespace Consecutive

variable {n m n' : Int64} {ns ms : List Int64}

/-- **Consecutive numbers**, by their places. -/
theorem eq_range (h : Consecutive n ns n') :
    ns = (List.range ns.length).map (fun i => n + Int64.ofNat i) ∧
      n' = n + Int64.ofNat ns.length := by
  induction h with
  | nil n => exact ⟨rfl, (Int64.add_zero n).symm⟩
  | @cons n n' ns h ih =>
    have hshift : ∀ i : Nat, n + 1 + Int64.ofNat i = n + Int64.ofNat (i + 1) := by
      intro i
      rw [Nat.add_comm i 1, Int64.ofNat_add, Int64.add_assoc]
      rfl
    obtain ⟨hns, hn'⟩ := ih
    constructor
    · have hfirst : n + Int64.ofNat 0 = n := Int64.add_zero n
      rw [List.length_cons, List.range_succ_eq_map, List.map_cons, List.map_map, hfirst]
      refine congrArg (n :: ·) (hns.trans (List.map_congr_left fun i _ => hshift i))
    · rw [hn', List.length_cons, hshift]

/-- The counter goes up by the number of them, if that does not run over. -/
theorem toInt_last (h : Consecutive n ns n') (hbound : n.toInt + ns.length < 2 ^ 63) :
    n'.toInt = n.toInt + ns.length := by
  have hlower := Int64.le_toInt n
  rw [h.eq_range.2, Int64.toInt_add, Int64.toInt_ofNat', show Int64.size = 2 ^ 64 from rfl,
    Int.add_bmod_bmod, Int.bmod_eq_of_le] <;> omega

end Consecutive

namespace Relation

/-- The second numbering is the first after the numbers have been handed out. -/
structure Numbering.HandsOut (n : Numbering) (numbers : List Int64) (n' : Numbering) : Prop where
  consecutive : Consecutive n.next numbers n'.next
  last : n'.last = numbers.getLast?.or n.last

namespace Numbering

variable {n n' : Numbering} {ns ms : List Int64}

/-- To hand out no numbers changes nothing. -/
theorem handsOut_nil : n.HandsOut [] n' ↔ n' = n := by
  constructor
  · rintro ⟨hnext, hlast⟩
    obtain ⟨next, last⟩ := n
    obtain ⟨next', last'⟩ := n'
    cases hnext
    cases hlast
    rfl
  · rintro rfl
    exact ⟨.nil _, rfl⟩

/-- One number is the next one. -/
theorem handsOut_one {k : Int64} :
    n.HandsOut [k] n' ↔ k = n.next ∧ n' = ⟨n.next + 1, some n.next⟩ := by
  constructor
  · rintro ⟨hnext, hlast⟩
    obtain ⟨next', last'⟩ := n'
    cases hnext with
    | cons hnext =>
      cases hnext
      cases hlast
      exact ⟨rfl, rfl⟩
  · rintro ⟨rfl, rfl⟩
    exact ⟨.cons (.nil _), rfl⟩

/-- Numbers are handed out one after the other. -/
theorem handsOut_append :
    n.HandsOut (ns ++ ms) n' ↔ ∃ mid, n.HandsOut ns mid ∧ mid.HandsOut ms n' := by
  constructor
  · rintro ⟨hnext, hlast⟩
    obtain ⟨m, hns, hms⟩ := Consecutive.append_iff.1 hnext
    refine ⟨⟨m, ns.getLast?.or n.last⟩, ⟨hns, rfl⟩, hms, ?_⟩
    rw [hlast, List.getLast?_append, Option.or_assoc]
  · rintro ⟨mid, hns, hms⟩
    refine ⟨hns.consecutive.append hms.consecutive, ?_⟩
    rw [hms.last, hns.last, List.getLast?_append, Option.or_assoc]

end Numbering

/-! ## Completing a row -/

/-- The cells of a row whose columns take the current time, because nothing is supplied. -/
def defaultTimes : List Column → List (Option Value) → Row → List Value
  | c :: columns, slot :: slots, w :: row =>
    if slot = none ∧ c.default = some .now then w :: defaultTimes columns slots row
    else defaultTimes columns slots row
  | _, _, _ => []

/-- What the slots of a row are completed to: its cells are filled, it takes the next numbers, and
its default times are the next readings of the clock. -/
structure RowCompleted (columns : List Column) (n : Numbering) (t : Time.Clock)
    (slots : List (Option Value)) (row : Row) (n' : Numbering) (t' : Time.Clock) : Prop where
  cells : Cells Column.Fills columns slots row
  numbers : n.HandsOut (numbersOf columns row) n'
  times : Readings t (defaultTimes columns slots row) t'

section Row

variable {n n' : Numbering} {t t' : Time.Clock} {c : Column} {columns : List Column}
  {slot : Option Value} {slots : List (Option Value)} {w : Value} {row : Row}

/-- The number of the first column comes first. -/
theorem numbersOf_cons :
    numbersOf (c :: columns) (w :: row) = numbersOf [c] [w] ++ numbersOf columns row := by
  cases w <;> simp only [numbersOf, List.nil_append]
  split <;> rfl

/-- The default time of the first column comes first. -/
theorem defaultTimes_cons : defaultTimes (c :: columns) (slot :: slots) (w :: row) =
    defaultTimes [c] [slot] [w] ++ defaultTimes columns slots row := by
  simp only [defaultTimes]
  split <;> rfl

/-- **A row is completed cell by cell.** -/
theorem rowCompleted_cons : RowCompleted (c :: columns) n t (slot :: slots) (w :: row) n' t' ↔
    ∃ m mid, RowCompleted [c] n t [slot] [w] m mid ∧
      RowCompleted columns m mid slots row n' t' := by
  constructor
  · rintro ⟨_ | ⟨hcell, hcells⟩, hnumbers, htimes⟩
    rw [numbersOf_cons, Numbering.handsOut_append] at hnumbers
    rw [defaultTimes_cons, Readings.append_iff] at htimes
    obtain ⟨m, hfirst, hnumbers⟩ := hnumbers
    obtain ⟨mid, htime, htimes⟩ := htimes
    exact ⟨m, mid, ⟨.cons hcell .nil, hfirst, htime⟩, hcells, hnumbers, htimes⟩
  · rintro ⟨m, mid, ⟨_ | ⟨hcell, -⟩, hfirst, htime⟩, hcells, hnumbers, htimes⟩
    refine ⟨.cons hcell hcells, ?_, ?_⟩
    · rw [numbersOf_cons]
      exact Numbering.handsOut_append.2 ⟨m, hfirst, hnumbers⟩
    · rw [defaultTimes_cons]
      exact Readings.append_iff.2 ⟨mid, htime, htimes⟩

/-- A cell of an autoincrement column is the next number. -/
theorem rowCompleted_number (hc : Schema.columnFault? c = none) (hauto : c.autoincrement = true) :
    RowCompleted [c] n t [slot] [w] n' t' ↔
      (slot = none ∨ slot = some .null) ∧ w = .integer n.next ∧
        n' = ⟨n.next + 1, some n.next⟩ ∧ t' = t := by
  have htype := Column.integer_of_fault? hc hauto
  have hnumbersOf : ∀ k, numbersOf [c] [.integer k] = [k] := fun k => if_pos hauto
  have htimes : ∀ w, defaultTimes [c] [slot] [w] = [] := by
    intro w
    refine if_neg ?_
    rintro ⟨-, hnow⟩
    rw [Column.timestamp_of_fault? hc hnow] at htype
    cases htype
  constructor
  · rintro ⟨_ | ⟨hcell, -⟩, hnumbers, hreadings⟩
    cases hcell with
    | number _ hslot k =>
      rw [hnumbersOf, Numbering.handsOut_one] at hnumbers
      rw [htimes] at hreadings
      cases hreadings
      obtain ⟨rfl, rfl⟩ := hnumbers
      exact ⟨hslot, rfl, rfl, rfl⟩
    | value hnot _ _ =>
      rw [hauto] at hnot
      cases hnot
  · rintro ⟨hslot, rfl, rfl, rfl⟩
    refine ⟨.cons (.number hauto hslot _) .nil, ?_, ?_⟩
    · rw [hnumbersOf]
      exact Numbering.handsOut_one.2 ⟨rfl, rfl⟩
    · rw [htimes]
      exact .nil _

/-- A cell of another column takes no number. -/
theorem rowCompleted_value (hauto : c.autoincrement = false) :
    RowCompleted [c] n t [slot] [w] n' t' ↔
      (∃ v, c.Supplies slot v ∧ c.Stores v w) ∧ n' = n ∧
        Readings t (defaultTimes [c] [slot] [w]) t' := by
  have hnumbers : numbersOf [c] [w] = [] := by
    cases w <;> simp [numbersOf, hauto]
  constructor
  · rintro ⟨_ | ⟨hcell, -⟩, hnone, htimes⟩
    rw [hnumbers, Numbering.handsOut_nil] at hnone
    cases hcell with
    | number hc _ _ =>
      rw [hauto] at hc
      cases hc
    | value _ hv hw => exact ⟨⟨_, hv, hw⟩, hnone, htimes⟩
  · rintro ⟨⟨v, hv, hw⟩, rfl, htimes⟩
    exact ⟨.cons (.value hauto hv hw) .nil, hnumbers ▸ Numbering.handsOut_nil.2 rfl, htimes⟩

/-- The default of a column is supplied, and the clock is read if it is the current time. -/
theorem gives_defaultValue? {v : Value} :
    Gives c.defaultValue? t (some v) t' ↔
      c.Supplies none v ∧ Readings t (if c.default = some .now then [v] else []) t' := by
  unfold Column.defaultValue?
  -- There is no default, or a value, or the current time.
  rcases hdefault : c.default with _ | d | _
  · constructor
    · intro h
      by_cases hnull : c.nullable = true
      · simp only [hnull, if_true, gives_pure, Option.some.injEq] at h
        obtain ⟨rfl, rfl⟩ := h
        exact ⟨.null hdefault hnull, .nil t⟩
      · simp [hnull] at h
    · rintro ⟨hv, hreadings⟩
      cases hreadings
      cases hv with
      | default h | now _ h =>
        rw [hdefault] at h
        cases h
      | null _ hnull => simp [hnull]
  · constructor
    · intro h
      simp only [gives_pure, Option.some.injEq] at h
      obtain ⟨rfl, rfl⟩ := h
      exact ⟨.default hdefault, .nil t⟩
    · rintro ⟨hv, hreadings⟩
      cases hreadings
      cases hv with
      | default h =>
        rw [hdefault] at h
        cases h
        exact gives_pure.2 ⟨rfl, rfl⟩
      | now _ h | null h _ =>
        rw [hdefault] at h
        cases h
  · constructor
    · intro h
      simp only [gives_bind, gives_pure, Option.some.injEq] at h
      obtain ⟨i, _, hread, rfl, rfl⟩ := h
      cases hread
      exact ⟨.now _ hdefault, .cons (.nil _)⟩
    · rintro ⟨hv, hreadings⟩
      cases hv with
      | now i _ =>
        rw [if_pos rfl] at hreadings
        cases hreadings with
        | cons hreadings =>
          cases hreadings
          exact gives_bind.2 ⟨t.read.1, t.read.2, rfl, gives_pure.2 ⟨rfl, rfl⟩⟩
      | default h | null h _ =>
        rw [hdefault] at h
        cases h

/-- What an autoincrement column is completed to. -/
theorem complete_number_iff (hc : Schema.columnFault? c = none) (hauto : c.autoincrement = true) :
    (∃ v, Gives (complete c slot n) t (v, n') t' ∧ c.Stores v w) ↔
      RowCompleted [c] n t [slot] [w] n' t' := by
  have hstores : c.Stores (.integer n.next) w ↔ w = .integer n.next :=
    Column.stores_iff_of_type (by rw [Column.integer_of_fault? hc hauto]; rfl)
  have hnumber : (∃ v, Gives (pure (.integer n.next, ⟨n.next + 1, some n.next⟩)) t (v, n') t' ∧
      c.Stores v w) ↔
        w = .integer n.next ∧ n' = ⟨n.next + 1, some n.next⟩ ∧ t' = t := by
    simp only [gives_pure, Prod.mk.injEq]
    constructor
    · rintro ⟨_, ⟨⟨rfl, rfl⟩, rfl⟩, hw⟩
      exact ⟨hstores.1 hw, rfl, rfl⟩
    · rintro ⟨hw, rfl, rfl⟩
      exact ⟨_, ⟨⟨rfl, rfl⟩, rfl⟩, hstores.2 hw⟩
  rw [rowCompleted_number hc hauto]
  unfold complete
  rw [if_pos hauto]
  split
  · simpa using hnumber
  · simpa using hnumber
  · rename_i v hv
    have hnull : v ≠ .null := hv
    simp [hnull]

/-- What a column takes for which nothing is supplied: the time that it takes, if its default is
that, is the one that is stored. -/
theorem defaultTimes_of_supplies {v : Value} (hc : Schema.columnFault? c = none)
    (hv : c.Supplies none v) (hw : c.Stores v w) :
    defaultTimes [c] [none] [w] = if c.default = some .now then [v] else [] := by
  by_cases hnow : c.default = some .now
  · have hinstant : v.type? = some c.type := by
      rw [Column.timestamp_of_fault? hc hnow]
      cases hv with
      | now i _ => rfl
      | default h | null h _ =>
        rw [hnow] at h
        cases h
    rw [if_pos hnow, hw.of_type hinstant]
    exact if_pos ⟨rfl, hnow⟩
  · rw [if_neg hnow]
    exact if_neg fun h => hnow h.2

/-- What another column is completed to. -/
theorem complete_value_iff (hc : Schema.columnFault? c = none) (hauto : c.autoincrement = false) :
    (∃ v, Gives (complete c slot n) t (v, n') t' ∧ c.Stores v w) ↔
      RowCompleted [c] n t [slot] [w] n' t' := by
  rw [rowCompleted_value hauto]
  unfold complete
  rw [if_neg (by simp [hauto])]
  cases slot with
  | some v =>
    have htimes : defaultTimes [c] [some v] [w] = [] := if_neg (fun h => nomatch h.1)
    rw [htimes]
    constructor
    · rintro ⟨_, hv, hw⟩
      obtain ⟨hv, rfl⟩ := gives_pure.1 hv
      cases hv
      exact ⟨⟨v, .given v, hw⟩, rfl, .nil t⟩
    · rintro ⟨⟨_, ⟨⟩, hw⟩, rfl, ⟨⟩⟩
      exact ⟨v, gives_pure.2 ⟨rfl, rfl⟩, hw⟩
  | none =>
    constructor
    · rintro ⟨v, hv, hw⟩
      obtain ⟨d, mid, hd, hv⟩ := gives_bind.1 hv
      cases d with
      | none => cases not_gives_refuse hv
      | some d =>
        obtain ⟨hv, rfl⟩ := gives_pure.1 hv
        cases hv
        obtain ⟨hsupplies, hreadings⟩ := gives_defaultValue?.1 hd
        exact ⟨⟨v, hsupplies, hw⟩, rfl, defaultTimes_of_supplies hc hsupplies hw ▸ hreadings⟩
    · rintro ⟨⟨v, hsupplies, hw⟩, rfl, hreadings⟩
      rw [defaultTimes_of_supplies hc hsupplies hw] at hreadings
      exact ⟨v, gives_bind.2 ⟨some v, t', gives_defaultValue?.2 ⟨hsupplies, hreadings⟩,
        gives_pure.2 ⟨rfl, rfl⟩⟩, hw⟩

/-- **One cell**: it is completed, and what it is completed to is then stored. -/
theorem complete_iff (hc : Schema.columnFault? c = none) :
    (∃ v, Gives (complete c slot n) t (v, n') t' ∧ c.Stores v w) ↔
      RowCompleted [c] n t [slot] [w] n' t' := by
  cases hauto : c.autoincrement with
  | true => exact complete_number_iff hc hauto
  | false => exact complete_value_iff hc hauto

/-- **One row**: it is completed, and what it is completed to is then stored. -/
theorem completeAll_iff (hcolumns : ∀ c ∈ columns, Schema.columnFault? c = none)
    (hlength : slots.length = columns.length) :
    (∃ given, Gives (completeAll columns slots n) t (given, n') t' ∧
        Cells Column.Stores columns given row) ↔ RowCompleted columns n t slots row n' t' := by
  induction columns generalizing slots n t row with
  | nil =>
    obtain rfl := List.length_eq_zero_iff.1 hlength
    constructor
    · rintro ⟨given, hgiven, hrow⟩
      obtain ⟨h, rfl⟩ := gives_pure.1 hgiven
      cases h
      cases hrow
      exact ⟨.nil, Numbering.handsOut_nil.2 rfl, .nil t⟩
    · rintro ⟨⟨⟩, hnumbers, ⟨⟩⟩
      obtain rfl := Numbering.handsOut_nil.1 hnumbers
      exact ⟨[], gives_pure.2 ⟨rfl, rfl⟩, .nil⟩
  | cons c columns ih =>
    obtain ⟨hc, hcolumns⟩ := List.forall_mem_cons.1 hcolumns
    cases slots with
    | nil => cases hlength
    | cons slot slots =>
      have hlength : slots.length = columns.length := by simpa using hlength
      constructor
      · rintro ⟨given, hgiven, hrow⟩
        simp only [completeAll, gives_bind, gives_pure, Prod.exists, Prod.mk.injEq] at hgiven
        obtain ⟨v, m, mid, hv, given, _, _, hgiven, ⟨rfl, rfl⟩, rfl⟩ := hgiven
        obtain _ | ⟨hw, hrest⟩ := hrow
        have hcell := (complete_iff hc).1 ⟨v, hv, hw⟩
        have hcells := (ih hcolumns hlength).1 ⟨given, hgiven, hrest⟩
        exact rowCompleted_cons.2 ⟨m, mid, hcell, hcells⟩
      · intro h
        cases row with
        | nil => cases h.cells
        | cons w row =>
          obtain ⟨m, mid, hcell, hcells⟩ := rowCompleted_cons.1 h
          obtain ⟨v, hv, hw⟩ := (complete_iff hc).2 hcell
          obtain ⟨given, hgiven, hrest⟩ := (ih hcolumns hlength).2 hcells
          refine ⟨v :: given, ?_, .cons hw hrest⟩
          simp only [completeAll, gives_bind, gives_pure, Prod.exists, Prod.mk.injEq]
          exact ⟨v, m, mid, hv, given, n', t', hgiven, ⟨rfl, rfl⟩, rfl⟩

/-- **Completing a row** gives a row that is completed, and each of these. -/
theorem completeRow_iff {s : Schema} (hs : ∀ c ∈ s.columns, Schema.columnFault? c = none) :
    Gives (completeRow s slots n) t (row, n') t' ↔
      RowCompleted s.columns n t slots row n' t' := by
  unfold completeRow
  split
  · rename_i hlength
    constructor
    · exact fun h => (not_gives_refuse h).elim
    · exact fun h => absurd h.cells.length.1 hlength
  · rename_i hlength
    have hlength : slots.length = s.columns.length := not_not.1 hlength
    rw [← completeAll_iff hs hlength]
    simp only [gives_bind, gives_ofExcept, gives_pure, Prod.exists, Prod.mk.injEq]
    constructor
    · rintro ⟨given, m, mid, hgiven, prepared, _, ⟨hprepared, rfl⟩, ⟨rfl, rfl⟩, rfl⟩
      exact ⟨given, hgiven, prepare_eq_ok.1 hprepared⟩
    · rintro ⟨given, hgiven, hrow⟩
      exact ⟨given, n', t', hgiven, row, t', ⟨prepare_eq_ok.2 hrow, rfl⟩, ⟨rfl, rfl⟩, rfl⟩

/-- A slot that the column takes is completed. -/
theorem exists_cellCompleted (hc : Schema.columnFault? c = none) (hslot : c.Takes slot) :
    ∃ w n' t', RowCompleted [c] n t [slot] [w] n' t' := by
  by_cases hauto : c.autoincrement = true
  · rw [Column.Takes, if_pos hauto] at hslot
    exact ⟨_, _, _, (rowCompleted_number hc hauto).2 ⟨hslot, rfl, rfl, rfl⟩⟩
  · have hauto : c.autoincrement = false := by simpa using hauto
    rw [Column.Takes, if_neg (by simp [hauto])] at hslot
    obtain ⟨v, w, hv, hw⟩ := hslot
    by_cases hnow : slot = none ∧ c.default = some .now
    · -- Any instant may have been supplied; the one that is taken is the next reading.
      obtain ⟨rfl, hnow⟩ := hnow
      have hstores : c.Stores (.timestamp t.read.1) (.timestamp t.read.1) :=
        (Column.stores_iff_of_type (by rw [Column.timestamp_of_fault? hc hnow]; rfl)).2 rfl
      have htimes : defaultTimes [c] [none] [.timestamp t.read.1] = [.timestamp t.read.1] :=
        if_pos ⟨rfl, hnow⟩
      refine ⟨_, n, t.read.2, (rowCompleted_value hauto).2 ⟨⟨_, .now _ hnow, hstores⟩, rfl, ?_⟩⟩
      rw [htimes]
      exact .cons (.nil _)
    · have htimes : defaultTimes [c] [slot] [w] = [] := if_neg hnow
      exact ⟨w, n, t, (rowCompleted_value hauto).2 ⟨⟨v, hv, hw⟩, rfl, htimes ▸ .nil t⟩⟩

/-- Slots that the columns take are completed. -/
theorem exists_rowCompleted (hcolumns : ∀ c ∈ columns, Schema.columnFault? c = none)
    (hslots : List.Forall₂ Column.Takes columns slots) :
    ∃ row n' t', RowCompleted columns n t slots row n' t' := by
  induction hslots generalizing n t with
  | nil => exact ⟨[], n, t, .nil, Numbering.handsOut_nil.2 rfl, .nil t⟩
  | @cons c slot columns slots hslot hslots ih =>
    obtain ⟨hc, hcolumns⟩ := List.forall_mem_cons.1 hcolumns
    obtain ⟨w, m, mid, hcell⟩ := exists_cellCompleted (n := n) (t := t) hc hslot
    obtain ⟨row, n', t', hcells⟩ := ih (n := m) (t := mid) hcolumns
    exact ⟨w :: row, n', t', rowCompleted_cons.2 ⟨m, mid, hcell, hcells⟩⟩

end Row

/-! ## Completing the rows of an insert -/

/-- What the rows of an insert are completed to, one after the other. -/
structure Completed (s : Schema) (n : Numbering) (t : Time.Clock)
    (slots : List (List (Option Value))) (rows : List Row) (n' : Numbering) (t' : Time.Clock) :
    Prop where
  cells : List.Forall₂ (Cells Column.Fills s.columns) slots rows
  numbers : n.HandsOut (rows.flatMap (numbersOf s.columns)) n'
  times : Readings t (List.zipWith (defaultTimes s.columns) slots rows).flatten t'

section Rows

variable {s : Schema} {n n' : Numbering} {t t' : Time.Clock} {slot : List (Option Value)}
  {slots : List (List (Option Value))} {row : Row} {rows : List Row}

/-- Rows are completed one after the other. -/
theorem completed_cons : Completed s n t (slot :: slots) (row :: rows) n' t' ↔
    ∃ m mid, RowCompleted s.columns n t slot row m mid ∧ Completed s m mid slots rows n' t' := by
  constructor
  · rintro ⟨_ | ⟨hrow, hrows⟩, hnumbers, htimes⟩
    rw [List.flatMap_cons, Numbering.handsOut_append] at hnumbers
    rw [List.zipWith_cons_cons, List.flatten_cons, Readings.append_iff] at htimes
    obtain ⟨m, hfirst, hnumbers⟩ := hnumbers
    obtain ⟨mid, htime, htimes⟩ := htimes
    exact ⟨m, mid, ⟨hrow, hfirst, htime⟩, hrows, hnumbers, htimes⟩
  · rintro ⟨m, mid, ⟨hrow, hfirst, htime⟩, hrows, hnumbers, htimes⟩
    refine ⟨.cons hrow hrows, ?_, ?_⟩
    · rw [List.flatMap_cons]
      exact Numbering.handsOut_append.2 ⟨m, hfirst, hnumbers⟩
    · rw [List.zipWith_cons_cons, List.flatten_cons]
      exact Readings.append_iff.2 ⟨mid, htime, htimes⟩

/-- **The rows of an insert** are completed one after the other. -/
theorem completeRows_iff (hs : ∀ c ∈ s.columns, Schema.columnFault? c = none) :
    Gives (completeRows s slots n) t (rows, n') t' ↔ Completed s n t slots rows n' t' := by
  induction slots generalizing n t rows with
  | nil =>
    constructor
    · intro h
      obtain ⟨h, rfl⟩ := gives_pure.1 h
      cases h
      exact ⟨.nil, Numbering.handsOut_nil.2 rfl, .nil t⟩
    · rintro ⟨⟨⟩, hnumbers, ⟨⟩⟩
      obtain rfl := Numbering.handsOut_nil.1 hnumbers
      exact gives_pure.2 ⟨rfl, rfl⟩
  | cons slot slots ih =>
    simp only [completeRows, gives_bind, gives_pure, Prod.exists, Prod.mk.injEq]
    constructor
    · rintro ⟨row, m, mid, hrow, rows, _, _, hrows, ⟨rfl, rfl⟩, rfl⟩
      exact completed_cons.2 ⟨m, mid, (completeRow_iff hs).1 hrow, ih.1 hrows⟩
    · intro h
      cases rows with
      | nil => cases h.cells
      | cons row rows =>
        obtain ⟨m, mid, hrow, hrows⟩ := completed_cons.1 h
        exact ⟨row, m, mid, (completeRow_iff hs).2 hrow, rows, n', t', ih.2 hrows, ⟨rfl, rfl⟩, rfl⟩

/-- Rows are completed when the columns take all their slots. -/
theorem exists_completed_iff (hs : ∀ c ∈ s.columns, Schema.columnFault? c = none) :
    (∃ rows n' t', Completed s n t slots rows n' t') ↔
      ∀ row ∈ slots, List.Forall₂ Column.Takes s.columns row := by
  constructor
  · rintro ⟨rows, n', t', hcells, -, -⟩
    induction hcells with
    | nil => exact fun _ h => nomatch h
    | @cons row stored _ _ hrow _ ih =>
      refine List.forall_mem_cons.2 ⟨?_, ih⟩
      exact (Cells.exists_iff.1 ⟨stored, hrow⟩).imp fun _ _ => Column.takes_iff.2
  · intro h
    induction slots generalizing n t with
    | nil => exact ⟨[], n, t, .nil, Numbering.handsOut_nil.2 rfl, .nil t⟩
    | cons row slots ih =>
      obtain ⟨hrow, h⟩ := List.forall_mem_cons.1 h
      obtain ⟨stored, m, mid, hstored⟩ := exists_rowCompleted (n := n) (t := t) hs hrow
      obtain ⟨rows, n', t', hrows⟩ := ih (n := m) (t := mid) h
      exact ⟨stored :: rows, n', t', completed_cons.2 ⟨m, mid, hstored, hrows⟩⟩

/-- Each autoincrement column of each row takes a number. -/
theorem Completed.length_numbers (h : Completed s n t slots rows n' t') :
    (rows.flatMap (numbersOf s.columns)).length =
      rows.length * s.columns.countP (·.autoincrement) := by
  have hrow : ∀ {columns : List Column} {slots : List (Option Value)} {row : Row},
      Cells Column.Fills columns slots row →
        (numbersOf columns row).length = columns.countP (·.autoincrement) := by
    intro columns slots row hcells
    induction hcells with
    | nil => rfl
    | @cons c _ w columns _ row hcell _ ih =>
      rw [numbersOf_cons, List.length_append, ih, List.countP_cons]
      cases hcell with
      | number hc _ k => simp [numbersOf, hc, Nat.add_comm]
      | value hc _ _ => cases w <;> simp [numbersOf, hc]
  have hcells := h.cells
  clear h
  induction hcells with
  | nil => exact (Nat.zero_mul _).symm
  | cons hfirst _ ih =>
    rw [List.flatMap_cons, List.length_append, ih, hrow hfirst, List.length_cons, Nat.succ_mul,
      Nat.add_comm]

end Rows

end Relation
end MiniSql
