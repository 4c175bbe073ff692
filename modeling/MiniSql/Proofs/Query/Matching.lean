/-
# The rows of which a predicate holds

A query keeps rows, a `DELETE` gathers ids and an `UPDATE` computes changed rows, each in a pass of
its own. Where the predicate does not read the clock it says the same of a row at all times
(`Expression.gives_holds`), so the three passes find the same rows: those that it picks.
-/

import MiniSql.Proofs.Query.Width
import MiniSql.Proofs.Store.Mutation
import MiniSql.Proofs.Store.Rows

namespace MiniSql

open Timed

/-! ## Predicates that do not read the clock -/

namespace Expression

variable {e : Expression} {labels : List String} {row : Row} {t t' : Time.Clock}

/-- The expression asks for the current time. -/
def readsClock : Expression → Bool
  | constant _ => false
  | field _ => false
  | currentTime => true
  | default => false
  | compare _ left right => left.readsClock || right.readsClock
  | isNull operand _ => operand.readsClock
  | and left right => left.readsClock || right.readsClock
  | or left right => left.readsClock || right.readsClock

/-- What the expression says of a row at the first instant. -/
def truth (e : Expression) (labels : List String) (row : Row) : Except Error Bool :=
  ((e.holds labels row).run.run ⟨0, []⟩).1

/-- The expression has a value for the row, and it is true. -/
def picks (e : Expression) (labels : List String) (row : Row) : Bool :=
  match e.truth labels row with
  | .ok b => b
  | .error _ => false

/-- A predicate picks a row where it is true. -/
theorem picks_eq {b : Bool} (h : e.truth labels row = .ok b) : e.picks labels row = b := by
  rw [picks, h]

/-- An expression that reads no clock is timeless. -/
theorem evaluate_timeless (h : e.readsClock = false) : Timeless (e.evaluate labels row) := by
  induction e with
  | constant v => exact .pure v
  | field c => exact .ofExcept _
  | currentTime => cases h
  | default => exact .refuse _
  | compare sign left right ihl ihr =>
    obtain ⟨hl, hr⟩ := Bool.or_eq_false_iff.1 h
    exact (ihl hl).bind fun a => (ihr hr).bind fun b => .pure _
  | isNull operand negated ih => exact (ih h).bind fun v => .pure _
  | and left right ihl ihr =>
    obtain ⟨hl, hr⟩ := Bool.or_eq_false_iff.1 h
    refine (ihl hl).bind fun a => ?_
    split
    · exact (ihr hr).bind fun b => .pure _
    · exact .pure _
  | or left right ihl ihr =>
    obtain ⟨hl, hr⟩ := Bool.or_eq_false_iff.1 h
    refine (ihl hl).bind fun a => ?_
    split
    · exact .pure _
    · exact (ihr hr).bind fun b => .pure _

/-- **A predicate that does not ask for the time** says the same of a row at all times. -/
theorem gives_holds (h : e.readsClock = false) {b : Bool} :
    Gives (e.holds labels row) t b t' ↔ e.truth labels row = .ok b ∧ t = t' := by
  have htimeless : Timeless (e.holds labels row) := (evaluate_timeless h).bind fun v => .pure _
  rw [htimeless.eq_ofExcept, gives_ofExcept]
  rfl

/-- The expression has a value for every row. -/
def Decides (e : Expression) (labels : List String) (rows : List Row) : Prop :=
  ∀ row ∈ rows, ∃ b, e.truth labels row = .ok b

/-- A predicate decides rows if it decides each one. -/
theorem decides_cons {rows : List Row} : e.Decides labels (row :: rows) ↔
    (∃ b, e.truth labels row = .ok b) ∧ e.Decides labels rows := List.forall_mem_cons

end Expression

/-! ## The three passes -/

variable {e : Expression} {labels : List String} {s : Schema} {rows : List Row}
  {entries : List (Nat × Row)} {t t' : Time.Clock}

/-- **A query** keeps the rows that the predicate picks. -/
theorem Rowset.gives_keep (h : e.readsClock = false) {kept : List Row} :
    Gives (keep (e.holds labels) rows) t kept t' ↔
      e.Decides labels rows ∧ kept = rows.filter (e.picks labels) ∧ t = t' := by
  induction rows generalizing kept t t' with
  | nil => simp [keep, Expression.Decides, eq_comm]
  | cons row rows ih =>
    simp only [keep, gives_bind, Expression.gives_holds h, ih, gives_pure]
    rw [Expression.decides_cons]
    constructor
    · rintro ⟨b, _, ⟨hb, rfl⟩, _, _, ⟨hrest, rfl, rfl⟩, rfl, rfl⟩
      refine ⟨⟨⟨b, hb⟩, hrest⟩, ?_, rfl⟩
      rw [List.filter_cons, Expression.picks_eq hb]
    · rintro ⟨⟨⟨b, hb⟩, hrest⟩, rfl, rfl⟩
      refine ⟨b, t, ⟨hb, rfl⟩, _, t, ⟨hrest, rfl, rfl⟩, ?_, rfl⟩
      rw [List.filter_cons, Expression.picks_eq hb]

namespace Mutation

/-- **A `DELETE`** gathers the ids of the rows that the predicate picks. -/
theorem gives_matching (h : e.readsClock = false) {ids : List Nat} :
    Gives (matching s e entries) t ids t' ↔ e.Decides s.labels (entries.map (·.2)) ∧
      ids = (entries.filter fun d => e.picks s.labels d.2).map (·.1) ∧ t = t' := by
  induction entries generalizing ids t t' with
  | nil => simp [matching, Expression.Decides, eq_comm]
  | cons d entries ih =>
    simp only [matching, gives_bind, Expression.gives_holds h, ih, gives_pure]
    rw [List.map_cons, Expression.decides_cons]
    constructor
    · rintro ⟨b, _, ⟨hb, rfl⟩, _, _, ⟨hrest, rfl, rfl⟩, rfl, rfl⟩
      refine ⟨⟨⟨b, hb⟩, hrest⟩, ?_, rfl⟩
      rw [List.filter_cons, Expression.picks_eq hb]
      cases b <;> rfl
    · rintro ⟨⟨⟨b, hb⟩, hrest⟩, rfl, rfl⟩
      refine ⟨b, t, ⟨hb, rfl⟩, _, t, ⟨hrest, rfl, rfl⟩, ?_, rfl⟩
      rw [List.filter_cons, Expression.picks_eq hb]
      cases b <;> rfl

/-- **An `UPDATE`** changes the rows that the predicate picks. -/
theorem changes_picked (h : e.readsClock = false) {assigned : List (Nat × Expression)}
    {changed : List (Nat × Row)} (hchanged : Gives (changes s e assigned entries) t changed t') :
    e.Decides s.labels (entries.map (·.2)) ∧
      changed.map (·.1) = (entries.filter fun d => e.picks s.labels d.2).map (·.1) := by
  induction entries generalizing t changed t' with
  | nil =>
    obtain ⟨rfl, -⟩ := gives_pure.1 hchanged
    exact ⟨fun _ hrow => (nomatch hrow), rfl⟩
  | cons d entries ih =>
    simp only [changes, gives_bind, Expression.gives_holds h] at hchanged
    obtain ⟨b, _, ⟨hb, rfl⟩, hchanged⟩ := hchanged
    rw [List.map_cons, Expression.decides_cons, List.filter_cons, Expression.picks_eq hb]
    cases b with
    | true =>
      simp only [if_pos, gives_bind, gives_pure] at hchanged
      obtain ⟨row, _, -, rest, _, hrest, rfl, -⟩ := hchanged
      obtain ⟨hdecides, hids⟩ := ih hrest
      exact ⟨⟨⟨true, hb⟩, hdecides⟩, by rw [List.map_cons, hids]; rfl⟩
    | false =>
      obtain ⟨hdecides, hids⟩ := ih hchanged
      exact ⟨⟨⟨false, hb⟩, hdecides⟩, hids⟩

/-- Where a query is refused at a row a `DELETE` is, with the same error. -/
theorem refuses_matching {x : Error} :
    Refuses (matching s e entries) t x t' ↔
      Refuses (Rowset.keep (e.holds s.labels) (entries.map (·.2))) t x t' := by
  induction entries generalizing t with
  | nil => simp [matching, Rowset.keep]
  | cons d entries ih =>
    simp only [matching, Rowset.keep, List.map_cons, refuses_bind, ih, not_refuses_pure, and_false,
      exists_false, or_false]

end Mutation

/-! ## What a change leaves -/

namespace Relation

/-- The second relation has exactly the other rows, where they were, and its counters stand where
they stood. -/
structure Without (r : Relation) (rows : List Row) (r' : Relation) : Prop where
  scan : r'.scan = r.scan.filter fun d => d.2 ∉ rows
  schema : r'.schema = r.schema
  nextId : r'.nextId = r.nextId
  nextNumber : r'.nextNumber = r.nextNumber

/-- The second relation has all ids, where they were, and all other rows as they were. -/
structure ChangedIn (r : Relation) (rows : List Row) (r' : Relation) : Prop where
  ids : r'.scan.map (·.1) = r.scan.map (·.1)
  others : ∀ d ∈ r.scan, d.2 ∉ rows → d ∈ r'.scan

/-- The rows of which a predicate holds, as a query keeps them. -/
abbrev select (r : Relation) (e : Expression) : Timed (List Row) :=
  Rowset.keep (e.holds r.schema.labels) (r.scan.map (·.2))

variable {r r' : Relation} {kept : List Row}

/-- A row is kept if the predicate picks it. -/
theorem mem_kept (hkept : kept = (r.scan.map (·.2)).filter (e.picks labels)) {d : Nat × Row}
    (hd : d ∈ r.scan) : d.2 ∈ kept ↔ e.picks labels d.2 = true := by
  rw [hkept, List.mem_filter]
  exact and_iff_right (List.mem_map_of_mem hd)

/-- What is kept are rows of the relation, in order. -/
theorem kept_eq_filter (hkept : kept = (r.scan.map (·.2)).filter (e.picks labels)) :
    kept = (r.scan.map (·.2)).filter (· ∈ kept) := by
  refine hkept.trans (List.filter_congr fun row hrow => ?_)
  obtain ⟨d, hd, rfl⟩ := List.mem_map.1 hrow
  rw [Bool.eq_iff_iff, decide_eq_true_iff, mem_kept hkept hd]

/-- The ids of picked rows are those of no other rows. -/
theorem mem_pickedIds {d : Nat × Row} (hd : d ∈ r.scan) :
    d.1 ∈ (r.scan.filter fun d => e.picks labels d.2).map (·.1) ↔ e.picks labels d.2 = true := by
  constructor
  · intro h
    obtain ⟨d', hd', hid⟩ := List.mem_map.1 h
    obtain ⟨hmem, hpicked⟩ := List.mem_filter.1 hd'
    rwa [SortedMap.entry_unique hmem hd hid] at hpicked
  · exact fun h => List.mem_map_of_mem (List.mem_filter.2 ⟨hd, h⟩)

/-- As many rows are picked as kept. -/
theorem length_pickedIds (hkept : kept = (r.scan.map (·.2)).filter (e.picks labels)) :
    ((r.scan.filter fun d => e.picks labels d.2).map (·.1)).length = kept.length := by
  rw [hkept, List.filter_map, List.length_map, List.length_map]
  rfl

/-- **What a query keeps a `DELETE` deletes**, and nothing else. -/
theorem delete_without (h : e.readsClock = false)
    (hkept : Gives (r.select e) t kept t') :
    ∃ r', Gives (Mutation.delete r e) t (r', kept.length) t ∧ r.Without kept r' := by
  obtain ⟨hdecides, hrows, -⟩ := (Rowset.gives_keep h).1 hkept
  let ids := (r.scan.filter fun d => e.picks r.schema.labels d.2).map (·.1)
  have hnodup : ids.Nodup := nodup_ids.sublist (List.filter_sublist.map _)
  have hstored : ∀ id ∈ ids, r.rows.contains id = true := by
    intro id hid
    obtain ⟨d, hd, rfl⟩ := List.mem_map.1 hid
    exact contains_of_mem_scan (List.mem_filter.1 hd).1
  have hcount : (r.delete ids).2 = kept.length := by
    rw [snd_delete hnodup hstored, length_pickedIds hrows]
  refine ⟨(r.delete ids).1, Mutation.gives_delete.2 ⟨ids, ?_, Prod.ext rfl hcount⟩, ?_⟩
  · exact (Mutation.gives_matching h).2 ⟨hdecides, rfl, rfl⟩
  · refine ⟨?_, schema_delete, counters_delete.1, counters_delete.2⟩
    rw [scan_delete]
    refine List.filter_congr fun d hd => ?_
    rw [decide_eq_decide, mem_pickedIds hd, mem_kept hrows hd]

/-- The rows that are left are as wide as they were. -/
theorem Without.rectangular {rows : List Row} (hr : r.Without rows r')
    (h : r.rowset.Rectangular) : r'.rowset.Rectangular := by
  intro row hrow
  obtain ⟨d, hd, rfl⟩ := List.mem_map.1 hrow
  rw [hr.scan] at hd
  show d.2.length = r'.schema.labels.length
  rw [hr.schema]
  exact h d.2 (List.mem_map_of_mem (List.mem_filter.1 hd).1)

/-- A query keeps none of the rows that are left. -/
theorem Without.keeps_nothing (h : e.readsClock = false) (hr : r.Without kept r')
    (hkept : Gives (r.select e) t kept t') :
    Gives (r'.select e) t [] t := by
  obtain ⟨hdecides, hrows, -⟩ := (Rowset.gives_keep h).1 hkept
  have hleft : ∀ row ∈ r'.scan.map (·.2), ∃ d ∈ r.scan, d.2 = row ∧ d.2 ∉ kept := by
    intro row hrow
    obtain ⟨d, hd, rfl⟩ := List.mem_map.1 hrow
    rw [hr.scan, List.mem_filter, decide_eq_true_iff] at hd
    exact ⟨d, hd.1, rfl, hd.2⟩
  rw [select, hr.schema, Rowset.gives_keep h]
  refine ⟨fun row hrow => ?_, (List.filter_eq_nil_iff.2 fun row hrow => ?_).symm, rfl⟩
  · obtain ⟨d, hd, rfl, -⟩ := hleft row hrow
    exact hdecides d.2 (List.mem_map_of_mem hd)
  · obtain ⟨d, hd, rfl, hother⟩ := hleft row hrow
    rwa [mem_kept hrows hd] at hother

/-- **What a query keeps an `UPDATE` changes**, and nothing else. -/
theorem update_changedIn (h : e.readsClock = false) {assignments : List (String × Expression)}
    {n : Nat} (hupdate : Gives (Mutation.update r e assignments) t (r', n) t') :
    ∃ kept, Gives (r.select e) t kept t ∧ n = kept.length ∧ r.ChangedIn kept r' := by
  obtain ⟨assigned, changed, mid, -, hchanged, hupdate⟩ := Mutation.gives_update.1 hupdate
  obtain ⟨hdecides, hpicked⟩ := Mutation.changes_picked h hchanged
  obtain ⟨stored, hstored, -, rfl, rfl⟩ := gives_update.1 hupdate
  obtain ⟨hscan, hids⟩ := scan_update hstored
  rw [hpicked] at hids
  refine ⟨_, (Rowset.gives_keep h).2 ⟨hdecides, rfl, rfl⟩, ?_, ?_, fun d hd hother => ?_⟩
  · rw [← length_pickedIds rfl, ← hids, List.length_map]
  · rw [hscan, map_fst_replaced]
  · have hplace : replaced (stored.map keptAt) d ∈ (stored.foldl put r).scan :=
      hscan ▸ List.mem_map_of_mem hd
    rw [mem_kept rfl hd] at hother
    rcases replaced_cases (stored.map keptAt) d with hmem | ⟨heq, -⟩
    · have hid := List.mem_map_of_mem (f := Prod.fst) hmem
      rw [fst_replaced, map_fst_keptAt, hids, mem_pickedIds hd] at hid
      exact absurd hid hother
    · rwa [heq] at hplace

end Relation
end MiniSql
