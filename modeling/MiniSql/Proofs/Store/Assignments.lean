/-
# The assignments of an update

An `UPDATE` computes every assignment from the row as it was and puts the values into different
columns. So where no assignment reads the clock, their order does not matter
(`Mutation.concur_update`), whatever its predicate reads, and each assigned column that is not
stamped has what is assigned to it, as the column stores it and as that is kept
(`Relation.update_assigns`).

| step of an `UPDATE` | why the order does not matter |
| --- | --- |
| its targets | each is found by itself, and no two are the same |
| a new value | it is computed from the row as it was |
| the changed row | the values stand at different positions |
-/

import MiniSql.Proofs.Concur
import MiniSql.Proofs.Query.Matching
import MiniSql.Proofs.Store.Completed
import MiniSql.Proofs.Store.Update

namespace MiniSql

open Timed
open MiniSql.Relation (valueAt)

/-! ## What is assigned -/

/-- What an assignment to the column gives: the default of the column for `DEFAULT`, and otherwise
the value of the expression for the row, at all times. -/
inductive Column.Receives (c : Column) (labels : List String) (row : Row) :
    Expression → Value → Prop
  | default {v : Value} (h : c.Supplies none v) : c.Receives labels row .default v
  | value {e : Expression} {v : Value} (h : ∀ t, Gives (e.evaluate labels row) t v t) :
      c.Receives labels row e v

/-- The assignment does not read the clock, and neither does the default that it asks for. -/
def Schema.Untimed (s : Schema) (a : String × Expression) : Prop :=
  a.2.readsClock = false ∧
    (a.2 = .default → ∀ c ∈ s.columns, c.name = a.1 → c.default ≠ some .now)

/-- The second value is read from the column after the first has been put there: it is what the
column stores, as it is kept, and so what it stores itself if the first value round trips. -/
def Column.ReadsBack (c : Column) (v w : Value) : Prop :=
  ∃ stored, c.Stores v stored ∧ w = stored.kept ∧ (v.RoundTrips → w = stored)

/-- What a column stores is read back from it as it is kept. -/
theorem Column.Stores.readsBack {c : Column} {v w : Value} (h : c.Stores v w) :
    c.ReadsBack v w.kept :=
  ⟨w, h, rfl, fun hv => hv.coerce h.1⟩

/-- Every column of the second row that is assigned and not stamped has what is assigned to it from
the first row. -/
def Schema.Assigns (s : Schema) (assignments : List (String × Expression)) (row row' : Row) :
    Prop :=
  ∀ a ∈ assignments, ∀ (i : Nat) (c : Column), s.columns[i]? = some c → c.name = a.1 →
    c.onUpdate = false → ∃ v, c.Receives s.labels row a.2 v ∧ c.ReadsBack v (valueAt i row')

namespace Mutation

variable {s : Schema} {row : Row} {t t' : Time.Clock} {e : Expression} {i : Nat} {c : Column}

/-! ## The targets -/

/-- The assignment goes to the position, which is not that of an autoincrement column. -/
def Aims (s : Schema) (a : String × Expression) (d : Nat × Expression) : Prop :=
  s.columnIndex a.1 = .ok d.1 ∧ s.columns[d.1]?.any (·.autoincrement) = false ∧ d.2 = a.2

/-- A name is that of the column at its position. -/
theorem columnIndex_name {name : String} (h : s.columnIndex name = .ok i) :
    ∃ c, s.columns[i]? = some c ∧ c.name = name := by
  unfold Schema.columnIndex at h
  split at h
  · rename_i hk
    cases h
    obtain ⟨hlt, hname, -⟩ := List.findIdx?_eq_some_iff_getElem.1 hk
    exact ⟨s.columns[i], List.getElem?_eq_getElem hlt, by simpa using hname⟩
  · cases h

/-- Where no two columns have one name, each is found at its position. -/
theorem columnIndex_eq (hs : (s.columns.map (·.name)).Nodup) (hc : s.columns[i]? = some c) :
    s.columnIndex c.name = .ok i := by
  obtain ⟨hlt, rfl⟩ := List.getElem?_eq_some_iff.1 hc
  have hfound : (s.columns.findIdx? fun d => d.name == s.columns[i].name) = some i := by
    refine List.findIdx?_eq_some_iff_getElem.2 ⟨hlt, by simp, fun j hj => ?_⟩
    have hne := List.pairwise_iff_getElem.1 hs j i (by simp; omega) (by simpa using hlt) hj
    simpa using hne
  rw [Schema.columnIndex, hfound]

/-- **The targets** are found one by one, and they are different. -/
theorem targets_eq_ok {seen : List Nat} {assignments : List (String × Expression)}
    {assigned : List (Nat × Expression)} : targets s seen assignments = .ok assigned ↔
      List.Forall₂ (Aims s) assignments assigned ∧ (assigned.map (·.1)).Nodup ∧
        ∀ d ∈ assigned, d.1 ∉ seen := by
  -- The target of the first assignment is one that the others have seen.
  induction assignments generalizing seen assigned with
  | nil =>
    rw [targets, List.forall₂_nil_left_iff]
    constructor
    · intro h
      cases h
      exact ⟨rfl, .nil, fun _ h => nomatch h⟩
    · rintro ⟨rfl, -⟩
      rfl
  | cons a assignments ih =>
    obtain ⟨name, e⟩ := a
    rw [targets, Except.bind_eq_ok]
    constructor
    · rintro ⟨i, hi, h⟩
      split at h
      · cases h
      · rename_i hseen
        split at h
        · cases h
        · rename_i hother
          obtain ⟨rest, hrest, h⟩ := Except.bind_eq_ok.1 h
          cases h
          obtain ⟨haims, hnodup, hnew⟩ := ih.1 hrest
          refine ⟨.cons ⟨hi, by simpa using hother, rfl⟩ haims, ?_, ?_⟩
          · rw [List.map_cons, List.nodup_cons]
            refine ⟨fun hmem => ?_, hnodup⟩
            obtain ⟨d, hd, rfl⟩ := List.mem_map.1 hmem
            exact hnew d hd List.mem_cons_self
          · exact List.forall_mem_cons.2
              ⟨hseen, fun d hd hmem => hnew d hd (List.mem_cons_of_mem _ hmem)⟩
    · rintro ⟨haims, hnodup, hnew⟩
      cases haims with
      | @cons _ d _ rest hd hrest =>
        obtain ⟨hi, hother, rfl⟩ := hd
        obtain ⟨hseen, hnew⟩ := List.forall_mem_cons.1 hnew
        rw [List.map_cons, List.nodup_cons] at hnodup
        refine ⟨d.1, hi, ?_⟩
        rw [if_neg hseen, if_neg (by simp [hother]), Except.bind_eq_ok]
        refine ⟨rest, ih.2 ⟨hrest, hnodup.2, fun d' hd' hmem => ?_⟩, rfl⟩
        rcases List.mem_cons.1 hmem with heq | hmem
        · exact hnodup.1 (heq ▸ List.mem_map_of_mem hd')
        · exact hnew d' hd' hmem

/-- Rearranged assignments have the same targets, rearranged. -/
theorem targets_perm {assignments assignments' : List (String × Expression)}
    {assigned : List (Nat × Expression)} (h : assignments'.Perm assignments)
    (ht : targets s [] assignments = .ok assigned) :
    ∃ assigned', targets s [] assignments' = .ok assigned' ∧ assigned'.Perm assigned := by
  obtain ⟨haims, hnodup, -⟩ := targets_eq_ok.1 ht
  obtain ⟨assigned', haims', hperm⟩ := List.perm_comp_forall₂ h haims
  refine ⟨assigned', targets_eq_ok.2 ⟨haims', ?_, fun _ _ => List.not_mem_nil⟩, hperm⟩
  exact (hperm.map _).nodup_iff.2 hnodup

/-! ## The changed rows -/

/-- A new value does not depend on the time if its expression does not, nor the default that it is
to be. -/
theorem newValue_timeless (he : e.readsClock = false)
    (hdefault : e = .default → ∀ c, s.columns[i]? = some c → c.default ≠ some .now) :
    Timeless (newValue s row i e) := by
  unfold newValue
  split
  · rename_i c hc
    have hvalue : Timeless c.defaultValue? := by
      have hnow := hdefault rfl c hc
      unfold Column.defaultValue?
      split
      · exact .pure _
      · rename_i h
        exact absurd h hnow
      · exact .pure _
    refine hvalue.bind fun v => ?_
    split
    · exact .pure _
    · exact .refuse _
  · exact Expression.evaluate_timeless he

/-- **Assignments to different positions** may be made in any order. -/
theorem assign_perm {assigned assigned' : List (Nat × Expression)} (h : assigned'.Perm assigned)
    (hnodup : (assigned.map (·.1)).Nodup)
    (hstill : ∀ a ∈ assigned, Timeless (newValue s row a.1 a.2)) (changed : Row) :
    Concur (assign s row changed assigned') (assign s row changed assigned) := by
  induction h generalizing changed with
  | nil => exact .refl _
  | cons a h ih =>
    rw [List.map_cons, List.nodup_cons] at hnodup
    obtain ⟨-, hstill⟩ := List.forall_mem_cons.1 hstill
    exact (Concur.refl _).bind fun v => ih hnodup.2 hstill _
  | swap a b l =>
    have hne : b.1 ≠ a.1 := by
      rintro heq
      simp [heq] at hnodup
    obtain ⟨ha, hstill⟩ := List.forall_mem_cons.1 hstill
    obtain ⟨hb, -⟩ := List.forall_mem_cons.1 hstill
    have hexchange := hb.exchange ha fun v w => assign s row ((changed.set b.1 v).set a.1 w) l
    simp only [assign]
    refine hexchange.trans ?_
    refine (Concur.refl _).bind fun w => (Concur.refl _).bind fun v => ?_
    rw [List.set_comm _ _ hne]
    exact .refl _
  | trans _ h' ih ih' =>
    have hperm := h'.map Prod.fst
    exact (ih (hperm.nodup_iff.2 hnodup) (fun a ha => hstill a (h'.subset ha)) changed).trans
      (ih' hnodup hstill changed)

/-- **Assignments** to different columns may be made in any order. -/
theorem changes_perm {assigned assigned' : List (Nat × Expression)} (h : assigned'.Perm assigned)
    (hnodup : (assigned.map (·.1)).Nodup)
    (hstill : ∀ row, ∀ a ∈ assigned, Timeless (newValue s row a.1 a.2)) (p : Expression)
    (entries : List (Nat × Row)) :
    Concur (changes s p assigned' entries) (changes s p assigned entries) := by
  induction entries with
  | nil => exact .refl _
  | cons d entries ih =>
    obtain ⟨id, row⟩ := d
    simp only [changes]
    refine (Concur.refl _).bind fun found => ?_
    split
    · exact (assign_perm h hnodup (hstill row) row).bind fun _ => ih.bind fun _ => .refl _
    · exact ih

/-- New values of assignments without a clock are timeless. -/
theorem newValue_timeless_of_untimed {assignments : List (String × Expression)}
    {assigned : List (Nat × Expression)} (ht : targets s [] assignments = .ok assigned)
    (huntimed : ∀ a ∈ assignments, s.Untimed a) (row : Row) :
    ∀ d ∈ assigned, Timeless (newValue s row d.1 d.2) := by
  intro d hd
  obtain ⟨a, ha, hindex, -, hvalue⟩ := exists_mem_of_forall₂ (targets_eq_ok.1 ht).1 hd
  obtain ⟨hclock, hnow⟩ := huntimed a ha
  obtain ⟨c, hc, hname⟩ := columnIndex_name hindex
  rw [hvalue]
  refine newValue_timeless hclock fun hdefault c' hc' => ?_
  rw [hc] at hc'
  cases hc'
  exact hnow hdefault c (List.mem_of_getElem? hc) hname

/-- **The order of assignments does not matter** where none reads the clock. -/
theorem concur_update {r : Relation} {assignments assignments' : List (String × Expression)}
    (h : assignments'.Perm assignments) (huntimed : ∀ a ∈ assignments, r.schema.Untimed a)
    (p : Expression) : Concur (update r p assignments') (update r p assignments) := by
  unfold update
  cases ht : targets r.schema [] assignments with
  | ok assigned =>
    obtain ⟨assigned', ht', hperm⟩ := targets_perm h ht
    rw [ht']
    have hstill := newValue_timeless_of_untimed ht huntimed
    have hchanges := changes_perm hperm (targets_eq_ok.1 ht).2.1 hstill p r.scan
    exact hchanges.bind fun _ => .refl _
  | error x =>
    cases ht' : targets r.schema [] assignments' with
    | ok assigned' =>
      obtain ⟨_, hok, -⟩ := targets_perm h.symm ht'
      rw [ht] at hok
      cases hok
    | error x' =>
      exact (Concur.ofExcept fun _ => iff_of_false (by simp) (by simp)).bind fun _ => .refl _

/-! ## The new values -/

/-- A column receives the new value of its expression. -/
theorem receives_of_newValue {v : Value} (hc : s.columns[i]? = some c) (he : e.readsClock = false)
    (h : Gives (newValue s row i e) t v t') : c.Receives s.labels row e v := by
  unfold newValue at h
  split at h
  · rename_i c' hc'
    rw [hc] at hc'
    cases hc'
    obtain ⟨given, _, hgiven, h⟩ := gives_bind.1 h
    split at h
    · obtain ⟨rfl, -⟩ := gives_pure.1 h
      exact .default (Relation.gives_defaultValue?.1 hgiven).1
    · exact (not_gives_refuse h).elim
  · obtain ⟨x, hx⟩ : Timeless (Expression.evaluate s.labels row _) :=
      Expression.evaluate_timeless he
    rw [hx, gives_ofExcept] at h
    exact .value fun t => by rw [hx]; exact gives_ofExcept.2 ⟨h.1, rfl⟩

/-- An assigned position has the value that is computed for it. -/
theorem valueAt_assign_mem {changed new : Row} {assigned : List (Nat × Expression)}
    (hnodup : (assigned.map (·.1)).Nodup) (h : Gives (assign s row changed assigned) t new t')
    {d : Nat × Expression} (hd : d ∈ assigned) (hlt : d.1 < changed.length) :
    ∃ t₁ t₂, Gives (newValue s row d.1 d.2) t₁ (valueAt d.1 new) t₂ := by
  induction assigned generalizing changed t with
  | nil => cases hd
  | cons a assigned ih =>
    rw [List.map_cons, List.nodup_cons] at hnodup
    obtain ⟨v, mid, hv, h⟩ := gives_bind.1 h
    rcases List.mem_cons.1 hd with rfl | hd
    · have hothers : ∀ a ∈ assigned, a.1 ≠ d.1 := fun a ha heq =>
        hnodup.1 (heq ▸ List.mem_map_of_mem ha)
      rw [valueAt_assign hothers h, valueAt, List.getElem?_set_self hlt]
      exact ⟨t, mid, hv⟩
    · exact ih hnodup.2 h hd (by simpa using hlt)

end Mutation

/-! ## The relation that an update leaves -/

/-- The cell of a row at the position of a column. -/
theorem Cells.cell {α : Type} {R : Column → α → Value → Prop} {columns : List Column}
    {given : List α} {row : Row} {i : Nat} {c : Column} (h : Cells R columns given row)
    (hc : columns[i]? = some c) : ∃ a, given[i]? = some a ∧ R c a (valueAt i row) := by
  induction h generalizing i with
  | nil => simp at hc
  | cons hcell _ ih =>
    cases i with
    | zero =>
      cases hc
      exact ⟨_, rfl, hcell⟩
    | succ i => exact ih hc

namespace Relation

variable {r r' : Relation} {t t' : Time.Clock} {n : Nat}

/-- A column that is not stamped stores what the changed row has there. -/
theorem readsBack_of_change {new : Row} {id i : Nat} {d : Nat × Row} {c : Column}
    (h : Gives (r.change id new) t d t') (hi : r.schema.columns[i]? = some c)
    (hc : c.onUpdate = false) : c.ReadsBack (valueAt i new) (valueAt i (Record.kept d.2)) := by
  obtain ⟨-, -, hcells, -⟩ := (gives_change_iff (e := (id, new))).1 h
  obtain ⟨v, hv, hcell⟩ := hcells.cell hi
  have hvalue : valueAt i new = v := by rw [valueAt, hv, Option.getD_some]
  rw [hvalue, Record.valueAt_kept]
  generalize valueAt i d.2 = w at hcell ⊢
  cases hcell with
  | kept _ hw => exact hw.readsBack
  | stamped hc' _ _ =>
    rw [hc] at hc'
    cases hc'

/-- **Every row that an `UPDATE` finds** stays under its id with what is assigned to it. -/
theorem update_assigns {p : Expression} {assignments : List (String × Expression)}
    (hr : r.WellTyped) (huntimed : ∀ a ∈ assignments, r.schema.Untimed a)
    (h : Gives (Mutation.update r p assignments) t (r', n) t') :
    ∃ assigned found mid, Mutation.targets r.schema [] assignments = .ok assigned ∧
      Mutation.Hits r.schema p assigned t r.scan found mid ∧ n = found.length ∧
      ∀ e ∈ r.scan, e.1 ∈ found.map (·.1) →
        ∃ e' ∈ r'.scan, e'.1 = e.1 ∧ r.schema.Assigns assignments e.2 e'.2 := by
  obtain ⟨assigned, changed, mid, htargets, hchanged, h⟩ := Mutation.gives_update.1 h
  obtain ⟨stored, hstored, -, rfl, rfl⟩ := gives_update.1 h
  have hhits := Mutation.hits_of_changes hchanged
  have hfilter := filter_stored hstored hhits.sublist
  refine ⟨assigned, changed, mid, htargets, hhits, hstored.mapM.length_eq.symm, ?_⟩
  intro e he hid
  obtain ⟨-, hids⟩ := scan_update hstored
  rw [← hids] at hid
  obtain ⟨d, hd, hsame⟩ := List.mem_map.1 hid
  obtain ⟨f, hf, _, _, hchange⟩ := exists_mem_of_forall₂ hstored.mapM hd
  obtain ⟨row, hrow, _, _, hassign⟩ := Mutation.mem_changes hchanged f hf
  have hfd : f.1 = d.1 := by
    obtain ⟨-, _, _, -, -, rfl⟩ := gives_change.1 hchange
    rfl
  obtain rfl : (f.1, row) = e := SortedMap.entry_unique hrow he (hfd.trans hsame)
  have hplace : keptAt d ∈ (stored.foldl put r).scan := by
    have hkept : keptAt d ∈ stored.map keptAt := List.mem_map_of_mem hd
    rw [← hfilter] at hkept
    exact (List.mem_filter.1 hkept).1
  refine ⟨keptAt d, hplace, hsame, fun a ha i c hi hname hc => ?_⟩
  obtain ⟨haims, hnodup, -⟩ := Mutation.targets_eq_ok.1 htargets
  obtain ⟨b, hb, hindex, -, hvalue⟩ := exists_mem_of_forall₂ haims.flip ha
  obtain rfl : i = b.1 := by
    rw [← hname, Mutation.columnIndex_eq hr.schema.names_nodup hi] at hindex
    exact Except.ok.inj hindex
  have hlt : b.1 < row.length := by
    rw [(hr.rows _ hrow).length_eq.symm]
    exact (List.getElem?_eq_some_iff.1 hi).1
  obtain ⟨_, _, hnew⟩ := Mutation.valueAt_assign_mem hnodup hassign hb hlt
  rw [hvalue] at hnew
  exact ⟨_, Mutation.receives_of_newValue hi (huntimed a ha).1 hnew,
    readsBack_of_change hchange hi hc⟩

end Relation
end MiniSql
