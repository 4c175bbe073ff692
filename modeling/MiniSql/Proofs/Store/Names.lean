/-
# The names of an `UPDATE` and of a `DELETE`

What an `UPDATE` assigns to is found once, before it looks at a row (`Mutation.targets_ok_iff`). The
names in its predicate are resolved for each row that it comes to, and those in the values that it
assigns for each row of which the predicate holds (`Mutation.Evaluates`). So it is refused for a
reference exactly where one of these evaluations is (`Mutation.fails_update`). A `DELETE` has the
predicate alone (`Mutation.fails_delete`).
-/

import MiniSql.Proofs.Query.Reaches
import MiniSql.Proofs.Store.Assignments
import MiniSql.Proofs.Store.Refused

namespace MiniSql

open Error Timed

/-- What is assigned to are columns of the table, none that it numbers and none twice. -/
structure Schema.Assignable (s : Schema) (assignments : List (String × Expression)) : Prop where
  there : ∀ a ∈ assignments, ∃ c ∈ s.columns, c.name = a.1 ∧ c.autoincrement = false
  once : (assignments.map (·.1)).Nodup

namespace Mutation

variable {s : Schema} {row : Row} {t t' now : Time.Clock} {e p : Expression} {x : Error}
  {c : ColumnRef} {assignments : List (String × Expression)} {assigned : List (Nat × Expression)}
  {entries : List (Nat × Row)} {r : Relation}

/-! ## What is looked up once -/

/-- **An `UPDATE` finds its targets** exactly if they can be assigned to. -/
theorem targets_ok_iff (hs : (s.columns.map (·.name)).Nodup) :
    (∃ assigned, targets s [] assignments = .ok assigned) ↔ s.Assignable assignments := by
  constructor
  · rintro ⟨assigned, h⟩
    obtain ⟨haims, hnodup, -⟩ := targets_eq_ok.1 h
    refine ⟨fun a ha => ?_, ?_⟩
    · obtain ⟨d, hd, hindex, hother, -⟩ := exists_mem_of_forall₂ haims.flip ha
      obtain ⟨column, hcolumn, hname⟩ := columnIndex_name hindex
      rw [hcolumn] at hother
      exact ⟨column, List.mem_of_getElem? hcolumn, hname, hother⟩
    · -- Names that are equal have equal positions.
      have hpositions : (assignments.map (·.1)).map s.columnIndex =
          (assigned.map (·.1)).map .ok := by
        rw [List.map_map, List.map_map, ← List.forall₂_eq_eq_eq, List.forall₂_map_left_iff,
          List.forall₂_map_right_iff]
        exact haims.imp fun a d h => h.1
      refine List.Nodup.of_map s.columnIndex ?_
      rw [hpositions]
      exact hnodup.map fun i j h => Except.ok.inj h
  · rintro ⟨hthere, honce⟩
    have haim : ∀ a ∈ assignments, ∃ d, Aims s a d := by
      intro a ha
      obtain ⟨column, hcolumn, hname, hother⟩ := hthere a ha
      obtain ⟨i, hi⟩ := List.getElem?_of_mem hcolumn
      exact ⟨(i, a.2), hname ▸ columnIndex_eq hs hi, by simp [hi, hother], rfl⟩
    have hsome : Nonempty (Nat × Expression) := ⟨(0, .default)⟩
    choose! aim haim using haim
    refine ⟨assignments.map aim, targets_eq_ok.2 ⟨?_, ?_, fun _ _ => List.not_mem_nil⟩⟩
    · rw [List.forall₂_map_right_iff, List.forall₂_same]
      exact haim
    · rw [List.map_map]
      refine List.pairwise_map.2 ?_
      refine (List.pairwise_map.1 honce).imp_of_mem fun {a b} ha hb hne heq => hne ?_
      obtain ⟨_, hcolumn, hname⟩ := columnIndex_name (haim a ha).1
      obtain ⟨_, hcolumn', hname'⟩ := columnIndex_name (haim b hb).1
      rw [show (aim a).1 = (aim b).1 from heq, hcolumn'] at hcolumn
      cases hcolumn
      exact hname.symm.trans hname'

/-- A target is refused as a matter of the schema, or because the table numbers it. -/
theorem targets_error {seen : List Nat} (h : targets s seen assignments = .error x) :
    (∃ cause, x = .schema cause) ∨
      ∃ column ∈ s.columns, column.autoincrement = true ∧ column.name ∈ assignments.map (·.1) ∧
        x = .constraint (.autoincrement column.name) := by
  induction assignments generalizing seen with
  | nil => cases h
  | cons a assignments ih =>
    obtain ⟨name, e⟩ := a
    rw [targets] at h
    rcases Except.bind_eq_error.1 h with h | ⟨i, hi, h⟩
    · unfold Schema.columnIndex at h
      split at h
      · cases h
      · cases h
        exact .inl ⟨_, rfl⟩
    · obtain ⟨column, hcolumn, rfl⟩ := columnIndex_name hi
      split at h
      · cases h
        exact .inl ⟨_, rfl⟩
      · split at h
        · rename_i hnumbered
          cases h
          rw [hcolumn] at hnumbered
          exact .inr ⟨column, List.mem_of_getElem? hcolumn, hnumbered, List.mem_cons_self, rfl⟩
        · rcases Except.bind_eq_error.1 h with h | ⟨_, -, h⟩
          · refine (ih h).imp_right ?_
            rintro ⟨other, hother, hnumbered, hmem, rfl⟩
            exact ⟨other, hother, hnumbered, List.mem_cons_of_mem _ hmem, rfl⟩
          · cases h

/-! ## What is resolved for each row -/

/-- A row with its id after an `UPDATE`, if the predicate holds of it. -/
def changeEntry (s : Schema) (p : Expression) (assigned : List (Nat × Expression))
    (d : Nat × Row) : Timed (Option (Nat × Row)) := do
  if ← p.holds s.labels d.2 then return some (d.1, ← assign s d.2 d.2 assigned)
  else return none

/-- An `UPDATE`, started at `t`, comes to evaluating the expression for the row at `now`: its
predicate for every row, and the values that it assigns for a row of which the predicate holds. -/
inductive Evaluates (s : Schema) (p : Expression) (assigned : List (Nat × Expression))
    (entries : List (Nat × Row)) (t : Time.Clock) : Expression → Row → Time.Clock → Prop
  | predicate {d : Nat × Row} {now : Time.Clock}
      (h : Comes (changeEntry s p assigned) entries t d now) :
      Evaluates s p assigned entries t p d.2 now
  | value {d : Nat × Row} {a : Nat × Expression} {mid mid' now : Time.Clock}
      (h : Comes (changeEntry s p assigned) entries t d mid)
      (hp : Gives (p.holds s.labels d.2) mid true mid')
      (ha : Comes (fun a => newValue s d.2 a.1 a.2) assigned mid' a now) :
      Evaluates s p assigned entries t a.2 d.2 now

/-- The assignments to a row are a pass over them. -/
theorem fails_assign {changed : Row} : Fails (assign s row changed assigned) t x ↔
    ∃ a now, Comes (fun a => newValue s row a.1 a.2) assigned t a now ∧
      Fails (newValue s row a.1 a.2) now x := by
  rw [← fails_mapM]
  induction assigned generalizing changed t with
  | nil =>
    rw [List.mapM_nil]
    exact iff_of_false not_fails_pure not_fails_pure
  | cons a assigned ih =>
    simp only [assign, List.mapM_cons, fails_bind, not_fails_pure, and_false, exists_false,
      or_false, ih]

/-- The changes are a pass over the rows. -/
theorem changes_eq : changes s p assigned entries =
    (do return (← entries.mapM (changeEntry s p assigned)).filterMap id) := by
  induction entries with
  | nil => rfl
  | cons d entries ih =>
    simp only [changes, changeEntry, List.mapM_cons, ih, bind_assoc, pure_bind]
    refine bind_congr fun b => ?_
    cases b <;> simp

/-- A value is refused for a reference where its expression is: a default has none. -/
theorem fails_newValue {i : Nat} (hx : x.OfReference c) :
    Fails (newValue s row i e) t x ↔ Fails (e.evaluate s.labels row) t x := by
  unfold newValue
  split
  · have hnone : Within OfValues (Expression.default.evaluate s.labels row) :=
      .refuse (.schema nofun nofun nofun)
    refine iff_of_false ?_ fun ⟨_, h⟩ => (hnone _ _ _ h).not_reference c hx
    rintro ⟨t', h⟩
    refine OfValues.not_reference ?_ c hx
    refine (Column.defaultValue?_within _).bind (fun v => ?_) _ _ _ h
    split
    · exact .pure _
    · exact .refuse (.constraint _)
  · exact Iff.rfl

/-- **An `UPDATE` is refused for a reference** where an expression is that it comes to. -/
theorem fails_update (htargets : targets r.schema [] assignments = .ok assigned)
    (hx : x.OfReference c) : Fails (update r p assignments) t x ↔
      ∃ e row now, Evaluates r.schema p assigned r.scan t e row now ∧
        Fails (e.evaluate r.schema.labels row) now x := by
  have hstored {changed : List (Nat × Row)} {mid : Time.Clock} :
      ¬Fails (r.update changed) mid x := fun ⟨_, h⟩ =>
    (r.update_within changed _ _ _ h).not_reference c hx
  have hpass : Fails (update r p assignments) t x ↔
      Fails (changes r.schema p assigned r.scan) t x := by
    rw [update, htargets]
    show Fails (do r.update (← changes r.schema p assigned r.scan)) t x ↔ _
    simp [fails_bind, hstored]
  rw [hpass, changes_eq, fails_bind]
  simp only [not_fails_pure, and_false, exists_false, or_false, fails_mapM]
  constructor
  · rintro ⟨d, mid, hcomes, h⟩
    rcases fails_bind.1 h with h | ⟨b, mid', hp, h⟩
    · exact ⟨p, d.2, mid, .predicate hcomes, Expression.fails_holds.1 h⟩
    · cases b with
      | false => exact absurd h not_fails_pure
      | true =>
        obtain ⟨a, now, ha, h⟩ := fails_assign.1 (fails_bind_pure.1 h)
        exact ⟨a.2, d.2, now, .value hcomes hp ha, (fails_newValue hx).1 h⟩
  · rintro ⟨e, row, now, hcomes | ⟨hcomes, hp, ha⟩, h⟩
    · exact ⟨_, now, hcomes, fails_bind.2 (.inl (Expression.fails_holds.2 h))⟩
    · refine ⟨_, _, hcomes, fails_bind.2 (.inr ⟨true, _, hp, ?_⟩)⟩
      exact fails_bind_pure.2 (fails_assign.2 ⟨_, now, ha, (fails_newValue hx).2 h⟩)

/-- What an `UPDATE` comes to is its predicate, or a value that it assigns. -/
theorem Evaluates.mem (htargets : targets s [] assignments = .ok assigned)
    (h : Evaluates s p assigned entries t e row now) :
    e = p ∨ e ∈ assignments.map (·.2) := by
  cases h with
  | predicate => exact .inl rfl
  | value hcomes hp ha =>
    obtain ⟨a, hmem, -, -, hvalue⟩ := exists_mem_of_forall₂ (targets_eq_ok.1 htargets).1 ha.mem
    exact .inr (hvalue ▸ List.mem_map_of_mem hmem)

/-- Where there are no rows an `UPDATE` is carried out, if its targets can be assigned to. -/
theorem gives_update_empty (htargets : targets r.schema [] assignments = .ok assigned)
    (hrows : r.scan = []) : ∃ r' n, Gives (update r p assignments) t (r', n) t := by
  have hunique : r.checkUnique [] [] = .ok () := by
    unfold Relation.checkUnique
    split <;> rfl
  have hstored : Gives (r.update []) t (r, 0) t :=
    Relation.gives_update.2 ⟨[], gives_pure.2 ⟨rfl, rfl⟩, hunique, rfl, rfl⟩
  refine ⟨r, 0, ?_⟩
  rw [update, htargets, hrows]
  exact hstored

/-- **A `DELETE` is refused** where its predicate is for a row that it comes to. -/
theorem fails_delete : Fails (delete r p) t x ↔
    ∃ row now, Comes (p.holds r.schema.labels) (r.scan.map (·.2)) t row now ∧
      Fails (p.evaluate r.schema.labels row) now x := by
  have hmatching : Fails (matching r.schema p r.scan) t x ↔
      Fails (Rowset.keep (p.holds r.schema.labels) (r.scan.map (·.2))) t x :=
    exists_congr fun _ => refuses_matching
  rw [delete, fails_bind, hmatching, Rowset.fails_keep]
  simp only [not_fails_pure, and_false, exists_false, or_false, Expression.fails_holds]

end Mutation
end MiniSql
