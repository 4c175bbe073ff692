/-
# What a statement computes of a table

A statement changes a relation by what it computes from the rows as they were. `Mutation.Step` lists
the ways; each is a change of the relation (`Mutation.Step.relation`), but not every change is one:
an `UPDATE` replaces rows that it has passed over, after assignments to columns that it may assign.
-/

import MiniSql.Mutation
import MiniSql.Proofs.Store.Change

namespace MiniSql
namespace Mutation

open Timed

variable {r r' : Relation} {s : Schema} {t t' : Time.Clock}

/-- One change of a table, as a statement computes it. -/
inductive Step (r : Relation) : Relation → Prop
  | insert {columns rows r' stored t t'} (h : Gives (insert r columns rows) t (r', stored) t') :
      Step r r'
  | update {p assignments r' n t t'} (h : Gives (update r p assignments) t (r', n) t') : Step r r'
  | delete {p r' n t t'} (h : Gives (delete r p) t (r', n) t') : Step r r'
  | truncate : Step r r.truncate.1

/-- An `INSERT` is given when its slots are, and the relation takes them. -/
theorem gives_insert {columns : List String} {rows : List (List Expression)}
    {stored : Relation.Inserted} : Gives (insert r columns rows) t (r', stored) t' ↔
      ∃ slotted mid, Gives (slots r.schema columns rows) t slotted mid ∧
        Gives (r.insert slotted) mid (r', stored) t' := gives_bind

/-- An `UPDATE` is given when its targets and its changes are, and the relation takes them. -/
theorem gives_update {p : Expression} {assignments : List (String × Expression)} {n : Nat} :
    Gives (update r p assignments) t (r', n) t' ↔
      ∃ assigned changed mid, targets r.schema [] assignments = .ok assigned ∧
        Gives (changes r.schema p assigned r.scan) t changed mid ∧
        Gives (r.update changed) mid (r', n) t' := by
  simp only [update, gives_bind, gives_ofExcept]
  constructor
  · rintro ⟨assigned, _, ⟨htargets, rfl⟩, changed, mid, hchanged, h⟩
    exact ⟨assigned, changed, mid, htargets, hchanged, h⟩
  · rintro ⟨assigned, changed, mid, htargets, hchanged, h⟩
    exact ⟨assigned, t, ⟨htargets, rfl⟩, changed, mid, hchanged, h⟩

/-- A `DELETE` is given when its ids are. -/
theorem gives_delete {p : Expression} {n : Nat} :
    Gives (delete r p) t (r', n) t' ↔
      ∃ ids, Gives (matching r.schema p r.scan) t ids t' ∧ r.delete ids = (r', n) := by
  simp only [delete, gives_bind, gives_pure]
  constructor
  · rintro ⟨ids, _, hids, h, rfl⟩
    exact ⟨ids, hids, h⟩
  · rintro ⟨ids, hids, h⟩
    exact ⟨ids, t', hids, h, rfl⟩

/-- What a statement computes is a change of the relation. -/
theorem Step.relation (h : Step r r') : r.Step r' := by
  cases h with
  | insert h =>
    obtain ⟨slotted, mid, -, h⟩ := gives_insert.1 h
    exact .insert h
  | update h =>
    obtain ⟨assigned, changed, mid, -, -, h⟩ := gives_update.1 h
    exact .update h
  | delete h =>
    obtain ⟨ids, -, h⟩ := gives_delete.1 h
    rw [show r' = (r.delete ids).1 by rw [h]]
    exact .delete ids
  | truncate => exact .truncate

/-- A changed row is a row that was passed over, after the assignments. -/
theorem mem_changes {p : Expression} {assigned : List (Nat × Expression)}
    {entries changed : List (Nat × Row)} (h : Gives (changes s p assigned entries) t changed t') :
    ∀ e ∈ changed, ∃ row, (e.1, row) ∈ entries ∧
      ∃ t t', Gives (assign s row row assigned) t e.2 t' := by
  induction entries generalizing t changed t' with
  | nil =>
    obtain ⟨rfl, -⟩ := gives_pure.1 h
    simp
  | cons e entries ih =>
    obtain ⟨found, mid, -, h⟩ := gives_bind.1 h
    have hrest {changed : List (Nat × Row)} {t t' : Time.Clock}
        (h : Gives (changes s p assigned entries) t changed t') :
        ∀ d ∈ changed, ∃ row, (d.1, row) ∈ e :: entries ∧
          ∃ t t', Gives (assign s row row assigned) t d.2 t' := fun d hd => by
      obtain ⟨row, hrow, hassign⟩ := ih h d hd
      exact ⟨row, List.mem_cons_of_mem _ hrow, hassign⟩
    split at h
    · simp only [gives_bind, gives_pure] at h
      obtain ⟨row, _, hrow, changed, _, hchanged, rfl, -⟩ := h
      exact List.forall_mem_cons.2 ⟨⟨e.2, List.mem_cons_self, _, _, hrow⟩, hrest hchanged⟩
    · exact hrest h

end Mutation
end MiniSql
