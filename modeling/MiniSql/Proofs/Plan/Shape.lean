/-
# What plans are like

Two facts about a plan are settled while its tree is read, and what runs later relies on them.
The columns of a table to create have defaults of their types, and none is both a primary key and
nullable (`Column.Planned`). The rows to insert are at least one.

A schema that also passes `Schema.validate` is then well formed, so a table can have it.
-/

import MiniSql.Database
import MiniSql.Proofs.Grammar.Soundness
import MiniSql.Proofs.Store.WellTyped

namespace MiniSql

open Grammar (Tree Keyword Kind Token)

/-- A literal default is `NULL` or of the column's type, and a primary key is not nullable. -/
structure Column.Planned (c : Column) : Prop where
  default_typed : ∀ v, c.default = some (.value v) → v = .null ∨ v.type? = some c.type
  primaryKey_notNull : c.primaryKey = true → c.nullable = false

/-- The columns to create are planned, and there are rows to insert. -/
def Plan.Proper : Plan → Prop
  | createTable schema _ => ∀ c ∈ schema.columns, c.Planned
  | insert _ _ rows _ => rows ≠ []
  | _ => True

/-! ## Schemas -/

namespace Schema

/-- Columns are faultless if each one is and no name is there twice. -/
theorem columnsFault?_eq_none {table : String} {seen : List String} {columns : List Column} :
    columnsFault? table seen columns = none ↔
      (∀ c ∈ columns, c.name ∉ seen ∧ columnFault? c = none) ∧ (columns.map (·.name)).Nodup := by
  induction columns generalizing seen with
  | nil => simp [columnsFault?]
  | cons c columns ih =>
    rw [columnsFault?, List.forall_mem_cons, List.map_cons, List.nodup_cons]
    split
    · rename_i hseen
      simp [hseen]
    · rename_i hseen
      split
      · rename_i e hfault
        simp [hfault]
      · rename_i hfault
        rw [ih]
        simp only [List.mem_cons, not_or, List.mem_map, not_exists, not_and]
        constructor
        · rintro ⟨h, hnodup⟩
          exact ⟨⟨⟨hseen, hfault⟩, fun d hd => ⟨(h d hd).1.2, (h d hd).2⟩⟩,
            fun d hd => (h d hd).1.1, hnodup⟩
        · rintro ⟨⟨-, h⟩, hnew, hnodup⟩
          exact ⟨fun d hd => ⟨⟨hnew d hd, (h d hd).1⟩, (h d hd).2⟩, hnodup⟩

/-- A planned column without fault is well-formed. -/
theorem column_wellFormed {c : Column} (hc : c.Planned) (h : columnFault? c = none) :
    c.WellFormed := by
  unfold columnFault? at h
  split at h
  · cases h
  · rename_i hnumber
    split at h
    · cases h
    · rename_i hstamp
      refine ⟨hc.primaryKey_notNull, by simpa using hnumber, by simpa using hstamp, ?_⟩
      intro v hv
      refine ⟨hc.default_typed v hv, fun hnull => ?_⟩
      subst hnull
      rw [hv] at h
      by_contra hnot
      simp [hnot] at h

/-- **A planned schema that passes the check is well formed.** -/
theorem wellFormed_of_validate {s : Schema} (h : s.validate = .ok ())
    (hplanned : ∀ c ∈ s.columns, c.Planned) : s.WellFormed := by
  have hfault : s.fault? = none := by
    unfold validate at h
    split at h
    · cases h
    · assumption
  unfold fault? at hfault
  split at hfault
  · cases hfault
  · rename_i hne
    split at hfault
    · cases hfault
    · rename_i hcolumns
      obtain ⟨hcolumn, hnodup⟩ := columnsFault?_eq_none.1 hcolumns
      split at hfault
      · cases hfault
      · rename_i hone
        refine ⟨by simpa using hne, hnodup, by omega, fun c hc => ?_⟩
        exact column_wellFormed (hplanned c hc) (hcolumn c hc).2

end Schema

/-! ## Planning -/

namespace Planning

variable {arguments : List Value} {t : Tree} {plan : Plan}

/-- A default has the type of its column or is NULL. -/
theorem defaultOf_typed {c : Column} {v : Value} (h : defaultOf arguments c t = .ok (.value v)) :
    v = .null ∨ v.type? = some c.type := by
  obtain ⟨e, -, h⟩ := Except.bind_eq_ok.1 h
  obtain ⟨e, -, h⟩ := Except.bind_eq_ok.1 h
  split at h
  · obtain ⟨w, hw, h⟩ := Except.bind_eq_ok.1 h
    cases h
    exact Value.coerce_type hw
  · cases h
  · cases h

/-- A modifier leaves the type, and a literal default that it sets is of this type. -/
theorem modify_keeps {c c' : Column} {null null' : Bool}
    (hc : ∀ v, c.default = some (.value v) → v = .null ∨ v.type? = some c.type)
    (h : modify arguments (c, null) t = .ok (c', null')) :
    ∀ v, c'.default = some (.value v) → v = .null ∨ v.type? = some c'.type := by
  simp only [modify] at h
  split at h
  case h_6 =>
    obtain ⟨d, hd, h⟩ := Except.bind_eq_ok.1 h
    cases h
    intro v hv
    cases hv
    exact defaultOf_typed hd
  all_goals
    cases h
    exact hc

/-- A column that was planned is as plans make them. -/
theorem column_planned {c : Column} (h : column arguments t = .ok c) : c.Planned := by
  obtain ⟨type, -, h⟩ := Except.bind_eq_ok.1 h
  split at h
  · cases h
  · rename_i type _
    obtain ⟨⟨d, null⟩, hd, h⟩ := Except.bind_eq_ok.1 h
    have htyped : ∀ v, d.default = some (.value v) → v = .null ∨ v.type? = some d.type :=
      Except.foldlM_keeps (P := fun read : Column × Bool => ∀ v,
          read.1.default = some (.value v) → v = .null ∨ v.type? = some read.1.type)
        (fun _ _ _ hread h => modify_keeps hread h) (fun v hv => by cases hv) hd
    dsimp only at h
    split at h
    · split at h
      · cases h
      · cases h
        exact ⟨htyped, fun _ => rfl⟩
    · rename_i hkey
      split at h
      · cases h
      · cases h
        exact ⟨htyped, fun h => absurd h hkey⟩

/-- The plan of a creation is proper. -/
theorem create_proper (h : create arguments t = .ok plan) : plan.Proper := by
  unfold create at h
  split at h
  · cases h
  · obtain ⟨columns, hcolumns, h⟩ := Except.bind_eq_ok.1 h
    cases h
    intro c hc
    obtain ⟨_, -, hc⟩ := exists_mem_of_forall₂ (Except.mapM_eq_ok.1 hcolumns) hc
    exact column_planned hc

/-- The plan of an insertion that has values is proper. -/
theorem insert_proper {values : Tree} (hvalues : t.part? .VALUES = some values)
    (hne : values.children ≠ []) (h : insert arguments t = .ok plan) : plan.Proper := by
  have hrows {rows : List (List Expression)}
      (h : values.children.mapM (fun tuple => tuple.children.mapM (value arguments)) = .ok rows) :
      rows ≠ [] := by
    rintro rfl
    exact hne (List.forall₂_nil_right_iff.1 (Except.mapM_eq_ok.1 h))
  simp only [insert, hvalues] at h
  split at h
  · obtain ⟨into, -, h⟩ := Except.bind_eq_ok.1 h
    obtain ⟨table, -, h⟩ := Except.bind_eq_ok.1 h
    obtain ⟨rows, hmap, h⟩ := Except.bind_eq_ok.1 h
    split at h
    · obtain ⟨returning, -, h⟩ := Except.bind_eq_ok.1 h
      cases h
      exact hrows hmap
    · cases h
      exact hrows hmap
  · cases h

/-- **The plan of a statement is proper**, as far as an `INSERT` has rows. -/
theorem statement_proper
    (hinsert : t.kind = .keyword .INSERT →
      ∃ values, t.part? .VALUES = some values ∧ values.children ≠ [])
    (h : statement arguments t = .ok plan) : plan.Proper := by
  unfold statement at h
  split at h
  · obtain ⟨draft, -, h⟩ := Except.bind_eq_ok.1 h
    obtain ⟨q, -, h⟩ := Except.bind_eq_ok.1 h
    cases h
    trivial
  · rename_i hkind
    obtain ⟨values, hvalues, hne⟩ := hinsert hkind
    exact insert_proper hvalues hne h
  · unfold update at h
    split at h
    all_goals
      obtain ⟨assignments, -, h⟩ := Except.bind_eq_ok.1 h
      obtain ⟨table, -, h⟩ := Except.bind_eq_ok.1 h
      obtain ⟨predicate, -, h⟩ := Except.bind_eq_ok.1 h
      cases h
      trivial
  · unfold delete at h
    split at h
    · cases h
    · obtain ⟨table, -, h⟩ := Except.bind_eq_ok.1 h
      obtain ⟨predicate, -, h⟩ := Except.bind_eq_ok.1 h
      cases h
      trivial
  · exact create_proper h
  · obtain ⟨table, -, h⟩ := Except.bind_eq_ok.1 h
    cases h
    trivial
  · obtain ⟨table, -, h⟩ := Except.bind_eq_ok.1 h
    cases h
    trivial
  · cases h

end Planning

open Grammar.Spells in
/-- The tree of an `INSERT` has tuples. -/
theorem Grammar.Spells.Statement.values_ne_nil {u : List Token} {t : Tree}
    (h : Statement u t) (hkind : t.kind = .keyword .INSERT) :
    ∃ values, t.part? .VALUES = some values ∧ values.children ≠ [] := by
  cases h with
  | @insert i o v u w x target tuples returning hi ho ht hv hw hr =>
    refine ⟨.word .VALUES tuples, rfl, ?_⟩
    show tuples ≠ []
    cases hw <;> simp
  | _ => cases hkind

/-- **Every plan is proper.** -/
theorem Plan.proper_of_ofText {sql : String} {arguments : List Value} {strict : Bool} {plan : Plan}
    (h : Plan.ofText sql arguments strict = .ok plan) : plan.Proper := by
  unfold Plan.ofText at h
  split at h
  · cases h
  · rename_i t ht
    obtain ⟨u, _, -, hu, -⟩ := Grammar.spells_of_parse ht
    obtain ⟨_, -, h⟩ := Except.bind_eq_ok.1 h
    exact Planning.statement_proper hu.values_ne_nil h

end MiniSql
