/-
# The errors that a computation is refused with

`Within A x` says that `x` is refused, if at all, with an error of `A`. There is one law for each way
to build a computation, whatever `A` is.

What works on rows has few kinds of errors. An expression, and every step of a query, is refused for
its names or its values (`Error.OfQuery`); a change of a table may break a constraint as well
(`Error.OfRows`), but where its rows have been computed no name is left to be wrong
(`Error.OfValues`). A table that is missing is no matter of rows, nor is an argument that is missing:
neither is among these errors, because both are found before the first row is looked at.
-/

import MiniSql.Proofs.Timed

namespace MiniSql

variable {α β : Type} {A B : Error → Prop}

/-- The errors of expressions and of queries. -/
inductive Error.OfQuery : Error → Prop
  | schema {cause : SchemaError} (h : ∀ table, cause ≠ .noTable table) : OfQuery (.schema cause)
  | internal (cause : InternalError) : OfQuery (.internal cause)

/-- The errors of what changes the rows of a table. -/
inductive Error.OfRows : Error → Prop
  | query {e : Error} (h : e.OfQuery) : OfRows e
  | constraint (cause : ConstraintError) : OfRows (.constraint cause)

/-- The reference means no column, or several. -/
inductive Error.OfReference (c : ColumnRef) : Error → Prop
  | missing : OfReference c (.schema (.noColumn c))
  | ambiguous : OfReference c (.schema (.ambiguous c))

/-- The errors of values that are stored: no table and no reference is among them. -/
inductive Error.OfValues : Error → Prop
  | schema {cause : SchemaError} (htable : ∀ table, cause ≠ .noTable table)
      (hmissing : ∀ c, cause ≠ .noColumn c) (hambiguous : ∀ c, cause ≠ .ambiguous c) :
      OfValues (.schema cause)
  | constraint (cause : ConstraintError) : OfValues (.constraint cause)
  | internal (cause : InternalError) : OfValues (.internal cause)

/-- The errors of values are errors of rows. -/
theorem Error.OfValues.rows {e : Error} (h : e.OfValues) : e.OfRows := by
  cases h with
  | schema htable => exact .query (.schema htable)
  | constraint cause => exact .constraint cause
  | internal cause => exact .query (.internal cause)

/-- Values are not refused for a reference, since no name is left in them. -/
theorem Error.OfValues.not_reference {e : Error} (h : e.OfValues) (c : ColumnRef) :
    ¬e.OfReference c := by
  rintro (_ | _)
  · cases h with
    | schema _ hmissing _ => exact hmissing c rfl
  · cases h with
    | schema _ _ hambiguous => exact hambiguous c rfl

/-- A matter of the schema is one of rows unless a table is missing. -/
theorem Error.OfRows.schema {cause : SchemaError} (h : ∀ table, cause ≠ .noTable table) :
    OfRows (.schema cause) := .query (.schema h)

/-- Rows are not refused for a table that is missing. -/
theorem Error.OfRows.ne_noTable {table : String} : ¬OfRows (.schema (.noTable table)) := by
  rintro (⟨⟨h⟩⟩)
  exact h table rfl

/-- Rows are not refused for an argument that is missing. -/
theorem Error.OfRows.ne_parameter {cause : ParameterError} : ¬OfRows (.parameter cause) := by
  rintro (⟨⟨⟩⟩)

/-! ## Without the clock -/

namespace Except

/-- Every error that the computation is refused with is one of these. -/
def Within (A : Error → Prop) (x : Except Error α) : Prop := ∀ e, x = .error e → A e

namespace Within

/-- A result is no refusal. -/
theorem ok (a : α) : Within A (.ok a) := fun _ h => nomatch h

/-- An error of the kind is within it. -/
theorem error {e : Error} (h : A e) : Within A (.error e : Except Error α) := by
  rintro _ ⟨⟩
  exact h

/-- A refusal of one kind is one of any wider kind. -/
theorem mono {x : Except Error α} (hx : Within A x) (h : ∀ e, A e → B e) : Within B x :=
  fun e he => h e (hx e he)

/-- Two steps are refused within a kind if both are. -/
theorem bind {x : Except Error α} {f : α → Except Error β} (hx : Within A x)
    (hf : ∀ a, x = .ok a → Within A (f a)) : Within A (x >>= f) := by
  intro e h
  rcases bind_eq_error.1 h with h | ⟨a, ha, h⟩
  · exact hx e h
  · exact hf a ha e h

/-- What is made of a result is refused with it. -/
theorem map {x : Except Error α} (f : α → β) (hx : Within A x) : Within A (f <$> x) := by
  rw [map_eq_pure_bind]
  exact hx.bind fun a _ => ok (f a)

/-- A pass is refused as one of its steps is. -/
theorem mapM {f : α → Except Error β} {l : List α} (h : ∀ a ∈ l, Within A (f a)) :
    Within A (l.mapM f) := by
  intro e hl
  obtain ⟨a, ha, hf⟩ := mapM_eq_error hl
  exact h a ha e hf

/-- A pass may rely on what its steps keep, and keeps it. -/
theorem foldlM_keeps {P : β → Prop} {f : β → α → Except Error β} {l : List α} {b : β}
    (hstep : ∀ b, ∀ a ∈ l, P b → Within A (f b a) ∧ ∀ b', f b a = .ok b' → P b') (hb : P b) :
    Within A (l.foldlM f b) ∧ ∀ b', l.foldlM f b = .ok b' → P b' := by
  induction l generalizing b with
  | nil =>
    refine ⟨ok b, fun b' hb' => ?_⟩
    cases hb'
    exact hb
  | cons a l ih =>
    rw [List.foldlM_cons]
    obtain ⟨hwithin, hkeep⟩ := hstep b a List.mem_cons_self hb
    have hrest (b' : β) (hb' : f b a = .ok b') :=
      ih (fun b a ha => hstep b a (List.mem_cons_of_mem _ ha)) (hkeep b' hb')
    refine ⟨hwithin.bind fun b' hb' => (hrest b' hb').1, fun b' h => ?_⟩
    obtain ⟨mid, hmid, h⟩ := bind_eq_ok.1 h
    exact (hrest mid hmid).2 b' h

/-- A fold is refused as one of its steps is. -/
theorem foldlM {f : β → α → Except Error β} {l : List α} {b : β}
    (h : ∀ b, ∀ a ∈ l, Within A (f b a)) : Within A (l.foldlM f b) :=
  (foldlM_keeps (P := fun _ => True) (fun b a ha _ => ⟨h b a ha, fun _ _ => trivial⟩) trivial).1

end Within

end Except

/-! ## With the clock -/

namespace Timed

/-- Every error that the computation is refused with, whenever it is started, is one of these. -/
def Within (A : Error → Prop) (x : Timed α) : Prop := ∀ t e t', Refuses x t e t' → A e

namespace Within

/-- A result is no refusal. -/
theorem pure (a : α) : Within A (Pure.pure a : Timed α) := fun _ _ _ h => absurd h not_refuses_pure

/-- A refusal of the kind is within it. -/
theorem refuse {e : Error} (h : A e) : Within A (refuse e : Timed α) := by
  intro t e' t' hr
  obtain ⟨rfl, -⟩ := refuses_refuse.1 hr
  exact h

/-- The clock is never refused. -/
theorem now : Within A now := fun _ _ _ h => absurd h not_refuses_now

/-- A computation without time is refused as it is. -/
theorem ofExcept {x : Except Error α} (h : Except.Within A x) : Within A (ofExcept x) :=
  fun _ e _ hr => h e (refuses_ofExcept.1 hr).1

/-- A refusal of one kind is one of any wider kind. -/
theorem mono {x : Timed α} (hx : Within A x) (h : ∀ e, A e → B e) : Within B x :=
  fun t e t' he => h e (hx t e t' he)

/-- Two steps are refused within a kind if both are. -/
theorem bind {x : Timed α} {f : α → Timed β} (hx : Within A x) (hf : ∀ a, Within A (f a)) :
    Within A (x >>= f) := by
  intro t e t' h
  rcases refuses_bind.1 h with h | ⟨a, mid, -, h⟩
  · exact hx t e t' h
  · exact hf a mid e t' h

/-- What is made of a result is refused with it. -/
theorem map {x : Timed α} (f : α → β) (hx : Within A x) : Within A (f <$> x) :=
  fun t e t' h => hx t e t' (refuses_map.1 h)

/-- A pass is refused as one of its steps is. -/
theorem mapM {f : α → Timed β} {l : List α} (h : ∀ a ∈ l, Within A (f a)) :
    Within A (l.mapM f) := by
  induction l with
  | nil => exact pure []
  | cons a l ih =>
    rw [List.mapM_cons]
    refine (h a List.mem_cons_self).bind fun b => ?_
    refine (ih fun a ha => h a (List.mem_cons_of_mem _ ha)).bind fun bs => ?_
    exact pure (b :: bs)

end Within

end Timed

end MiniSql
