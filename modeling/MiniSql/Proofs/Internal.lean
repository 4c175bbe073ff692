/-
# Computations without internal errors

An internal error means that two parts of the system do not fit together: that a plan reads a table
which it has not locked, or a row which is too short. No statement is to blame for one.
`NeverInternal x` says that `x` ends without it, whatever else it is refused with. A computation has
this property when its steps have it, where each step may rely on what those before it have given;
there is one such law for each way to build a computation.
-/

import MiniSql.Proofs.Timed

namespace MiniSql

/-! ## Without the clock -/

namespace Except

variable {α β : Type}

/-- The computation is not refused with an internal error. -/
def NeverInternal (x : Except Error α) : Prop := ∀ cause, x ≠ .error (.internal cause)

namespace NeverInternal

/-- A result is no internal error. -/
@[simp] theorem ok (a : α) : NeverInternal (.ok a) := fun _ h => nomatch h

/-- A value that is there is no internal error. -/
@[simp] theorem pure (a : α) : NeverInternal (Pure.pure a) := ok a

/-- An error of the schema is no internal error. -/
@[simp] theorem schema (cause : SchemaError) :
    NeverInternal (.error (.schema cause) : Except _ α) :=
  fun _ h => nomatch h

/-- A violated constraint is no internal error. -/
@[simp] theorem constraint (cause : ConstraintError) :
    NeverInternal (.error (.constraint cause) : Except _ α) := fun _ h => nomatch h

/-- A wrong parameter is no internal error. -/
@[simp] theorem parameter (cause : ParameterError) :
    NeverInternal (.error (.parameter cause) : Except _ α) := fun _ h => nomatch h

/-- Two steps fail internally only if one of them does. -/
theorem bind {x : Except Error α} {f : α → Except Error β} (hx : NeverInternal x)
    (hf : ∀ a, x = .ok a → NeverInternal (f a)) : NeverInternal (x >>= f) := by
  intro cause h
  rcases bind_eq_error.1 h with h | ⟨a, ha, h⟩
  · exact hx cause h
  · exact hf a ha cause h

/-- Mapping a list fails internally only at one of its elements. -/
theorem mapM {f : α → Except Error β} {l : List α} (h : ∀ a ∈ l, NeverInternal (f a)) :
    NeverInternal (l.mapM f) := by
  intro cause hl
  obtain ⟨a, ha, hf⟩ := mapM_eq_error hl
  exact h a ha cause hf

/-- A pass may rely on what its steps keep, and keeps it. -/
theorem foldlM {P : β → Prop} {f : β → α → Except Error β} {l : List α} {b : β}
    (hstep : ∀ b, ∀ a ∈ l, P b → NeverInternal (f b a) ∧ ∀ b', f b a = .ok b' → P b') (hb : P b) :
    NeverInternal (l.foldlM f b) ∧ ∀ b', l.foldlM f b = .ok b' → P b' := by
  induction l generalizing b with
  | nil =>
    refine ⟨ok b, fun b' hb' => ?_⟩
    cases hb'
    exact hb
  | cons a l ih =>
    rw [List.foldlM_cons]
    obtain ⟨hnever, hkeep⟩ := hstep b a List.mem_cons_self hb
    have hrest (b' : β) (hb' : f b a = .ok b') :=
      ih (fun b a ha => hstep b a (List.mem_cons_of_mem _ ha)) (hkeep b' hb')
    refine ⟨hnever.bind fun b' hb' => (hrest b' hb').1, fun b' h => ?_⟩
    obtain ⟨mid, hmid, h⟩ := bind_eq_ok.1 h
    exact (hrest mid hmid).2 b' h

end NeverInternal

end Except

/-! ## With the clock -/

namespace Timed

variable {α β : Type}

/-- The computation is not refused with an internal error, whenever it is started. -/
def NeverInternal (x : Timed α) : Prop := ∀ t cause t', ¬Refuses x t (.internal cause) t'

namespace NeverInternal

/-- A value that is there is no internal error. -/
@[simp] theorem pure (a : α) : NeverInternal (Pure.pure a : Timed α) :=
  fun _ _ _ => not_refuses_pure

/-- Reading the clock never fails. -/
@[simp] theorem now : NeverInternal Timed.now := fun _ _ _ => not_refuses_now

/-- A computation without time fails internally as it does. -/
@[simp] theorem ofExcept {x : Except Error α} :
    NeverInternal (Timed.ofExcept x) ↔ Except.NeverInternal x := by
  constructor
  · exact fun h cause hx => h ⟨0, []⟩ cause ⟨0, []⟩ (refuses_ofExcept.2 ⟨hx, rfl⟩)
  · exact fun h t cause t' hx => h cause (refuses_ofExcept.1 hx).1

/-- A refusal by the schema is not internal. -/
@[simp] theorem refuse_schema (cause : SchemaError) :
    NeverInternal (refuse (.schema cause) : Timed α) :=
  fun _ _ _ h => nomatch (refuses_refuse.1 h).1

/-- A refusal by a constraint is not internal. -/
@[simp] theorem refuse_constraint (cause : ConstraintError) :
    NeverInternal (refuse (.constraint cause) : Timed α) :=
  fun _ _ _ h => nomatch (refuses_refuse.1 h).1

/-- Two steps fail internally only if one of them does. -/
theorem bind {x : Timed α} {f : α → Timed β} (hx : NeverInternal x)
    (hf : ∀ t a t', Gives x t a t' → NeverInternal (f a)) : NeverInternal (x >>= f) := by
  intro t cause t' h
  rcases refuses_bind.1 h with h | ⟨a, mid, ha, h⟩
  · exact hx t cause t' h
  · exact hf t a mid ha mid cause t' h

/-- What is made of a result fails internally as it does. -/
theorem map {x : Timed α} (f : α → β) (hx : NeverInternal x) : NeverInternal (f <$> x) :=
  fun t cause t' h => hx t cause t' (refuses_map.1 h)

/-- Mapping a list fails internally only at one of its elements. -/
theorem mapM {f : α → Timed β} {l : List α} (h : ∀ a ∈ l, NeverInternal (f a)) :
    NeverInternal (l.mapM f) := by
  induction l with
  | nil => exact pure []
  | cons a l ih =>
    rw [List.mapM_cons]
    refine (h a List.mem_cons_self).bind fun _ b _ _ => ?_
    refine (ih fun a ha => h a (List.mem_cons_of_mem _ ha)).bind fun _ bs _ _ => ?_
    exact pure (b :: bs)

end NeverInternal

end Timed

end MiniSql
