/-
# What a computation that reads the clock gives

`Gives x t a t'` says that `x`, started when the clock stands at `t`, is not refused, gives `a` and
leaves the clock at `t'`; `Refuses x t e t'` says that it is refused with `e`, and one of the two is
always so. Each way to build a computation has one law for either, an equivalence, so that a run is
taken apart step by step, and no later proof looks at how the clock is passed on. A computation
that does not read the clock is taken apart the same way by what it is equal to.
-/

import MiniSql.Timed
import Mathlib.Data.List.Forall2

namespace MiniSql

/-- What stands on the right of two related lists is related to something on the left. -/
theorem exists_mem_of_forall₂ {α β : Type} {R : α → β → Prop} {l : List α} {bs : List β} {b : β}
    (h : List.Forall₂ R l bs) (hb : b ∈ bs) : ∃ a ∈ l, R a b := by
  induction h with
  | nil => cases hb
  | @cons a b' l bs hab _ ih =>
    rcases List.mem_cons.1 hb with rfl | hb
    · exact ⟨a, List.mem_cons_self, hab⟩
    · obtain ⟨a', ha', h'⟩ := ih hb
      exact ⟨a', List.mem_cons_of_mem _ ha', h'⟩

/-! ## Without the clock -/

namespace Except

variable {ε α β : Type}

/-- Two steps give a result if the first does and the second goes on to it. -/
theorem bind_eq_ok {x : Except ε α} {f : α → Except ε β} {b : β} :
    (x >>= f) = .ok b ↔ ∃ a, x = .ok a ∧ f a = .ok b := by
  cases x with
  | error e =>
    constructor
    · intro h
      cases h
    · rintro ⟨_, h, -⟩
      cases h
  | ok a =>
    constructor
    · exact fun h => ⟨a, rfl, h⟩
    · rintro ⟨_, h, h'⟩
      cases h
      exact h'

/-- Two steps are refused if the first is, or the second behind it. -/
theorem bind_eq_error {x : Except ε α} {f : α → Except ε β} {e : ε} :
    (x >>= f) = .error e ↔ x = .error e ∨ ∃ a, x = .ok a ∧ f a = .error e := by
  cases x with
  | error e' =>
    constructor
    · intro h
      cases h
      exact .inl rfl
    · rintro (h | ⟨_, h, -⟩) <;> cases h
      rfl
  | ok a =>
    constructor
    · exact fun h => .inr ⟨a, rfl, h⟩
    · rintro (h | ⟨_, h, h'⟩) <;> cases h
      exact h'

/-- A pass gives the list of what it gives for each. -/
theorem mapM_eq_ok {f : α → Except ε β} {l : List α} {bs : List β} :
    l.mapM f = .ok bs ↔ List.Forall₂ (fun a b => f a = .ok b) l bs := by
  induction l generalizing bs with
  | nil =>
    rw [List.mapM_nil, List.forall₂_nil_left_iff]
    constructor
    · intro h
      cases h
      rfl
    · rintro rfl
      rfl
  | cons a l ih =>
    rw [List.mapM_cons, bind_eq_ok, List.forall₂_cons_left_iff]
    constructor
    · rintro ⟨b, hb, h⟩
      obtain ⟨bs', hbs, h⟩ := bind_eq_ok.1 h
      cases h
      exact ⟨b, bs', hb, ih.1 hbs, rfl⟩
    · rintro ⟨b, bs', hb, hbs, rfl⟩
      exact ⟨b, hb, bind_eq_ok.2 ⟨bs', ih.2 hbs, rfl⟩⟩

/-- A pass is refused where one of its steps is. -/
theorem mapM_eq_error {f : α → Except ε β} {l : List α} {e : ε} (h : l.mapM f = .error e) :
    ∃ a ∈ l, f a = .error e := by
  induction l with
  | nil => cases h
  | cons a l ih =>
    rw [List.mapM_cons] at h
    rcases bind_eq_error.1 h with ha | ⟨b, -, h⟩
    · exact ⟨a, List.mem_cons_self, ha⟩
    · rcases bind_eq_error.1 h with hl | ⟨bs, -, h⟩
      · obtain ⟨a', ha', h'⟩ := ih hl
        exact ⟨a', List.mem_cons_of_mem _ ha', h'⟩
      · cases h

/-- What every step of a pass keeps holds of what the pass gives. -/
theorem foldlM_keeps {P : β → Prop} {f : β → α → Except ε β} {l : List α} {b b' : β}
    (hstep : ∀ b a b', P b → f b a = .ok b' → P b') (hb : P b) (h : l.foldlM f b = .ok b') :
    P b' := by
  induction l generalizing b with
  | nil =>
    cases h
    exact hb
  | cons a l ih =>
    rw [List.foldlM_cons] at h
    obtain ⟨mid, hmid, h⟩ := bind_eq_ok.1 h
    exact ih (hstep b a mid hb hmid) h

end Except

/-! ## With the clock -/

namespace Timed

variable {α β : Type} {t t' : Time.Clock}

/-- Started at `t` the computation gives `a` and leaves the clock at `t'`. -/
def Gives (x : Timed α) (t : Time.Clock) (a : α) (t' : Time.Clock) : Prop :=
  x.run.run t = (.ok a, t')

/-- Where the first computation is refused the second does not start. -/
theorem run_bind (x : Timed α) (f : α → Timed β) (t : Time.Clock) :
    (x >>= f).run.run t =
      match x.run.run t with
      | (.ok a, mid) => (f a).run.run mid
      | (.error e, mid) => (.error e, mid) := by
  rw [ExceptT.run_bind, StateT.run_bind]
  rcases x.run.run t with ⟨_ | _, _⟩ <;> rfl

/-- A value that is there is given at once. -/
@[simp] theorem gives_pure {a b : α} : Gives (pure a) t b t' ↔ a = b ∧ t = t' := by
  constructor
  · intro h
    cases h
    exact ⟨rfl, rfl⟩
  · rintro ⟨rfl, rfl⟩
    rfl

/-- **Two steps** give a result if the first does, and the second at the time behind it. -/
@[simp] theorem gives_bind {x : Timed α} {f : α → Timed β} {b : β} :
    Gives (x >>= f) t b t' ↔ ∃ a mid, Gives x t a mid ∧ Gives (f a) mid b t' := by
  unfold Gives
  rw [run_bind]
  rcases x.run.run t with ⟨e | a, mid⟩
  · constructor
    · intro h
      cases h
    · rintro ⟨_, _, h, -⟩
      cases h
  · constructor
    · exact fun h => ⟨a, mid, rfl, h⟩
    · rintro ⟨_, _, h, h'⟩
      cases h
      exact h'

/-- What is made of a result is given with the result. -/
@[simp] theorem gives_map {x : Timed α} {f : α → β} {b : β} :
    Gives (f <$> x) t b t' ↔ ∃ a, Gives x t a t' ∧ f a = b := by
  rw [map_eq_pure_bind, gives_bind]
  constructor
  · rintro ⟨a, mid, h, h'⟩
    obtain ⟨rfl, rfl⟩ := gives_pure.1 h'
    exact ⟨a, h, rfl⟩
  · rintro ⟨a, h, rfl⟩
    exact ⟨a, t', h, gives_pure.2 ⟨rfl, rfl⟩⟩

/-- A refusal gives nothing. -/
@[simp] theorem not_gives_refuse {e : Error} {a : α} : ¬Gives (refuse e) t a t' := by
  intro h
  cases h

/-- A computation without time gives its result at once. -/
@[simp] theorem gives_ofExcept {x : Except Error α} {a : α} :
    Gives (ofExcept x) t a t' ↔ x = .ok a ∧ t = t' := by
  cases x with
  | error e =>
    constructor
    · intro h
      cases h
    · rintro ⟨h, -⟩
      cases h
  | ok b =>
    show Gives (pure b) t a t' ↔ _
    simp

/-- Started at `t` the computation is refused with `e` and leaves the clock at `t'`. -/
def Refuses (x : Timed α) (t : Time.Clock) (e : Error) (t' : Time.Clock) : Prop :=
  x.run.run t = (.error e, t')

/-- A value that is there is not refused. -/
@[simp] theorem not_refuses_pure {a : α} {e : Error} : ¬Refuses (pure a) t e t' := by
  intro h
  cases h

/-- **Two steps** are refused if the first is, or the second behind it. -/
@[simp] theorem refuses_bind {x : Timed α} {f : α → Timed β} {e : Error} :
    Refuses (x >>= f) t e t' ↔
      Refuses x t e t' ∨ ∃ a mid, Gives x t a mid ∧ Refuses (f a) mid e t' := by
  unfold Refuses Gives
  rw [run_bind]
  rcases x.run.run t with ⟨e' | a, mid⟩
  · constructor
    · intro h
      cases h
      exact .inl rfl
    · rintro (h | ⟨_, _, h, -⟩) <;> cases h
      rfl
  · constructor
    · exact fun h => .inr ⟨a, mid, rfl, h⟩
    · rintro (h | ⟨_, _, h, h'⟩) <;> cases h
      exact h'

/-- What is made of a result is refused with it. -/
@[simp] theorem refuses_map {x : Timed α} {f : α → β} {e : Error} :
    Refuses (f <$> x) t e t' ↔ Refuses x t e t' := by
  rw [map_eq_pure_bind, refuses_bind]
  constructor
  · rintro (h | ⟨_, _, -, h⟩)
    · exact h
    · exact absurd h not_refuses_pure
  · exact .inl

/-- A refusal refuses with its error, at once. -/
@[simp] theorem refuses_refuse {e e' : Error} :
    Refuses (refuse e : Timed α) t e' t' ↔ e = e' ∧ t = t' := by
  constructor
  · intro h
    cases h
    exact ⟨rfl, rfl⟩
  · rintro ⟨rfl, rfl⟩
    rfl

/-- A computation without time is refused at once. -/
@[simp] theorem refuses_ofExcept {x : Except Error α} {e : Error} :
    Refuses (ofExcept x) t e t' ↔ x = .error e ∧ t = t' := by
  cases x with
  | error e' =>
    show Refuses (refuse e') t e t' ↔ _
    simp
  | ok a =>
    show Refuses (pure a) t e t' ↔ _
    simp

/-- The clock is always read. -/
@[simp] theorem not_refuses_now {e : Error} : ¬Refuses now t e t' := by
  intro h
  cases h

/-- A computation gives something, or it is refused. -/
theorem gives_or_refuses (x : Timed α) (t : Time.Clock) :
    (∃ a t', Gives x t a t') ∨ ∃ e t', Refuses x t e t' := by
  unfold Gives Refuses
  rcases x.run.run t with ⟨e | a, t'⟩
  · exact .inr ⟨e, t', rfl⟩
  · exact .inl ⟨a, t', rfl⟩

/-- It does not do both. -/
theorem Gives.not_refuses {x : Timed α} {a : α} {e : Error} {t'' : Time.Clock}
    (h : Gives x t a t') : ¬Refuses x t e t'' := by
  intro h'
  unfold Gives at h
  unfold Refuses at h'
  rw [h] at h'
  cases h'

/-- It gives one thing. -/
theorem Gives.unique {x : Timed α} {a b : α} {t'' : Time.Clock} (h : Gives x t a t')
    (h' : Gives x t b t'') : a = b ∧ t' = t'' := by
  have hsame : (Except.ok a, t') = (Except.ok (ε := Error) b, t'') := Eq.trans (Eq.symm h) h'
  obtain ⟨hok, ht⟩ := Prod.mk.inj hsame
  exact ⟨Except.ok.inj hok, ht⟩

/-- Started at `t` the computation is refused with `e`, wherever it leaves the clock. -/
def Fails (x : Timed α) (t : Time.Clock) (e : Error) : Prop := ∃ t', Refuses x t e t'

/-- A value that is there does not fail. -/
@[simp] theorem not_fails_pure {a : α} {e : Error} : ¬Fails (pure a) t e :=
  fun ⟨_, h⟩ => not_refuses_pure h

/-- **Two steps** fail if the first does, or the second behind it. -/
@[simp] theorem fails_bind {x : Timed α} {f : α → Timed β} {e : Error} :
    Fails (x >>= f) t e ↔ Fails x t e ∨ ∃ a mid, Gives x t a mid ∧ Fails (f a) mid e := by
  simp only [Fails, refuses_bind]
  constructor
  · rintro ⟨t', h | ⟨a, mid, ha, h⟩⟩
    · exact .inl ⟨t', h⟩
    · exact .inr ⟨a, mid, ha, t', h⟩
  · rintro (⟨t', h⟩ | ⟨a, mid, ha, t', h⟩)
    · exact ⟨t', .inl h⟩
    · exact ⟨t', .inr ⟨a, mid, ha, h⟩⟩

/-- What is made of a result fails as the computation of the result does. -/
theorem fails_bind_pure {x : Timed α} {f : α → β} {e : Error} :
    Fails (x >>= fun a => pure (f a)) t e ↔ Fails x t e := by
  simp only [fails_bind, not_fails_pure, and_false, exists_false, or_false]

/-- A computation without time fails if it is an error. -/
@[simp] theorem fails_ofExcept {x : Except Error α} {e : Error} :
    Fails (ofExcept x) t e ↔ x = .error e := by
  simp [Fails]

/-- What gives a result does not fail. -/
theorem Gives.not_fails {x : Timed α} {a : α} {e : Error} (h : Gives x t a t') : ¬Fails x t e :=
  fun ⟨_, h'⟩ => h.not_refuses h'

/-- The computation does not read the clock: what it gives, or why it is refused, is fixed. -/
def Timeless (x : Timed α) : Prop := ∃ y, x = ofExcept y

namespace Timeless

/-- A computation without time is timeless. -/
theorem ofExcept (x : Except Error α) : Timeless (ofExcept x) := ⟨x, rfl⟩

/-- A value that is there is timeless. -/
theorem pure (a : α) : Timeless (Pure.pure a) := ⟨.ok a, rfl⟩

/-- A refusal is timeless. -/
theorem refuse (e : Error) : Timeless (Timed.refuse e : Timed α) := ⟨.error e, rfl⟩

/-- Two timeless steps are timeless. -/
theorem bind {x : Timed α} {f : α → Timed β} (hx : Timeless x) (hf : ∀ a, Timeless (f a)) :
    Timeless (x >>= f) := by
  obtain ⟨y, rfl⟩ := hx
  cases y with
  | error e => exact ⟨.error e, rfl⟩
  | ok a => exact hf a

/-- It is what it is at the first instant. -/
theorem eq_ofExcept {x : Timed α} (h : Timeless x) :
    x = Timed.ofExcept (x.run.run ⟨0, []⟩).1 := by
  obtain ⟨y, rfl⟩ := h
  cases y <;> rfl

end Timeless

/-- A pass gives a list as long as its own, of what it gives for each at some time. -/
theorem Gives.mapM {f : α → Timed β} {l : List α} {bs : List β} (h : Gives (l.mapM f) t bs t') :
    List.Forall₂ (fun a b => ∃ s s', Gives (f a) s b s') l bs := by
  induction l generalizing bs t t' with
  | nil =>
    obtain ⟨rfl, -⟩ := gives_pure.1 h
    exact .nil
  | cons a l ih =>
    rw [List.mapM_cons, gives_bind] at h
    obtain ⟨b, mid, hb, h⟩ := h
    obtain ⟨bs', mid', hbs, h⟩ := gives_bind.1 h
    obtain ⟨rfl, -⟩ := gives_pure.1 h
    exact .cons ⟨t, mid, hb⟩ (ih hbs)

end Timed
end MiniSql
