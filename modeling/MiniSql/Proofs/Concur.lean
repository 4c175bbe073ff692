/-
# Computations that come to the same

Two computations concur when both give the same or both are refused, and the clock is left alike.
For what they are refused may differ: of two parts that are both at fault the one that is looked at
first is blamed. Computations that do not read the clock may be exchanged as far as this goes
(`Timed.Timeless.exchange`), and statements whose plans concur leave the same session
(`Session.concur_of_runs`).
-/

import MiniSql.Proofs.Session.Step
import Mathlib.Data.List.Perm.Basic

namespace MiniSql

/-! ## Without the clock -/

namespace Except

variable {ε α β : Type}

/-- Both are the same value, or both are refused. -/
def Concur (x y : Except ε α) : Prop := ∀ a, x = .ok a ↔ y = .ok a

/-- A pass over the same in another order gives the same in that order. -/
theorem mapM_perm {f : α → Except ε β} {l l' : List α} {bs : List β} (h : l'.Perm l)
    (hl : l.mapM f = .ok bs) : ∃ bs', l'.mapM f = .ok bs' ∧ bs'.Perm bs := by
  obtain ⟨bs', hbs', hperm⟩ := List.perm_comp_forall₂ h (mapM_eq_ok.1 hl)
  exact ⟨bs', mapM_eq_ok.2 hbs', hperm⟩

end Except

/-! ## With the clock -/

namespace Timed

variable {α β γ : Type} {x y z : Timed α}

/-- Both give the same or both are refused, and they leave the clock alike. -/
def Concur (x y : Timed α) : Prop :=
  ∀ t, ∃ t', (∃ a, Gives x t a t' ∧ Gives y t a t') ∨ ∃ e e', Refuses x t e t' ∧ Refuses y t e' t'

namespace Concur

/-- A computation concurs with itself. -/
theorem refl (x : Timed α) : Concur x x := by
  intro t
  rcases gives_or_refuses x t with ⟨a, t', h⟩ | ⟨e, t', h⟩
  · exact ⟨t', .inl ⟨a, h, h⟩⟩
  · exact ⟨t', .inr ⟨e, e, h, h⟩⟩

/-- What the one gives the other gives. -/
theorem gives (h : Concur x y) {t t' : Time.Clock} {a : α} (hx : Gives x t a t') :
    Gives y t a t' := by
  obtain ⟨t'', ⟨b, hb, hy⟩ | ⟨e, e', he, -⟩⟩ := h t
  · obtain ⟨rfl, rfl⟩ := hx.unique hb
    exact hy
  · exact absurd he hx.not_refuses

/-- Where the one is refused the other is. -/
theorem refuses (h : Concur x y) {t t' : Time.Clock} {e : Error} (hx : Refuses x t e t') :
    ∃ e', Refuses y t e' t' := by
  obtain ⟨t'', ⟨b, hb, -⟩ | ⟨e₁, e', he, hy⟩⟩ := h t
  · exact absurd hx hb.not_refuses
  · cases hx.symm.trans he
    exact ⟨e', hy⟩

/-- What concurs with a concurring one concurs. -/
theorem trans (h : Concur x y) (h' : Concur y z) : Concur x z := by
  intro t
  obtain ⟨t', ⟨a, hx, hy⟩ | ⟨e, e', hx, hy⟩⟩ := h t
  · exact ⟨t', .inl ⟨a, hx, h'.gives hy⟩⟩
  · obtain ⟨e'', hz⟩ := h'.refuses hy
    exact ⟨t', .inr ⟨e, e'', hx, hz⟩⟩

/-- What goes on alike from the same concurs. -/
theorem bind {f g : α → Timed β} (h : Concur x y) (hf : ∀ a, Concur (f a) (g a)) :
    Concur (x >>= f) (y >>= g) := by
  intro t
  obtain ⟨mid, ⟨a, hx, hy⟩ | ⟨e, e', hx, hy⟩⟩ := h t
  · obtain ⟨t', ⟨b, hf, hg⟩ | ⟨e, e', hf, hg⟩⟩ := hf a mid
    · exact ⟨t', .inl ⟨b, gives_bind.2 ⟨a, mid, hx, hf⟩, gives_bind.2 ⟨a, mid, hy, hg⟩⟩⟩
    · exact ⟨t', .inr ⟨e, e', refuses_bind.2 (.inr ⟨a, mid, hx, hf⟩),
        refuses_bind.2 (.inr ⟨a, mid, hy, hg⟩)⟩⟩
  · exact ⟨mid, .inr ⟨e, e', refuses_bind.2 (.inl hx), refuses_bind.2 (.inl hy)⟩⟩

/-- Values that concur do so as computations. -/
theorem ofExcept {x y : Except Error α} (h : Except.Concur x y) :
    Concur (ofExcept x) (ofExcept y) := by
  intro t
  cases x with
  | ok a => exact ⟨t, .inl ⟨a, gives_ofExcept.2 ⟨rfl, rfl⟩, gives_ofExcept.2 ⟨(h a).1 rfl, rfl⟩⟩⟩
  | error e =>
    cases y with
    | ok a => exact absurd ((h a).2 rfl) (by simp)
    | error e' =>
      exact ⟨t, .inr ⟨e, e', refuses_ofExcept.2 ⟨rfl, rfl⟩, refuses_ofExcept.2 ⟨rfl, rfl⟩⟩⟩

/-- Passes concur when their steps do. -/
theorem mapM {f : β → Timed α} {g : γ → Timed α} {l : List β} {l' : List γ}
    (h : List.Forall₂ (fun b c => Concur (f b) (g c)) l l') : Concur (l.mapM f) (l'.mapM g) := by
  induction h with
  | nil => exact .refl _
  | cons hb _ ih =>
    rw [List.mapM_cons, List.mapM_cons]
    exact hb.bind fun _ => ih.bind fun _ => .refl _

end Concur

/-- What goes on alike from all that is given is the same. -/
theorem bind_congr_of_gives {x : Timed α} {f g : α → Timed β}
    (h : ∀ t a t', Gives x t a t' → f a = g a) : x >>= f = x >>= g := by
  refine ExceptT.ext (StateT.ext fun t => ?_)
  show ((x >>= f).run.run t : Except Error β × Time.Clock) = (x >>= g).run.run t
  rw [run_bind, run_bind]
  rcases hx : x.run.run t with ⟨e | a, t'⟩
  · rfl
  · exact congrArg (fun y : Timed β => y.run.run t') (h t a t' hx)

/-- Mapping a list by functions that agree on it gives the same. -/
theorem mapM_congr {f g : β → Timed α} {l : List β} (h : ∀ b ∈ l, f b = g b) :
    l.mapM f = l.mapM g := by
  induction l with
  | nil => rfl
  | cons b l ih =>
    obtain ⟨hb, h⟩ := List.forall_mem_cons.1 h
    rw [List.mapM_cons, List.mapM_cons, hb, ih h]

/-- A pass of steps that do not read the clock. -/
theorem mapM_ofExcept {f : β → Timed α} {g : β → Except Error α} {l : List β}
    (h : ∀ b ∈ l, f b = ofExcept (g b)) : l.mapM f = ofExcept (l.mapM g) := by
  induction l with
  | nil => rfl
  | cons b l ih =>
    obtain ⟨hb, h⟩ := List.forall_mem_cons.1 h
    rw [List.mapM_cons, List.mapM_cons, hb, ih h]
    cases g b with
    | error e => rfl
    | ok a => cases l.mapM g <;> rfl

/-- What does not read the clock gives the same at all times. -/
theorem Timeless.gives_iff (h : Timeless x) {t t' : Time.Clock} {a : α} :
    Gives x t a t' ↔ t' = t ∧ ∀ u, Gives x u a u := by
  obtain ⟨y, rfl⟩ := h
  simp only [gives_ofExcept, and_true]
  constructor
  · rintro ⟨h, rfl⟩
    exact ⟨rfl, fun _ => h⟩
  · rintro ⟨rfl, h⟩
    exact ⟨h t', rfl⟩

/-- A pass does not read the clock if none of its steps does. -/
theorem Timeless.mapM {f : β → Timed α} {l : List β} (h : ∀ b ∈ l, Timeless (f b)) :
    Timeless (l.mapM f) := ⟨_, mapM_ofExcept fun b hb => (h b hb).eq_ofExcept⟩

/-- Two computations that do not read the clock may be exchanged. -/
theorem Timeless.exchange {u : Timed α} {v : Timed β} (hu : Timeless u) (hv : Timeless v)
    (f : α → β → Timed γ) :
    Concur (u >>= fun a => v >>= fun b => f a b) (v >>= fun b => u >>= fun a => f a b) := by
  obtain ⟨u, rfl⟩ := hu
  obtain ⟨v, rfl⟩ := hv
  rcases u with e | a <;> rcases v with e' | b
  · intro t
    exact ⟨t, .inr ⟨e, e', rfl, rfl⟩⟩
  · exact .refl (Timed.refuse e)
  · exact .refl (Timed.refuse e')
  · exact .refl (f a b)

end Timed

/-! ## Statements -/

open Timed

namespace Session

variable {s : Session} {st st' : Statement}

/-- The two statements leave the same session, and where one has an answer the other has the
same. -/
def Concur (s : Session) (st st' : Statement) : Prop :=
  (s.execute st).2 = (s.execute st').2 ∧ Except.Concur (s.execute st).1 (s.execute st').1

/-- Statements that are refused for one reason before they run. -/
theorem execute_congr_faults {e : Error} (h : s.plan st = .error e) (h' : s.plan st' = .error e) :
    s.execute st = s.execute st' := by
  rw [execute_eq (Database.execute_of_fault h), execute_eq (Database.execute_of_fault h')]

/-- Statements whose plans run alike. -/
theorem execute_congr_runs {p p' : Plan} (h : s.plan st = .ok p) (h' : s.plan st' = .ok p')
    (hruns : p.run s.database.options.autoincrementStart s.database.catalog =
      p'.run s.database.options.autoincrementStart s.database.catalog) :
    s.execute st = s.execute st' := by
  rcases gives_or_refuses (p.run s.database.options.autoincrementStart s.database.catalog)
    s.clock with ⟨⟨c, answer⟩, t, hp⟩ | ⟨e, t, hp⟩
  · rw [execute_eq (Database.execute_of_gives h hp),
      execute_eq (Database.execute_of_gives h' (hruns ▸ hp))]
  · rw [execute_eq (Database.execute_of_refuses h hp),
      execute_eq (Database.execute_of_refuses h' (hruns ▸ hp))]

/-- Statements that cannot be planned concur. -/
theorem concur_of_faults {e e' : Error} (h : s.plan st = .error e) (h' : s.plan st' = .error e') :
    s.Concur st st' := by
  unfold Concur
  rw [execute_eq (Database.execute_of_fault h), execute_eq (Database.execute_of_fault h')]
  exact ⟨rfl, fun a => iff_of_false (by simp) (by simp)⟩

/-- **Statements whose plans concur** leave the same session. -/
theorem concur_of_runs {p p' : Plan} (h : s.plan st = .ok p) (h' : s.plan st' = .ok p')
    (hruns : Timed.Concur
      (p.run s.database.options.autoincrementStart s.database.catalog)
      (p'.run s.database.options.autoincrementStart s.database.catalog)) : s.Concur st st' := by
  unfold Concur
  obtain ⟨t, ⟨⟨c, answer⟩, hp, hp'⟩ | ⟨e, e', hp, hp'⟩⟩ := hruns s.clock
  · rw [execute_eq (Database.execute_of_gives h hp), execute_eq (Database.execute_of_gives h' hp')]
    exact ⟨rfl, fun _ => Iff.rfl⟩
  · rw [execute_eq (Database.execute_of_refuses h hp),
      execute_eq (Database.execute_of_refuses h' hp')]
    exact ⟨rfl, fun a => iff_of_false (by simp) (by simp)⟩

end Session
end MiniSql
