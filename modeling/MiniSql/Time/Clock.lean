/-
# The clock

The clock hands out instants that strictly increase. A reading is what the system's clock shows, but
at least one microsecond later than the reading before. Statements read the clock for
`CURRENT_TIMESTAMP`, so a row that is stamped again always gets a later stamp, whatever the system's
clock shows: it may stand still or go back.
-/

import MiniSql.Time.Instant

namespace MiniSql
namespace Time

/-- The clock, with what the system's clock is going to show. Times are microseconds since the start
of 1970. -/
structure Clock where
  /-- The earliest time of the next reading. -/
  next : Int
  /-- What the system's clock shows at the readings to come. Behind the last of them it counts for
  nothing. -/
  system : List Int
  deriving DecidableEq, Repr

namespace Clock

/-- The instant of a number of microseconds. -/
def instantOf (micros : Int) : Instant :=
  ⟨micros / 1000000, (micros % 1000000).toNat * 1000, by unfold nanosPerSecond; omega⟩

/-- The time of the next reading. -/
def micros (c : Clock) : Int :=
  match c.system with
  | [] => c.next
  | now :: _ => max now c.next

/-- Reads the clock. -/
def read (c : Clock) : Instant × Clock := (instantOf c.micros, ⟨c.micros + 1, c.system.tail⟩)

/-- The second clock is the first one, or that has been read since. -/
def Passes (c c' : Clock) : Prop := c' = c ∨ c.next < c'.next

variable {a b c : Clock}

/-- The time read is not before the next one. -/
theorem next_le_micros (c : Clock) : c.next ≤ c.micros := by
  unfold micros
  split
  · exact Int.le_refl _
  · exact Int.le_max_right _ _

/-- A reading moves the clock on. -/
theorem next_lt_read (c : Clock) : c.next < c.read.2.next :=
  Int.lt_add_one_of_le c.next_le_micros

/-- The system's clock goes back, and the reading is the next one all the same. -/
example : (Clock.read ⟨0, [7, 3]⟩).2.read = (instantOf 8, ⟨9, []⟩) := by decide

/-- A clock passes to itself. -/
theorem Passes.refl (c : Clock) : c.Passes c := .inl rfl

/-- A clock that passes does not go back. -/
theorem Passes.le (h : a.Passes b) : a.next ≤ b.next := by
  rcases h with rfl | h
  · exact Int.le_refl _
  · exact Int.le_of_lt h

/-- Time passes from one clock to the next. -/
theorem Passes.trans (h : a.Passes b) (h' : b.Passes c) : a.Passes c := by
  rcases h with rfl | h
  · exact h'
  · exact .inr (Int.lt_of_lt_of_le h h'.le)

/-- A clock that comes back has not moved. -/
theorem Passes.antisymm (h : a.Passes b) (h' : b.Passes a) : b = a := by
  rcases h with rfl | h
  · rfl
  · exact absurd h (Int.not_lt.2 h'.le)

/-- Reading takes the clock forward. -/
theorem passes_read (c : Clock) : c.Passes c.read.2 := .inr c.next_lt_read

/-- A later reading is a later instant. -/
theorem order_instantOf_of_lt {a b : Int} (h : a < b) :
    (instantOf a).order (instantOf b) = .lt := by
  unfold Instant.order instantOf
  dsimp only
  have ha := Int.emod_nonneg a (b := 1000000) (by decide)
  have hb := Int.emod_nonneg b (b := 1000000) (by decide)
  rcases Int.lt_or_le (a / 1000000) (b / 1000000) with h' | h'
  · rw [show compare (a / 1000000) (b / 1000000) = .lt from Int.compare_eq_lt.2 h']
    rfl
  · have e : a / 1000000 = b / 1000000 := by omega
    rw [e, show compare (b / 1000000) (b / 1000000) = .eq from Int.compare_eq_eq.2 rfl]
    show compare _ _ = .lt
    exact Nat.compare_eq_lt.2 (by omega)

end Clock

end Time
end MiniSql
