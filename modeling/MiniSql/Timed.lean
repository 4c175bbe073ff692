/-
# Computations that read the clock

A `Timed` computation may read the clock and may be refused. What it has read is gone even if it
is refused afterwards: no instant is handed out twice.
-/

import MiniSql.Error
import MiniSql.Time.Clock

namespace MiniSql

/-- A computation that may read the clock, and may be refused. -/
abbrev Timed (α : Type) : Type := ExceptT Error (StateM Time.Clock) α

namespace Timed

/-- The current instant. -/
def now : Timed Time.Instant := do
  let (instant, clock) := (← get).read
  set clock
  return instant

/-- Refuses. -/
def refuse {α : Type} (e : Error) : Timed α := throw e

/-- A computation that does not read the clock. -/
def ofExcept {α : Type} : Except Error α → Timed α
  | .ok a => pure a
  | .error e => throw e

end Timed

end MiniSql
