/-
# Comparing values

`compare?` is the comparison of predicates. `NULL` compares with nothing, and neither does what is
not a number or a text that names no instant with an instant. Values of one type compare as the
type does; an integer meets a floating point number as the nearest one; a text meets a number by
the number it spells, and by its characters if it spells none, and it meets an instant by the
instant it names. All other pairs compare by their texts.

`sortOrder` is the order that sorting uses, and compares any two values. It puts `NULL` first,
ranks floating point numbers by their total order, and where `compare?` gives nothing goes by the
kind of the values and then by their texts.
-/

import MiniSql.Time.Read
import MiniSql.Value

namespace MiniSql
namespace Value

/-- The floating point number nearest to an integer. -/
def nearest (i : Int64) : Number.Binary64 := .ofInt i.toInt

/-- Compares a text with a number that is shown as `shown`. -/
def compareWritten? (s : String) (x : Number.Binary64) (shown : String) : Option Ordering :=
  match Number.Binary64.read s with
  | .ok y => y.compare? x
  | .error _ => some (compare s shown)

/-- The comparison of predicates. -/
def compare? : Value → Value → Option Ordering
  | null, _ => none
  | _, null => none
  | boolean a, boolean b => some (compare a b)
  | integer a, integer b => some (compare a.toInt b.toInt)
  | integer a, float b => (nearest a).compare? b
  | float a, integer b => a.compare? (nearest b)
  | float a, float b => a.compare? b
  | text a, text b => some (compare a b)
  | timestamp a, timestamp b => some (a.order b)
  | text a, timestamp b => (Time.Instant.ofText? a).map fun a => a.order b
  | timestamp a, text b => (Time.Instant.ofText? b).map fun b => a.order b
  | text a, integer b => compareWritten? a (nearest b) (integer b).shown
  | text a, float b => compareWritten? a b (float b).shown
  | integer a, text b => (compareWritten? b (nearest a) (integer a).shown).map Ordering.swap
  | float a, text b => (compareWritten? b a (float a).shown).map Ordering.swap
  | a, b => some (compare a.shown b.shown)

/-- The place of a value's kind among the kinds. -/
def kindRank : Value → Nat
  | null => 0
  | boolean _ => 1
  | integer _ => 2
  | float _ => 2
  | text _ => 3
  | timestamp _ => 4

/-- The order of values that compare with nothing else. -/
def fallbackOrder (a b : Value) : Ordering :=
  (compare a.kindRank b.kindRank).then (compare a.shown b.shown)

/-- The order of sorting. -/
def sortOrder : Value → Value → Ordering
  | null, null => .eq
  | null, _ => .lt
  | _, null => .gt
  | integer a, integer b => compare a.toInt b.toInt
  | integer a, float b => (nearest a).compareTotal b
  | float a, integer b => a.compareTotal (nearest b)
  | float a, float b => a.compareTotal b
  | a, b => (a.compare? b).getD (fallbackOrder a b)

end Value
end MiniSql
