/-
# Comparing the other way round

Whether two values compare does not depend on which of them is named first, and named the other way
round they compare the other way (`Value.compare?_swap`). Each pair of types has two branches of the
comparison, one for either order:

| pair | both branches compare |
| --- | --- |
| one type | what the type compares |
| integer, floating point number | two floating point numbers |
| text, number | the same text with the same number |
| text, instant | the instant that the text names with the other |
| any other, without `NULL` | the two texts |
-/

import MiniSql.Value.Order

namespace MiniSql

/-- Two things of an ordered type, named the other way round. -/
theorem some_compare_swap {α : Type} [Ord α] [Std.OrientedOrd α] (a b : α) :
    some (compare b a) = (some (compare a b)).map Ordering.swap :=
  congrArg some Std.OrientedCmp.eq_swap

/-- Floating point numbers compare the other way round when swapped. -/
theorem Number.Binary64.compare?_swap (x y : Number.Binary64) :
    y.compare? x = (x.compare? y).map Ordering.swap := by
  unfold Number.Binary64.compare?
  rw [Bool.or_comm]
  split
  · rfl
  · exact some_compare_swap x.place y.place

/-- Instants compare the other way round when swapped. -/
theorem Time.Instant.order_swap (a b : Time.Instant) : b.order a = (a.order b).swap := by
  unfold Time.Instant.order
  rw [Ordering.swap_then, ← Std.OrientedCmp.eq_swap, ← Std.OrientedCmp.eq_swap]

namespace Value

/-- **A comparison is mirrored**: it is defined in either order or in none, and is the reverse. -/
theorem compare?_swap (a b : Value) : b.compare? a = (a.compare? b).map Ordering.swap := by
  have turnedTwice (o : Option Ordering) : o = (o.map Ordering.swap).map Ordering.swap := by
    cases o <;> simp
  have named (s : String) (t : Time.Instant) :
      (Time.Instant.ofText? s).map (fun i => t.order i) =
        ((Time.Instant.ofText? s).map fun i => i.order t).map Ordering.swap := by
    cases Time.Instant.ofText? s with
    | none => rfl
    | some i => exact congrArg some (i.order_swap t)
  -- Kinds that do not mix are compared by their texts.
  cases a with
  | null => cases b <;> rfl
  | boolean a =>
    cases b with
    | null => rfl
    | boolean b => exact some_compare_swap a b
    | _ => exact some_compare_swap (boolean a).shown _
  | integer a =>
    cases b with
    | null => rfl
    | integer b => exact some_compare_swap a.toInt b.toInt
    | float y => exact (nearest a).compare?_swap y
    | text s => exact turnedTwice _
    | _ => exact some_compare_swap (integer a).shown _
  | float x =>
    cases b with
    | null => rfl
    | integer b => exact x.compare?_swap (nearest b)
    | float y => exact x.compare?_swap y
    | text s => exact turnedTwice _
    | _ => exact some_compare_swap (float x).shown _
  | text s =>
    cases b with
    | null => rfl
    | boolean b => exact some_compare_swap s _
    | text s' => exact some_compare_swap s s'
    | timestamp t => exact named s t
    | _ => rfl
  | timestamp t =>
    cases b with
    | null => rfl
    | text s => exact (turnedTwice _).trans (congrArg _ (named s t).symm)
    | timestamp t' => exact congrArg some (t.order_swap t')
    | _ => exact some_compare_swap (timestamp t).shown _

end Value
end MiniSql
