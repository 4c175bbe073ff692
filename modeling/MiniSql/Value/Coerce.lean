/-
# Storing values in columns

A column stores values of its type and `NULL`. Some values change on their way into a column: an
integer becomes a floating point number, or a truth value if it is 0 or 1, and a text becomes the
instant that it names.
-/

import MiniSql.Error
import MiniSql.Value.Order

namespace MiniSql
namespace Value

/-- The value as a column of the type stores it. -/
def coerce (type : DataType) (v : Value) : Except Error Value :=
  match v, type with
  | null, _ => .ok null
  | integer i, .float => .ok (float (nearest i))
  | text s, .timestamp =>
    match Time.Instant.ofText? s with
    | some t => .ok (timestamp t)
    | none => .error (.schema (.badTimestamp s))
  | integer i, .boolean =>
    if i = 0 then .ok (boolean false)
    else if i = 1 then .ok (boolean true)
    else .error (.schema (.unstorable v type))
  | _, _ => if v.type? = some type then .ok v else .error (.schema (.unstorable v type))

/-- What a column stores is `NULL` or of its type. -/
theorem coerce_type {type : DataType} {v w : Value} (h : v.coerce type = .ok w) :
    w = null ∨ w.type? = some type := by
  unfold coerce at h
  split at h
  · cases h; exact .inl rfl
  · cases h; exact .inr rfl
  · split at h <;> cases h
    exact .inr rfl
  · split at h
    · cases h; exact .inr rfl
    · split at h <;> cases h
      exact .inr rfl
  · split at h <;> cases h
    exact .inr (by assumption)

/-- A stored value goes into its column unchanged. -/
theorem coerce_of_type {type : DataType} {v : Value} (h : v = null ∨ v.type? = some type) :
    v.coerce type = .ok v := by
  rcases h with rfl | h
  · rfl
  · cases v <;> cases type <;> first | rfl | cases h

end Value
end MiniSql
