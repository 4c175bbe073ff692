/-
# Functions over rows

Each function passes over the values of a column and leaves `NULL` out. `COUNT` counts, `MIN` and
`MAX` keep the first of the values that no other is below or above, `SUM` adds integers as integers
as long as the sum is one, and `AVG` divides the floating point sum by the number of values. Where
there is no value, `COUNT` is 0 and the others are `NULL`.
-/

import MiniSql.Query.Rowset

namespace MiniSql
namespace Aggregate

open Number (Binary64)

/-- The value kept of two: the later one only if it compares to the earlier one as `wanted`. -/
def extreme (wanted : Ordering) (best : Option Value) (v : Value) : Option Value :=
  if v.isNull then best
  else
    match best with
    | none => some v
    | some b => if v.compare? b = some wanted then some v else some b

/-- The sum of two integers: an integer if it is one of 64 bits, else rounded. -/
def addIntegers (a b : Int64) : Value :=
  let exact := a.toInt + b.toInt
  if -(2 ^ 63) ≤ exact ∧ exact < 2 ^ 63 then .integer (Int64.ofInt exact)
  else .float ((Value.nearest a).add (Value.nearest b))

/-- A sum with one more value. -/
def addTo (total : Option Value) (v : Value) : Except Error (Option Value) :=
  match total, v with
  | _, .null => .ok total
  | none, .integer i => .ok (some (.integer i))
  | none, .float x => .ok (some (.float x))
  | some (.integer s), .integer i => .ok (some (addIntegers s i))
  | some (.integer s), .float x => .ok (some (.float ((Value.nearest s).add x)))
  | some (.float s), .integer i => .ok (some (.float (s.add (Value.nearest i))))
  | some (.float s), .float x => .ok (some (.float (s.add x)))
  | _, v => .error (.schema (.notSummable v))

/-- A floating point sum and the number of its terms, with one more value. -/
def averageStep (total : Binary64 × Nat) (v : Value) : Except Error (Binary64 × Nat) :=
  match v with
  | .null => .ok total
  | .integer i => .ok (total.1.add (Value.nearest i), total.2 + 1)
  | .float x => .ok (total.1.add x, total.2 + 1)
  | v => .error (.schema (.notAveragable v))

/-- The value of a function for the values of a column. -/
def value (f : Aggregate) (values : List Value) : Except Error Value :=
  match f with
  | .count => .ok (.integer (Int64.ofNat (values.countP fun v => !v.isNull)))
  | .min => .ok ((values.foldl (extreme .lt) none).getD .null)
  | .max => .ok ((values.foldl (extreme .gt) none).getD .null)
  | .sum => do return (← values.foldlM addTo none).getD .null
  | .avg => do
    let (total, n) ← values.foldlM averageStep (Binary64.zero false, 0)
    return if n = 0 then .null else .float (total.divideBy n)

end Aggregate

namespace Rowset

/-- The values that a call is for: those of its column, or one for each row. -/
def argumentValues (s : Rowset) (call : AggregateCall) : Except Error (List Value) :=
  match call.argument with
  | some column => do return s.column (← column.resolve s.columns)
  | none => .ok (s.rows.map fun _ => .boolean true)

/-- The value of a call. -/
def callValue (s : Rowset) (call : AggregateCall) : Except Error Value := do
  call.function.value (← s.argumentValues call)

/-- The one row of the values of some calls. -/
def aggregate (s : Rowset) (calls : List AggregateCall) : Except Error Rowset := do
  let values ← calls.mapM s.callValue
  return ⟨calls.map (·.text), [values]⟩

end Rowset
end MiniSql
