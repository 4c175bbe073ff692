/-
# The grammar of values and predicates

| what | is |
| --- | --- |
| predicate | conjunctions with `OR` between them |
| conjunction | atoms with `AND` between them |
| atom | `( predicate )`, a comparison of two values, `value IS [NOT] NULL`, a number, `TRUE`, `FALSE` |
| value | a literal, a placeholder, `DEFAULT`, the current time, a column |

Both connectives group to the left, and parentheses leave no node behind. Every opening
parenthesis is a token, so the number of tokens bounds the nesting.
-/

import MiniSql.Grammar.Parser

namespace MiniSql
namespace Grammar
namespace Parser

/-- A column, with or without its table. -/
def column : Parser Tree := do
  let first ← name
  if ← accept .period then
    let column ← name
    return ⟨.ident, column, [.table first []]⟩
  else return .leaf .ident first

/-- The current time has two spellings and one node. -/
def currentTimestamp : Parser Tree := do
  if ← acceptWord .NOW then
    let _ ← expect .openParen
    let _ ← expect .closeParen
    return .word .CURRENT_TIMESTAMP []
  else
    let _ ← expectWord .CURRENT_TIMESTAMP
    return .word .CURRENT_TIMESTAMP []

/-- Takes a token of this kind as a leaf. -/
def leafOf (kind : Kind) : Parser Tree := do return .ofToken (← expect kind)

/-- A number behind a minus sign. -/
def negative : Parser Tree := do
  let _ ← expect .minus
  let number ← expect .number
  return .leaf .number ("-" ++ number.lexeme)

/-- The token ahead is of this kind. -/
def aheadIs (kind : Kind) (ahead : List Token) : Bool := ahead.head?.any fun t => t.kind == kind

/-- A value. `NOW` is one only before a parenthesis, and a column's name elsewhere. -/
def value : Parser Tree := do
  match ← look with
  | [] => refuse .value
  | t :: ahead =>
    match t.kind with
    | .minus => negative
    | .number | .string | .placeholder => leafOf t.kind
    | .keyword .NULL | .keyword .TRUE | .keyword .FALSE | .keyword .DEFAULT
    | .keyword .CURRENT_TIMESTAMP => leafOf t.kind
    | .keyword .NOW => if aheadIs .openParen ahead then currentTimestamp else column
    | _ => column

/-- What follows `value IS`. -/
def nullTest (operand : Tree) : Parser Tree := do
  if ← acceptWord .NOT then
    let _ ← expectWord .NULL
    return .word .IS [operand, .word .NOT [.word .NULL []]]
  else
    let _ ← expectWord .NULL
    return .word .IS [operand, .word .NULL []]

/-- A literal that is a predicate by itself. -/
def standsAlone (t : Tree) : Bool :=
  t.kind == .number || t.isWord .TRUE || t.isWord .FALSE

/-- What follows the first value of an atom. -/
def atomRest (left : Tree) : Parser Tree := do
  match ← look with
  | [] => if standsAlone left then return left else refuse .comparison
  | t :: _ =>
    if t.kind.isComparison then
      let sign ← expect t.kind
      let right ← value
      return ⟨sign.kind, sign.lexeme, [left, right]⟩
    else if t.kind = .keyword .IS then
      let _ ← expectWord .IS
      nullTest left
    else if standsAlone left then return left
    else refuse .comparison

/-- An atom, with `inner` reading what stands in parentheses. -/
def atom (inner : Parser Tree) : Parser Tree := do
  if ← accept .openParen then
    let held ← inner
    let _ ← expect .closeParen
    return held
  else atomRest (← value)

/-- A predicate in which fewer than `depth` parentheses are open at once. -/
def predicateWithin : Nat → Parser Tree
  | 0 => refuse .value
  | depth + 1 => chain .OR (chain .AND (atom (predicateWithin depth)))

/-- A predicate. -/
def predicate : Parser Tree := fun ahead => predicateWithin (ahead.length + 1) ahead

end Parser
end Grammar
end MiniSql
