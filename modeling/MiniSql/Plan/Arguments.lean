/-
# Arguments of a statement

A statement refers to its arguments by placeholders, `$1` for the first. Before anything else is
planned the placeholders are checked against the arguments: every number from 1 up to some `n` is
used, and `n` arguments are given. Where parameters are not strict there may be more.
-/

import MiniSql.Error
import MiniSql.Grammar.Tree

namespace MiniSql
namespace Arguments

open Grammar (Tree)

/-- The number of a placeholder: what stands behind its first character. -/
def indexOf (lexeme : String) : Except Number.IntegerFault Nat :=
  Number.readCount (String.ofList (lexeme.toList.drop 1))

/-- The placeholders of a tree, in order. -/
def placeholders (t : Tree) : List String :=
  ((t.nodes 0).filter fun n => n.2.kind == .placeholder).map (·.2.lexeme)

/-- The number that a placeholder refers to; none if it is 0 or too large. -/
def validIndex? (lexeme : String) : Option Nat :=
  match indexOf lexeme with
  | .ok n => if 0 < n then some n else none
  | .error _ => none

/-- The numbers without repetition. -/
def distinct (indexes : List Nat) : List Nat :=
  indexes.foldl (fun seen i => if i ∈ seen then seen else seen ++ [i]) []

/-- Checks the placeholders of a tree against the number of arguments given. -/
def check (t : Tree) (given : Nat) (strict : Bool) : Except Error Unit :=
  let lexemes := placeholders t
  match lexemes.reverse.find? fun l => (validIndex? l).isNone with
  | some lexeme => .error (.parameter (.badPlaceholder lexeme))
  | none =>
    let indexes := distinct (lexemes.filterMap validIndex?)
    let used := indexes.length
    let highest := indexes.foldl max 0
    if highest ≠ used then .error (.parameter (.placeholderGap highest used))
    else if given < used ∨ (strict ∧ used < given) then
      .error (.parameter (.argumentCount used given))
    else .ok ()

/-- The argument that a placeholder refers to. -/
def argument (arguments : List Value) (lexeme : String) : Except Error Value :=
  match indexOf lexeme with
  | .error fault => .error (.schema (.badInteger fault))
  | .ok 0 => .error (.parameter (.noArgument lexeme))
  | .ok (i + 1) =>
    match arguments[i]? with
    | some v => .ok v
    | none => .error (.parameter (.noArgument lexeme))

end Arguments
end MiniSql
