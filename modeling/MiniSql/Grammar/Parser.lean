/-
# Reading values off a list of tokens

A parser takes the tokens ahead and gives a value with the tokens that are left, never more than
there were, or refuses them with what it wanted and the token at which it wanted it. A loop goes
on while the next token calls for another round; every round takes that token, so it ends.
-/

import MiniSql.Grammar.Tree

namespace MiniSql
namespace Grammar

/-- What a parser wanted where it stopped. -/
inductive Wanted where
  | statement
  | kind (k : Kind)
  | columnType
  | name
  | value
  | comparison
  /-- An aggregate other than `COUNT` was given a star. -/
  | column (function : Keyword)
  /-- A second `WHERE` followed one that says something. -/
  | oneWhere
  /-- The number of a `LIMIT` or an `OFFSET` is no count. -/
  | count (clause : Keyword)
  | endOfStatement
  deriving DecidableEq, Repr

/-- What was wanted, in words. -/
def Wanted.text : Wanted → String
  | statement => "expected a statement"
  | kind k => "expected " ++ k.describe
  | columnType => "expected column type"
  | name => "expected a name"
  | value => "expected a value"
  | comparison => "expected comparison operator"
  | column function => function.text ++ " requires a column"
  | oneWhere => "duplicate WHERE clause"
  | count clause => clause.text ++ " expects a non-negative integer in range"
  | endOfStatement => "unexpected token after end of statement"

/-- A refusal: what was wanted, and the token found instead, unless the text had ended. -/
structure Refusal where
  wanted : Wanted
  found : Option Token
  deriving DecidableEq, Repr

/-- A value read off some tokens, and the tokens left. -/
structure Reading (α : Type) (ahead : List Token) where
  value : α
  rest : List Token
  rest_le : rest.length ≤ ahead.length

/-- A way to read a value off the tokens ahead. -/
def Parser (α : Type) : Type := (ahead : List Token) → Except Refusal (Reading α ahead)

namespace Parser

variable {α β σ : Type}

/-- Reads nothing. -/
def give (a : α) : Parser α := fun ahead => .ok ⟨a, ahead, Nat.le_refl _⟩

/-- Reads on where the first parser stopped. -/
def andThen (p : Parser α) (f : α → Parser β) : Parser β := fun ahead =>
  match p ahead with
  | .error e => .error e
  | .ok r =>
    match f r.value r.rest with
    | .error e => .error e
    | .ok q => .ok ⟨q.value, q.rest, Nat.le_trans q.rest_le r.rest_le⟩

instance : Monad Parser where
  pure := give
  bind := andThen

/-- Refuses the token ahead. -/
def refuse (wanted : Wanted) : Parser α := fun ahead => .error ⟨wanted, ahead.head?⟩

/-- Looks at the tokens ahead and takes none. -/
def look : Parser (List Token) := fun ahead => .ok ⟨ahead, ahead, Nat.le_refl _⟩

/-- Takes a token of the given kind. -/
def expect (kind : Kind) : Parser Token
  | [] => .error ⟨.kind kind, none⟩
  | t :: rest =>
    if t.kind = kind then .ok ⟨t, rest, Nat.le_succ _⟩ else .error ⟨.kind kind, some t⟩

/-- Takes a keyword. -/
def expectWord (k : Keyword) : Parser Token := expect (.keyword k)

/-- Takes a token of the given kind if there is one ahead, and tells whether there was. -/
def accept (kind : Kind) : Parser Bool
  | [] => .ok ⟨false, [], Nat.le_refl _⟩
  | t :: rest =>
    if t.kind = kind then .ok ⟨true, rest, Nat.le_succ _⟩
    else .ok ⟨false, t :: rest, Nat.le_refl _⟩

/-- Takes a keyword if it is ahead, and tells whether it was. -/
def acceptWord (k : Keyword) : Parser Bool := accept (.keyword k)

/-- Reads on from state `s` as long as the token ahead calls for another round. The token is
taken, and the round reads what follows it. -/
def loop (round : Token → Option (σ → Parser σ)) (s : σ) : Parser σ
  | [] => .ok ⟨s, [], Nat.le_refl _⟩
  | t :: rest =>
    match round t with
    | none => .ok ⟨s, t :: rest, Nat.le_refl _⟩
    | some f =>
      match f s rest with
      | .error e => .error e
      | .ok r =>
        match loop round r.value r.rest with
        | .error e => .error e
        | .ok q => .ok ⟨q.value, q.rest,
            Nat.le_trans q.rest_le (Nat.le_trans r.rest_le (Nat.le_succ _))⟩
termination_by ahead => ahead.length
decreasing_by
  have := r.rest_le
  simp only [List.length_cons]
  omega

/-- One item, and another after every comma. -/
def commaList (item : Parser α) : Parser (List α) := do
  let first ← item
  loop (fun t => if t.kind = .comma then some (fun read => do return read ++ [← item]) else none)
    [first]

/-- Operands with a connective between them, grouped to the left. -/
def chain (k : Keyword) (operand : Parser Tree) : Parser Tree := do
  let first ← operand
  loop (fun t => if t.kind = .keyword k
      then some (fun left => do return .word k [left, ← operand]) else none)
    first

/-- The name of a table or a column: an identifier, a string or a keyword that is not reserved,
which stands for itself in lower case. -/
def name : Parser String
  | [] => .error ⟨.name, none⟩
  | t :: rest =>
    match t.kind with
    | .ident | .string => .ok ⟨t.lexeme, rest, Nat.le_succ _⟩
    | .keyword k =>
      if k.reserved then .error ⟨.name, some t⟩
      else .ok ⟨Text.lower t.lexeme, rest, Nat.le_succ _⟩
    | _ => .error ⟨.name, some t⟩

/-- The node of a table's name. -/
def table : Parser Tree := do return .table (← name) []

end Parser

end Grammar
end MiniSql
