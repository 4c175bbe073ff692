/-
# Statement trees

A statement is read into a tree whose nodes carry a kind, a lexeme and their parts in order. The
shapes, with `?` for what may be missing and `..` for what may repeat:

| statement | tree |
| --- | --- |
| `SELECT` | `select [item.., from [table..], join.., where [p], clause..]` |
| `INSERT` | `insert [into [table [ident..]], values [( [value..]..], returning [attr]?]` |
| `UPDATE` | `update [table, set [= [ident, value]..], where [p]]` |
| `DELETE` | `delete [from [table], where [p]]` |
| `CREATE` | `create [if?, table [ident [type, modifier..]..]]` |
| `DROP` | `drop [if?, table]` |
| `TRUNCATE` | `truncate [table]` |

A statement without `WHERE` holds the clause `implicitWhere`, whose predicate is the literal `1`.
-/

import MiniSql.Grammar.Token

namespace MiniSql
namespace Grammar

/-- A node of a statement tree. -/
structure Tree where
  kind : Kind
  lexeme : String
  children : List Tree

namespace Tree

mutual

/-- Trees are equal when their kinds, lexemes and children are. -/
def decEq : (a b : Tree) → Decidable (a = b)
  | ⟨k, l, cs⟩, ⟨k', l', cs'⟩ =>
    if hk : k = k' then
      if hl : l = l' then
        match decEqAll cs cs' with
        | .isTrue hc => .isTrue (by rw [hk, hl, hc])
        | .isFalse hc => .isFalse fun h => hc (by injection h)
      else .isFalse fun h => hl (by injection h)
    else .isFalse fun h => hk (by injection h)

/-- Lists of trees, one by one. -/
def decEqAll : (as bs : List Tree) → Decidable (as = bs)
  | [], [] => .isTrue rfl
  | [], _ :: _ => .isFalse (by simp)
  | _ :: _, [] => .isFalse (by simp)
  | a :: as, b :: bs =>
    match decEq a b, decEqAll as bs with
    | .isTrue h, .isTrue h' => .isTrue (by rw [h, h'])
    | .isFalse h, _ => .isFalse fun e => h (by injection e)
    | _, .isFalse h => .isFalse fun e => h (by injection e)

end

instance : DecidableEq Tree := decEq

/-- A node without parts. -/
def leaf (kind : Kind) (lexeme : String) : Tree := ⟨kind, lexeme, []⟩

/-- A keyword's node carries its canonical spelling, so that the case of a statement's words
leaves no trace in its tree. -/
def word (k : Keyword) (children : List Tree) : Tree := ⟨.keyword k, k.lowerText, children⟩

/-- The leaf that a token stands for. -/
def ofToken (t : Token) : Tree :=
  match t.kind with
  | .keyword k => word k []
  | kind => leaf kind t.lexeme

/-- The node of a table's name. -/
def table (name : String) (children : List Tree) : Tree := ⟨.keyword .TABLE, name, children⟩

/-- The node is this keyword. -/
def isWord (t : Tree) (k : Keyword) : Bool := t.kind == .keyword k

/-- The first part that is this keyword. -/
def part? (t : Tree) (k : Keyword) : Option Tree := t.children.find? fun c => c.isWord k

/-- The clause of a statement that names no predicate: it holds of every row. -/
def implicitWhere : Tree := word .WHERE [leaf .number "1"]

mutual

/-- The nodes of a tree with their depths, each before its parts. -/
def nodes (depth : Nat) : Tree → List (Nat × Tree)
  | ⟨kind, lexeme, children⟩ => (depth, ⟨kind, lexeme, children⟩) :: nodesAll (depth + 1) children

/-- The nodes of several trees, one tree after the other. -/
def nodesAll (depth : Nat) : List Tree → List (Nat × Tree)
  | [] => []
  | t :: ts => nodes depth t ++ nodesAll depth ts

end

/-- One line for a node: its kind and its lexeme, indented by its depth. -/
def line (depth : Nat) (t : Tree) : String :=
  String.ofList (List.replicate (2 * depth) ' ') ++ t.kind.title ++ " '" ++ t.lexeme ++ "'\n"

/-- The outline of some trees: one line for each node, the parts below their node. -/
def outline (trees : List Tree) : String :=
  String.join ((nodesAll 0 trees).map fun n => line n.1 n.2)

end Tree

end Grammar
end MiniSql
