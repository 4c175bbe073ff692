/-
# Writing trees as statements

`render` writes a tree as the text of a statement that reads back as the same tree. A name is
quoted unless it is a plain lower case word that is no keyword; a string is always quoted; inside
quotes the quote is doubled. A predicate gets parentheses where its connective binds less tightly
than the one around it, or equally tightly to its right: both connectives group to the left.

The function is defined on every tree. On one that no statement reads into it writes what the
parts give.
-/

import MiniSql.Grammar.Quoted
import MiniSql.Grammar.Tree

namespace MiniSql
namespace Grammar

/-- The characters of a name that needs no quotes. -/
def isPlain (c : Char) : Bool := c.isLower || c.isDigit || c == '_'

/-- A name that reads as itself without quotes. -/
def plainName (name : String) : Bool :=
  match name.toList with
  | [] => false
  | c :: rest =>
    (c.isLower || c == '_') && rest.all isPlain && (Keyword.ofWord? name).isNone

/-- A name, in quotes where it needs them. -/
def renderName (name : String) : String :=
  if plainName name then name else quoted '"' name

/-- Several texts with commas between them. -/
def commas (texts : List String) : String := ", ".intercalate texts

namespace Tree

/-- The table in front of a qualified name. -/
def qualifier (t : Tree) : String :=
  match t.part? .TABLE with
  | some table => renderName table.lexeme ++ "."
  | none => ""

mutual

/-- A value, a column, a star or a call. -/
def renderItem : Tree → String
  | ⟨.asterisk, lexeme, children⟩ => qualifier ⟨.asterisk, lexeme, children⟩ ++ "*"
  | ⟨.ident, lexeme, children⟩ => qualifier ⟨.ident, lexeme, children⟩ ++ renderName lexeme
  | ⟨.string, lexeme, _⟩ => quoted '\'' lexeme
  | ⟨.keyword k, _, []⟩ => k.text
  | ⟨.keyword k, _, c :: cs⟩ => k.text ++ "(" ++ commas (renderItems (c :: cs)) ++ ")"
  | ⟨_, lexeme, _⟩ => lexeme

/-- Several items, one by one. -/
def renderItems : List Tree → List String
  | [] => []
  | t :: ts => renderItem t :: renderItems ts

end

/-- A predicate under a connective of the given strength: 0 for none, 1 for `OR`, 2 for `AND`. -/
def renderPredicate (outer : Nat) : Tree → String
  | ⟨.keyword .OR, _, [l, r]⟩ =>
    let text := renderPredicate 1 l ++ " OR " ++ renderPredicate 2 r
    if outer > 1 then "(" ++ text ++ ")" else text
  | ⟨.keyword .AND, _, [l, r]⟩ =>
    let text := renderPredicate 2 l ++ " AND " ++ renderPredicate 3 r
    if outer > 2 then "(" ++ text ++ ")" else text
  | ⟨.keyword .OR, _, _⟩ => ""
  | ⟨.keyword .AND, _, _⟩ => ""
  | ⟨.keyword .IS, _, [operand, null]⟩ =>
    renderItem operand ++ (if null.isWord .NOT then " IS NOT NULL" else " IS NULL")
  | ⟨.keyword .IS, _, _⟩ => ""
  | ⟨kind, lexeme, children⟩ =>
    if kind.isComparison then
      match children with
      | [l, r] => renderItem l ++ " " ++ lexeme ++ " " ++ renderItem r
      | _ => ""
    else renderItem ⟨kind, lexeme, children⟩

/-- The columns that an `INSERT` names behind its table. -/
def renderTarget (t : Tree) : String :=
  match t.children with
  | [] => renderName t.lexeme
  | cs => renderName t.lexeme ++ " (" ++ commas (cs.map fun c => renderName c.lexeme) ++ ")"

/-- One assignment of an `UPDATE`. -/
def renderAssignment (t : Tree) : String :=
  match t.children with
  | [column, value] => renderName column.lexeme ++ " = " ++ renderItem value
  | _ => ""

mutual

/-- A clause of a statement. -/
def renderClause : Tree → String
  | ⟨.keyword .FROM, _, children⟩ => "FROM " ++ commas (renderClauses children)
  | ⟨.keyword .TABLE, lexeme, _⟩ => renderName lexeme
  | ⟨.keyword .JOIN, _, children⟩ => " ".intercalate (renderJoin children)
  | ⟨.keyword .ON, _, children⟩ => "ON " ++ commas (children.map (renderPredicate 0))
  | ⟨.keyword .WHERE, _, children⟩ => "WHERE " ++ commas (children.map (renderPredicate 0))
  | ⟨.keyword .ORDER, _, children⟩ => "ORDER BY " ++ commas (renderClauses children)
  | ⟨.keyword .ASC, _, children⟩ => commas (renderItems children) ++ " ASC"
  | ⟨.keyword .DESC, _, children⟩ => commas (renderItems children) ++ " DESC"
  | ⟨.keyword .LIMIT, _, children⟩ => "LIMIT " ++ commas (renderItems children)
  | ⟨.keyword .OFFSET, _, children⟩ => "OFFSET " ++ commas (renderItems children)
  | ⟨.keyword .FOR, _, _⟩ => "FOR UPDATE"
  | ⟨.keyword .INTO, _, children⟩ => "INTO " ++ commas (children.map renderTarget)
  | ⟨.keyword .VALUES, _, children⟩ =>
    "VALUES " ++ commas (children.map fun t => "(" ++ commas (renderItems t.children) ++ ")")
  | ⟨.keyword .RETURNING, _, children⟩ => "RETURNING " ++ commas (renderItems children)
  | ⟨.keyword .SET, _, children⟩ => "SET " ++ commas (children.map renderAssignment)
  | ⟨.keyword .IF, lexeme, _⟩ => Text.upper lexeme
  | t => renderItem t

/-- Several clauses, one by one. -/
def renderClauses : List Tree → List String
  | [] => []
  | t :: ts => renderClause t :: renderClauses ts

/-- The parts of a `JOIN`, one by one. -/
def renderJoin : List Tree → List String
  | [] => []
  | ⟨.keyword .LEFT, _, _⟩ :: ts => "LEFT" :: renderJoin ts
  | ⟨.keyword .TABLE, lexeme, _⟩ :: ts => ("JOIN " ++ renderName lexeme) :: renderJoin ts
  | t :: ts => renderClause t :: renderJoin ts

end

/-- What follows a column's name: its type, with any sizes, or a modifier. -/
def renderModifier (t : Tree) : String :=
  match t.kind with
  | .keyword .NOT => "NOT NULL"
  | .keyword .DEFAULT => "DEFAULT " ++ String.join (renderItems t.children)
  | .keyword .ON => "ON UPDATE CURRENT_TIMESTAMP"
  | .keyword .PRIMARY => "PRIMARY KEY"
  | .keyword k =>
    let sizes := (t.children.filter fun c => c.kind == .number).map (·.lexeme)
    let sized := if sizes.isEmpty then k.text else k.text ++ "(" ++ commas sizes ++ ")"
    if (t.part? .WITH).isSome then sized ++ " WITH TIME ZONE" else sized
  | _ => t.lexeme

/-- The definition of a column. -/
def renderColumn (t : Tree) : String :=
  " ".intercalate (renderName t.lexeme :: t.children.map renderModifier)

/-- What follows `CREATE TABLE`. -/
def renderDefinition (t : Tree) : String :=
  if t.isWord .TABLE then
    renderName t.lexeme ++ " (" ++ commas (t.children.map renderColumn) ++ ")"
  else renderClause t

/-- The words that open a statement. -/
def opening? : Keyword → Option String
  | .INSERT => some "INSERT"
  | .UPDATE => some "UPDATE"
  | .DELETE => some "DELETE"
  | .TRUNCATE => some "TRUNCATE"
  | .DROP => some "DROP TABLE"
  | _ => none

/-- A tree as the text of a statement. -/
def renderStatement (t : Tree) : String :=
  match t.kind with
  | .keyword .SELECT =>
    let items := t.children.takeWhile fun c => !c.isWord .FROM
    let clauses := t.children.dropWhile fun c => !c.isWord .FROM
    " ".intercalate ("SELECT" :: commas (renderItems items) :: renderClauses clauses)
  | .keyword .CREATE => " ".intercalate ("CREATE TABLE" :: t.children.map renderDefinition)
  | .keyword k =>
    match opening? k with
    | some words => " ".intercalate (words :: renderClauses t.children)
    | none => renderPredicate 0 t
  | _ => renderPredicate 0 t

/-- Some trees as the text of as many statements. -/
def render (trees : List Tree) : String := "; ".intercalate (trees.map renderStatement)

end Tree

end Grammar
end MiniSql
