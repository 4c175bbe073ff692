/-
# The grammar of statements

Each statement is read by a parser of its own, chosen by its first keyword. After the tables and
joins of a `SELECT` its clauses may come in any order. One `WHERE` takes the place of the implicit
one; a clause that says what the implicit one says, `WHERE 1`, may be replaced again.

`parse` reads one statement, with or without a semicolon behind it, and nothing more.
-/

import MiniSql.Grammar.Predicate
import MiniSql.Grammar.Token.Scan
import MiniSql.Number.Integer

namespace MiniSql
namespace Grammar
namespace Parser

/-- Functions over all rows of a query. -/
def isAggregate : Keyword → Bool
  | .COUNT | .MIN | .MAX | .SUM | .AVG => true
  | _ => false

/-- A call of the function `k`. Only `COUNT` takes a star. -/
def call (k : Keyword) : Parser Tree := do
  let _ ← expectWord k
  let _ ← expect .openParen
  let argument ←
    if ← accept .asterisk then
      if k = .COUNT then pure (Tree.leaf .asterisk "*") else refuse (.column k)
    else column
  let _ ← expect .closeParen
  return .word k [argument]

/-- All columns of one table. -/
def tableStar : Parser Tree := do
  let table ← name
  let _ ← expect .period
  let star ← expect .asterisk
  return ⟨.asterisk, star.lexeme, [.table table []]⟩

/-- What a `SELECT` lists: a star, a call, all columns of a table, or a column. -/
def selectItem : Parser Tree := do
  match ← look with
  | [] => column
  | t :: ahead =>
    if t.kind = .asterisk then leafOf .asterisk
    else
      match t.keyword?.filter isAggregate, aheadIs .openParen ahead with
      | some k, true => call k
      | _, _ =>
        if aheadIs .period ahead && aheadIs .asterisk ahead.tail then tableStar else column

/-- What follows the words that open a join. -/
def joined (marks : List Tree) : Parser Tree := do
  let table ← table
  let _ ← expectWord .ON
  let condition ← predicate
  return .word .JOIN (marks ++ [table, .word .ON [condition]])

/-- The joins of a query, as far as the token ahead opens one. -/
def joinRound (t : Token) : Option (List Tree → Parser (List Tree)) :=
  match t.kind with
  | .keyword .LEFT => some fun read => do
    let _ ← acceptWord .OUTER
    let _ ← expectWord .JOIN
    return read ++ [← joined [.word .LEFT []]]
  | .keyword .INNER => some fun read => do
    let _ ← expectWord .JOIN
    return read ++ [← joined []]
  | .keyword .JOIN => some fun read => do return read ++ [← joined []]
  | _ => none

/-- A column to sort by; upwards unless it is told otherwise. -/
def sortKey : Parser Tree := do
  let column ← Parser.column
  if ← acceptWord .DESC then return .word .DESC [column]
  else
    let _ ← acceptWord .ASC
    return .word .ASC [column]

/-- What follows `LIMIT` or `OFFSET`. The number is refused where it stands. -/
def countOf (clause : Keyword) : Parser Tree := do
  let number ← expect .number
  match Number.readCount number.lexeme with
  | .ok _ => return .word clause [.ofToken number]
  | .error _ => fun _ => .error ⟨.count clause, some number⟩

/-- The clauses of a query read so far: its `WHERE`, and the others in order. -/
structure Clauses where
  filter : Tree
  others : List Tree

/-- One more clause. -/
def Clauses.add (c : Clauses) (clause : Tree) : Clauses := { c with others := c.others ++ [clause] }

/-- The clauses of a query, as far as the token ahead opens one. -/
def clauseRound (t : Token) : Option (Clauses → Parser Clauses) :=
  match t.kind with
  | .keyword .WHERE => some fun read => do
    let condition ← predicate
    if read.filter = .implicitWhere then
      return { read with filter := .word .WHERE [condition] }
    else refuse .oneWhere
  | .keyword .ORDER => some fun read => do
    let _ ← expectWord .BY
    let keys ← commaList sortKey
    return read.add ⟨.keyword .ORDER, "order by", keys⟩
  | .keyword .LIMIT => some fun read => do return read.add (← countOf .LIMIT)
  | .keyword .OFFSET => some fun read => do return read.add (← countOf .OFFSET)
  | .keyword .FOR => some fun read => do
    let _ ← expectWord .UPDATE
    return read.add (.word .FOR [.word .UPDATE []])
  | _ => none

/-- `SELECT items FROM tables joins clauses` -/
def selectStatement : Parser Tree := do
  let _ ← expectWord .SELECT
  let items ← commaList selectItem
  let _ ← expectWord .FROM
  let tables ← commaList table
  let joins ← loop joinRound []
  let clauses ← loop clauseRound ⟨.implicitWhere, []⟩
  return .word .SELECT (items ++ .word .FROM tables :: joins ++ clauses.filter :: clauses.others)

/-- The columns named behind the table of an `INSERT`, if any are. -/
def targetColumns : Parser (List Tree) := do
  if ← accept .openParen then
    let columns ← commaList (do return .leaf .ident (← name))
    let _ ← expect .closeParen
    return columns
  else return []

/-- A tuple of values. -/
def tuple : Parser Tree := do
  let paren ← expect .openParen
  let values ← commaList value
  let _ ← expect .closeParen
  return ⟨.openParen, paren.lexeme, values⟩

/-- `INSERT INTO table [(columns)] VALUES tuples [RETURNING column]` -/
def insertStatement : Parser Tree := do
  let _ ← expectWord .INSERT
  let _ ← expectWord .INTO
  let target ← name
  let columns ← targetColumns
  let _ ← expectWord .VALUES
  let tuples ← commaList tuple
  let head := [.word .INTO [.table target columns], .word .VALUES tuples]
  if ← acceptWord .RETURNING then return .word .INSERT (head ++ [.word .RETURNING [← column]])
  else return .word .INSERT head

/-- `column = value` -/
def assignment : Parser Tree := do
  let column ← name
  let sign ← expect .equal
  let new ← value
  return ⟨.equal, sign.lexeme, [.leaf .ident column, new]⟩

/-- The `WHERE` of a statement that has no other clauses. -/
def filter : Parser Tree := do
  if ← acceptWord .WHERE then return .word .WHERE [← predicate] else return .implicitWhere

/-- `UPDATE table SET assignments [WHERE predicate]` -/
def updateStatement : Parser Tree := do
  let _ ← expectWord .UPDATE
  let target ← table
  let _ ← expectWord .SET
  let assignments ← commaList assignment
  return .word .UPDATE [target, .word .SET assignments, ← filter]

/-- `DELETE FROM table [WHERE predicate]` -/
def deleteStatement : Parser Tree := do
  let _ ← expectWord .DELETE
  let _ ← expectWord .FROM
  let target ← table
  return .word .DELETE [.word .FROM [target], ← filter]

/-- `TRUNCATE [TABLE] table` -/
def truncateStatement : Parser Tree := do
  let _ ← expectWord .TRUNCATE
  let _ ← acceptWord .TABLE
  return .word .TRUNCATE [← table]

/-- `DROP TABLE [IF EXISTS] table` -/
def dropStatement : Parser Tree := do
  let _ ← expectWord .DROP
  let _ ← expectWord .TABLE
  if ← acceptWord .IF then
    let _ ← expectWord .EXISTS
    return .word .DROP [.leaf (.keyword .IF) "if exists", ← table]
  else return .word .DROP [← table]

/-- The types that may carry sizes. -/
def isSizedType : Keyword → Bool
  | .INT | .INTEGER | .BIGINT | .SMALLINT | .TEXT | .VARCHAR | .CHAR | .STRING => true
  | .FLOAT | .DOUBLE | .REAL | .DECIMAL | .BOOL | .BOOLEAN | .DATETIME | .DATE => true
  | _ => false

/-- The sizes of a type, which are kept but never enforced. -/
def sizes : Parser (List Tree) := do
  if ← accept .openParen then
    let numbers ← commaList (leafOf .number)
    let _ ← expect .closeParen
    return numbers
  else return []

/-- The type of a column. -/
def columnType : Parser Tree := do
  match ← look with
  | [] => refuse .columnType
  | t :: _ =>
    match t.kind with
    | .keyword .TIMESTAMP =>
      let _ ← expectWord .TIMESTAMP
      if ← acceptWord .WITH then
        let _ ← expectWord .TIME
        let _ ← expectWord .ZONE
        return .word .TIMESTAMP [.leaf (.keyword .WITH) "with time zone"]
      else return .word .TIMESTAMP []
    | .keyword k =>
      if isSizedType k then
        let _ ← expectWord k
        return .word k (← sizes)
      else refuse .columnType
    | _ => refuse .columnType

/-- The modifiers of a column, as far as the token ahead opens one. -/
def modifierRound (t : Token) : Option (List Tree → Parser (List Tree)) :=
  match t.kind with
  | .keyword .AUTOINCREMENT => some fun read => do return read ++ [.word .AUTOINCREMENT []]
  | .keyword .NULL => some fun read => do return read ++ [.word .NULL []]
  | .keyword .UNIQUE => some fun read => do return read ++ [.word .UNIQUE []]
  | .keyword .NOT => some fun read => do
    let _ ← expectWord .NULL
    return read ++ [.word .NOT [.word .NULL []]]
  | .keyword .DEFAULT => some fun read => do return read ++ [.word .DEFAULT [← value]]
  | .keyword .ON => some fun read => do
    let _ ← expectWord .UPDATE
    return read ++ [.word .ON [.word .UPDATE [← currentTimestamp]]]
  | .keyword .PRIMARY => some fun read => do
    let _ ← expectWord .KEY
    return read ++ [.word .PRIMARY [.word .KEY []]]
  | _ => none

/-- A column: its name, its type and its modifiers in any order. -/
def columnDefinition : Parser Tree := do
  let column ← name
  let type ← columnType
  return ⟨.ident, column, ← loop modifierRound [type]⟩

/-- The table of a `CREATE` with its columns. -/
def tableDefinition : Parser Tree := do
  let table ← name
  let _ ← expect .openParen
  let columns ← commaList columnDefinition
  let _ ← expect .closeParen
  return .table table columns

/-- `CREATE TABLE [IF NOT EXISTS] table (columns)` -/
def createStatement : Parser Tree := do
  let _ ← expectWord .CREATE
  let _ ← expectWord .TABLE
  if ← acceptWord .IF then
    let _ ← expectWord .NOT
    let _ ← expectWord .EXISTS
    return .word .CREATE [.leaf (.keyword .IF) "if not exists", ← tableDefinition]
  else return .word .CREATE [← tableDefinition]

/-- A statement, told by its first keyword. -/
def statement : Parser Tree := do
  match (← look).head?.bind Token.keyword? with
  | some .SELECT => selectStatement
  | some .INSERT => insertStatement
  | some .UPDATE => updateStatement
  | some .DELETE => deleteStatement
  | some .CREATE => createStatement
  | some .DROP => dropStatement
  | some .TRUNCATE => truncateStatement
  | _ => refuse .statement

/-- A statement and nothing more. -/
def wholeStatement : Parser Tree := do
  let read ← statement
  let _ ← accept .semicolon
  match ← look with
  | [] => return read
  | _ :: _ => refuse .endOfStatement

end Parser

/-- A text that is no statement: what was wanted, where, and how long the text is. -/
structure Fault where
  refusal : Refusal
  /-- The length of the text in bytes: where a statement that breaks off is faulted. -/
  stop : Nat
  deriving DecidableEq, Repr

namespace Fault

/-- The lexeme at fault; none at the end of the text. -/
def token (f : Fault) : String :=
  match f.refusal.found with
  | some t => t.lexeme
  | none => ""

/-- The byte offset at fault. -/
def position (f : Fault) : Nat :=
  match f.refusal.found with
  | some t => t.position
  | none => f.stop

/-- What is wrong. An invalid token is at fault by itself, whatever was wanted. -/
def reason (f : Fault) : String :=
  match f.refusal.found with
  | some t => if t.kind = .invalid then "unrecognized input" else f.refusal.wanted.text
  | none => f.refusal.wanted.text ++ ", got end of input"

/-- The fault in words. -/
def message (f : Fault) : String :=
  "syntax error near '" ++ f.token ++ "' at position " ++ toString f.position ++ ": " ++ f.reason

end Fault

/-- The tree of a statement. -/
def parse (text : String) : Except Fault Tree :=
  match Parser.wholeStatement (tokenize text) with
  | .ok r => .ok r.value
  | .error refusal => .error ⟨refusal, byteLength text.toList⟩

end Grammar
end MiniSql
