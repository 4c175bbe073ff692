/-
# The words of the language

Keywords are matched without regard to case, by the full upper case mapping, so that `ſELECT` is
`SELECT` too. Fourteen of them are not reserved: where a table or a column is named, they are
read as the name. `AUTO_INCREMENT` is a second spelling of `AUTOINCREMENT`.
-/

import MiniSql.Text.Case

namespace MiniSql
namespace Grammar

/-- A keyword, spelled as statements spell it. -/
inductive Keyword where
  | SELECT | INSERT | UPDATE | DELETE | CREATE | DROP | TRUNCATE
  | FROM | WHERE | JOIN | INNER | LEFT | OUTER | ON | ORDER | BY | ASC | DESC | LIMIT
  | OFFSET | FOR | INTO | VALUES | RETURNING | SET | TABLE | IF | EXISTS
  | AND | OR | NOT | IS | NULL | TRUE | FALSE | COUNT | MIN | MAX | SUM | AVG
  | CURRENT_TIMESTAMP | NOW
  | DEFAULT | AUTOINCREMENT | PRIMARY | KEY | UNIQUE | WITH | TIME | ZONE
  | INT | INTEGER | BIGINT | SMALLINT | TEXT | VARCHAR | CHAR | STRING | FLOAT | DOUBLE
  | REAL | DECIMAL | BOOL | BOOLEAN | TIMESTAMP | DATETIME | DATE
  deriving DecidableEq, Repr

namespace Keyword

/-- The canonical spelling. -/
def text : Keyword → String
  | SELECT => "SELECT"
  | INSERT => "INSERT"
  | UPDATE => "UPDATE"
  | DELETE => "DELETE"
  | CREATE => "CREATE"
  | DROP => "DROP"
  | TRUNCATE => "TRUNCATE"
  | FROM => "FROM"
  | WHERE => "WHERE"
  | JOIN => "JOIN"
  | INNER => "INNER"
  | LEFT => "LEFT"
  | OUTER => "OUTER"
  | ON => "ON"
  | ORDER => "ORDER"
  | BY => "BY"
  | ASC => "ASC"
  | DESC => "DESC"
  | LIMIT => "LIMIT"
  | OFFSET => "OFFSET"
  | FOR => "FOR"
  | INTO => "INTO"
  | VALUES => "VALUES"
  | RETURNING => "RETURNING"
  | SET => "SET"
  | TABLE => "TABLE"
  | IF => "IF"
  | EXISTS => "EXISTS"
  | AND => "AND"
  | OR => "OR"
  | NOT => "NOT"
  | IS => "IS"
  | NULL => "NULL"
  | TRUE => "TRUE"
  | FALSE => "FALSE"
  | COUNT => "COUNT"
  | MIN => "MIN"
  | MAX => "MAX"
  | SUM => "SUM"
  | AVG => "AVG"
  | CURRENT_TIMESTAMP => "CURRENT_TIMESTAMP"
  | NOW => "NOW"
  | DEFAULT => "DEFAULT"
  | AUTOINCREMENT => "AUTOINCREMENT"
  | PRIMARY => "PRIMARY"
  | KEY => "KEY"
  | UNIQUE => "UNIQUE"
  | WITH => "WITH"
  | TIME => "TIME"
  | ZONE => "ZONE"
  | INT => "INT"
  | INTEGER => "INTEGER"
  | BIGINT => "BIGINT"
  | SMALLINT => "SMALLINT"
  | TEXT => "TEXT"
  | VARCHAR => "VARCHAR"
  | CHAR => "CHAR"
  | STRING => "STRING"
  | FLOAT => "FLOAT"
  | DOUBLE => "DOUBLE"
  | REAL => "REAL"
  | DECIMAL => "DECIMAL"
  | BOOL => "BOOL"
  | BOOLEAN => "BOOLEAN"
  | TIMESTAMP => "TIMESTAMP"
  | DATETIME => "DATETIME"
  | DATE => "DATE"

/-- Every keyword. -/
def all : List Keyword := [
  .SELECT, .INSERT, .UPDATE, .DELETE, .CREATE, .DROP, .TRUNCATE, .FROM, .WHERE, .JOIN, .INNER,
  .LEFT, .OUTER, .ON, .ORDER, .BY, .ASC, .DESC, .LIMIT, .OFFSET, .FOR, .INTO, .VALUES,
  .RETURNING, .SET, .TABLE, .IF, .EXISTS, .AND, .OR, .NOT, .IS, .NULL, .TRUE, .FALSE, .COUNT,
  .MIN, .MAX, .SUM, .AVG, .CURRENT_TIMESTAMP, .NOW, .DEFAULT, .AUTOINCREMENT, .PRIMARY, .KEY,
  .UNIQUE, .WITH, .TIME, .ZONE, .INT, .INTEGER, .BIGINT, .SMALLINT, .TEXT, .VARCHAR, .CHAR,
  .STRING, .FLOAT, .DOUBLE, .REAL, .DECIMAL, .BOOL, .BOOLEAN, .TIMESTAMP, .DATETIME, .DATE]

/-- Every keyword is in the list. -/
theorem mem_all (k : Keyword) : k ∈ all := by cases k <;> decide

/-- The keyword that a word spells, if any. -/
def ofWord? (word : String) : Option Keyword :=
  let spelled := Text.upper word
  if spelled = "AUTO_INCREMENT" then some AUTOINCREMENT
  else all.find? fun k => k.text = spelled

/-- A reserved keyword never names a table or a column, unless it is quoted. -/
def reserved : Keyword → Bool
  | KEY | TIME | ZONE | TEXT | STRING | DATE | TIMESTAMP | DATETIME => false
  | COUNT | MIN | MAX | SUM | AVG | NOW => false
  | _ => true

/-- The spelling that trees carry. -/
def lowerText (k : Keyword) : String := Text.lower k.text

/-- The words of a spelling, each with a capital and joined: `CurrentTimestamp`. -/
def title (k : Keyword) : String :=
  String.ofList (capitals true k.text.toList)
where
  /-- Capitals stay where a word starts; the underscores go. -/
  capitals (start : Bool) : List Char → List Char
    | [] => []
    | c :: rest =>
      if c = '_' then capitals true rest
      else (if start then c else c.toLower) :: capitals false rest

end Keyword

end Grammar
end MiniSql
