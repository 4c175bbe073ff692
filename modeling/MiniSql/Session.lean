/-
# Sessions

A session runs statements on one database, one after the other. The clock goes on from statement to
statement.
-/

import MiniSql.Database

namespace MiniSql

/-- A statement with its arguments. -/
structure Statement where
  sql : String
  arguments : List Value
  deriving DecidableEq, Repr

/-- A database and the clock that its statements read. -/
structure Session where
  database : Database
  clock : Time.Clock

namespace Session

/-- A session on a database without tables. -/
def new (options : Options) (clock : Time.Clock) : Session := ⟨.new options, clock⟩

/-- Runs a statement. -/
def execute (s : Session) (st : Statement) : Except Error Answer × Session :=
  let ((answer, database), clock) := (s.database.execute st.sql st.arguments).run s.clock
  (answer, ⟨database, clock⟩)

/-- Runs statements in turn, whether or not they are refused. -/
def run (s : Session) : List Statement → List (Except Error Answer) × Session
  | [] => ([], s)
  | st :: rest =>
    let (answer, s) := s.execute st
    let (answers, s) := s.run rest
    (answer :: answers, s)

end Session

end MiniSql
