/-
# Clients

A client opens connections to databases by their data source names and runs statements on them.
The databases of one name are one database, made by the first name that opens it with the options
given there. Connections and cursors are kept under names that the client chooses.
-/

import MiniSql.Client.Cursor

namespace MiniSql

/-- What a client asks for. -/
inductive Request where
  | connect (connection source : String)
  | exec (connection sql : String) (arguments : List Value)
  | query (connection cursor sql : String) (arguments : List Value)
  | queryRow (connection sql : String) (arguments : List Value) (destinations : List Destination)
  | next (cursor : String)
  | columns (cursor : String)
  | get (cursor : String) (index : Nat) (destination : Destination)
  | scan (cursor : String) (destinations : List Destination)
  deriving DecidableEq, Repr

/-- What a client is told. -/
inductive Reply where
  | opened
  | executed (count : Nat) (lastNumber : Option Int64)
  | columns (names : List String)
  | row (row : Option Row)
  | moved (found : Bool)
  | value (v : Value)
  | refused (e : Error)
  | noConnection
  | noCursor
  deriving DecidableEq, Repr

/-- The databases, the connections to them, the cursors and the clock. -/
structure Client where
  databases : SortedMap String Database
  /-- The database that a connection leads to. -/
  connections : SortedMap String String
  cursors : SortedMap String Cursor
  clock : Time.Clock

namespace Client

/-- A client that has opened nothing. -/
def new (clock : Time.Clock) : Client := ⟨.empty, .empty, .empty, clock⟩

/-- Opens a connection, and makes the database if there is none of its name. A connection of the
same name is replaced, unless the data source name is refused. -/
def connect (c : Client) (connection source : String) : Client × Reply :=
  match Options.ofSource source with
  | .error e => (c, .refused e)
  | .ok (name, options) =>
    let databases :=
      if c.databases.contains name then c.databases
      else c.databases.insert name (.new options)
    ({ c with databases := databases, connections := c.connections.insert connection name }, .opened)

/-- Runs a statement on a connection, if there is one of the name. -/
def execute (c : Client) (connection sql : String) (arguments : List Value) :
    Client × Option (Except Error Answer) :=
  match c.connections.get? connection with
  | none => (c, none)
  | some name =>
    match c.databases.get? name with
    | none => (c, none)
    | some d =>
      let ((answer, d), clock) := (d.execute sql arguments).run c.clock
      ({ c with databases := c.databases.insert name d, clock := clock }, some answer)

/-- The reply for a statement whose rows are not wanted. -/
def execReply : Option (Except Error Answer) → Reply
  | none => .noConnection
  | some (.error e) => .refused e
  | some (.ok (.inserted n last)) => .executed n last
  | some (.ok answer) => .executed answer.count none

/-- Runs a query and keeps a cursor for its rows. A cursor of the same name is dropped first. -/
def query (c : Client) (connection cursor sql : String) (arguments : List Value) :
    Client × Reply :=
  match { c with cursors := c.cursors.erase cursor }.execute connection sql arguments with
  | (c, none) => (c, .noConnection)
  | (c, some (.error e)) => (c, .refused e)
  | (c, some (.ok answer)) =>
    let rows := Cursor.ofAnswer answer
    ({ c with cursors := c.cursors.insert cursor rows }, .columns rows.columns)

/-- The reply with the first row of a query. -/
def firstRow (destinations : List Destination) : Option (Except Error Answer) → Reply
  | none => .noConnection
  | some (.error e) => .refused e
  | some (.ok answer) =>
    match (Cursor.ofAnswer answer).next.1.current with
    | none => .row none
    | some row =>
      match Cursor.readRow destinations row with
      | .ok row => .row (some row)
      | .error e => .refused e

/-- The reply of a cursor that stays where it is. -/
def inspect (c : Client) (cursor : String) (reply : Cursor → Reply) : Client × Reply :=
  match c.cursors.get? cursor with
  | some rows => (c, reply rows)
  | none => (c, .noCursor)

/-- Moves a cursor. -/
def move (c : Client) (cursor : String) : Client × Reply :=
  match c.cursors.get? cursor with
  | some rows =>
    let (rows, found) := rows.next
    ({ c with cursors := c.cursors.insert cursor rows }, .moved found)
  | none => (c, .noCursor)

/-- Answers a request. -/
def answer (c : Client) : Request → Client × Reply
  | .connect connection source => c.connect connection source
  | .exec connection sql arguments =>
    let (c, result) := c.execute connection sql arguments
    (c, execReply result)
  | .query connection cursor sql arguments => c.query connection cursor sql arguments
  | .queryRow connection sql arguments destinations =>
    let (c, result) := c.execute connection sql arguments
    (c, firstRow destinations result)
  | .next cursor => c.move cursor
  | .columns cursor => c.inspect cursor fun rows => .columns rows.columns
  | .get cursor index destination => c.inspect cursor fun rows =>
    match rows.get index destination with
    | .ok v => .value v
    | .error e => .refused e
  | .scan cursor destinations => c.inspect cursor fun rows =>
    match rows.scan destinations with
    | .ok row => .row (some row)
    | .error e => .refused e

/-- Answers some requests in turn. -/
def answerAll (c : Client) : List Request → Client × List Reply
  | [] => (c, [])
  | request :: requests =>
    let (c, reply) := c.answer request
    let (c, replies) := c.answerAll requests
    (c, reply :: replies)

end Client

end MiniSql
