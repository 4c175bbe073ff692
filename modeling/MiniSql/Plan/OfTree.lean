/-
# Planning a statement

`Plan.ofTrees` turns the tree of a statement into its plan and puts the arguments in place of the
placeholders. It reads the parts of a tree by their kinds, and refuses what no statement has.

A query scans and joins its tables, then filters, sorts, skips, cuts and shows. One that calls
functions shows their values instead and is not sorted, as it has a single row.
-/

import MiniSql.Plan
import MiniSql.Plan.Arguments
import MiniSql.Value.Coerce

namespace MiniSql

open Grammar (Tree Keyword Kind)

namespace Planning

/-- A number is an integer if it has no point and is not too large for one. -/
def number (lexeme : String) : Except Error Value :=
  let float : Except Error Value :=
    match Number.Binary64.read lexeme with
    | .ok x => .ok (.float x)
    | .error fault => .error (.schema (.badFloat fault))
  if lexeme.toList.contains '.' then float
  else
    match Number.readInteger lexeme with
    | .ok i => .ok (.integer i)
    | .error _ => float

/-- A number that counts rows. -/
def count (lexeme : String) : Except Error Nat :=
  match Number.readCount lexeme with
  | .ok n => .ok n
  | .error fault => .error (.schema (.badInteger fault))

/-- The column that a node refers to. -/
def columnRef (t : Tree) : ColumnRef := ⟨(t.part? .TABLE).map (·.lexeme), t.lexeme⟩

/-- The name of the table that is part of a node. -/
def tableName (t : Tree) : Except Error String :=
  match t.part? .TABLE with
  | some table => .ok table.lexeme
  | none => .error (.internal (.withoutTable t.lexeme))

/-- The first part of a node. -/
def operand (t : Tree) : Except Error Tree :=
  match t.children with
  | c :: _ => .ok c
  | [] => .error (.internal (.noOperand t.lexeme))

/-- A literal, an argument, the current time, a default or a column. -/
def value (arguments : List Value) (t : Tree) : Except Error Expression :=
  match t.kind with
  | .number => return .constant (← number t.lexeme)
  | .string => .ok (.constant (.text t.lexeme))
  | .placeholder => return .constant (← Arguments.argument arguments t.lexeme)
  | .keyword .NULL => .ok (.constant .null)
  | .keyword .TRUE => .ok (.constant (.boolean true))
  | .keyword .FALSE => .ok (.constant (.boolean false))
  | .keyword .CURRENT_TIMESTAMP => .ok .currentTime
  | .keyword .DEFAULT => .ok .default
  | .ident => .ok (.field (columnRef t))
  | _ => .error (.internal (.unexpectedValue t.lexeme))

/-- The sign that a kind of token stands for. -/
def comparison? : Kind → Option Comparison
  | .equal => some .equal
  | .notEqual => some .notEqual
  | .less => some .less
  | .lessEqual => some .lessEqual
  | .greater => some .greater
  | .greaterEqual => some .greaterEqual
  | _ => none

/-- A predicate. -/
def predicate (arguments : List Value) : Tree → Except Error Expression
  | ⟨.keyword .AND, _, [left, right]⟩ => do
    let l ← predicate arguments left
    let r ← predicate arguments right
    return .and l r
  | ⟨.keyword .OR, _, [left, right]⟩ => do
    let l ← predicate arguments left
    let r ← predicate arguments right
    return .or l r
  | ⟨.keyword .AND, lexeme, _⟩ => .error (.internal (.notTwoOperands lexeme))
  | ⟨.keyword .OR, lexeme, _⟩ => .error (.internal (.notTwoOperands lexeme))
  | ⟨.keyword .IS, _, [tested, null]⟩ => do
    return .isNull (← value arguments tested) (null.isWord .NOT)
  | ⟨.keyword .IS, _, _⟩ => .error (.internal .malformedNullTest)
  | ⟨kind, lexeme, children⟩ =>
    match comparison? kind, children with
    | some sign, [left, right] => do
      let l ← value arguments left
      let r ← value arguments right
      return .compare sign l r
    | some _, _ => .error (.internal (.notTwoOperands lexeme))
    | none, _ => value arguments ⟨kind, lexeme, children⟩

/-- The predicate of a `WHERE`. -/
def filter (arguments : List Value) (clause : Tree) : Except Error Expression := do
  predicate arguments (← operand clause)

/-- The predicate of a statement. -/
def filterOf (arguments : List Value) (statement : Tree) : Except Error Expression :=
  match statement.part? .WHERE with
  | some clause => filter arguments clause
  | none => .error (.internal (.withoutWhere statement.lexeme))

/-- The function that a keyword names. -/
def aggregate? : Keyword → Option Aggregate
  | .COUNT => some .count
  | .MIN => some .min
  | .MAX => some .max
  | .SUM => some .sum
  | .AVG => some .avg
  | _ => none

/-- A call of a function. -/
def call (function : Aggregate) (t : Tree) : Except Error AggregateCall := do
  let argument ← operand t
  return ⟨function, if argument.kind = .asterisk then none else some (columnRef argument)⟩

/-- The column of a sort key and its direction. -/
def sortKey (t : Tree) : Except Error (ColumnRef × Direction) :=
  match t.children with
  | column :: _ => .ok (columnRef column, if t.isWord .DESC then .descending else .ascending)
  | [] => .error (.internal .sortWithoutColumn)

/-- What has been read of a query. -/
structure Draft where
  items : List SelectItem := []
  calls : List AggregateCall := []
  source : Option Query := none
  predicate : Option Expression := none
  keys : List (ColumnRef × Direction) := []
  limit : Option Nat := none
  offset : Option Nat := none

/-- The query with one more table. -/
def Draft.addTable (d : Draft) (table : String) : Draft :=
  match d.source with
  | none => { d with source := some (.scan table) }
  | some left => { d with source := some (.join left (.scan table) none false) }

/-- A join with the tables before it. -/
def join (arguments : List Value) (left : Query) (t : Tree) : Except Error Query := do
  let table ← tableName t
  let condition ←
    match t.part? .ON with
    | some on => some <$> filter arguments on
    | none => pure none
  return .join left (.scan table) condition (t.part? .LEFT).isSome

/-- The query with one more part of its tree. -/
def Draft.add (arguments : List Value) (d : Draft) (t : Tree) : Except Error Draft :=
  match t.kind with
  | .asterisk =>
    match t.part? .TABLE with
    | some table => .ok { d with items := d.items ++ [.allOf table.lexeme] }
    | none => .ok { d with items := d.items ++ [.all] }
  | .ident => .ok { d with items := d.items ++ [.column (columnRef t)] }
  | .keyword .FROM => .ok ((t.children.map (·.lexeme)).foldl addTable d)
  | .keyword .JOIN =>
    match d.source with
    | none => .error (.internal .joinWithoutFrom)
    | some left => return { d with source := some (← join arguments left t) }
  | .keyword .WHERE => return { d with predicate := some (← filter arguments t) }
  | .keyword .ORDER => return { d with keys := d.keys ++ (← t.children.mapM sortKey) }
  | .keyword .LIMIT => return { d with limit := some (← count (← operand t).lexeme) }
  | .keyword .OFFSET => return { d with offset := some (← count (← operand t).lexeme) }
  | .keyword .FOR => .ok d
  | .keyword k =>
    match aggregate? k with
    | some function => return { d with calls := d.calls ++ [← call function t] }
    | none => .error (.internal (.unexpectedClause t.lexeme))
  | _ => .error (.internal (.unexpectedClause t.lexeme))

/-- The steps of a query in their order. -/
def Draft.query (d : Draft) : Except Error Query :=
  match d.source with
  | none => .error (.internal .selectWithoutFrom)
  | some source =>
    let filtered :=
      match d.predicate with
      | some p => .filter source p
      | none => source
    let paged (q : Query) : Query :=
      let skipped :=
        match d.offset with
        | some n => .offset q n
        | none => q
      match d.limit with
      | some n => .limit skipped n
      | none => skipped
    if d.calls.isEmpty then
      let sorted := if d.keys.isEmpty then filtered else .order filtered d.keys
      .ok (.projection (paged sorted) d.items)
    else if d.items.isEmpty then .ok (paged (.aggregate filtered d.calls))
    else .error (.schema .mixedAggregates)

/-- The plan of a `SELECT`. -/
def select (arguments : List Value) (t : Tree) : Except Error Plan := do
  let draft ← t.children.foldlM (Draft.add arguments) {}
  return .query (← draft.query)

/-- The plan of an `INSERT`. -/
def insert (arguments : List Value) (t : Tree) : Except Error Plan := do
  let into ←
    match t.part? .INTO with
    | some into => pure into
    | none => .error (.internal .insertWithoutInto)
  let table ← operand into
  let rows ←
    match t.part? .VALUES with
    | some values => values.children.mapM fun tuple => tuple.children.mapM (value arguments)
    | none => pure []
  let returning ←
    match t.part? .RETURNING with
    | some clause => (fun column => some (columnRef column)) <$> operand clause
    | none => pure none
  return .insert table.lexeme (table.children.map (·.lexeme)) rows returning

/-- One assignment of an `UPDATE`. -/
def assignment (arguments : List Value) (t : Tree) : Except Error (String × Expression) :=
  match t.children with
  | [column, new] => return (column.lexeme, ← value arguments new)
  | _ => .error (.internal .malformedAssignment)

/-- The plan of an `UPDATE`. -/
def update (arguments : List Value) (t : Tree) : Except Error Plan := do
  let assignments ←
    match t.part? .SET with
    | some clause => clause.children.mapM (assignment arguments)
    | none => pure []
  let table ← tableName t
  return .update table (← filterOf arguments t) assignments

/-- The plan of a `DELETE`. -/
def delete (arguments : List Value) (t : Tree) : Except Error Plan := do
  match t.part? .FROM with
  | none => .error (.internal .deleteWithoutFrom)
  | some source =>
    let table ← tableName source
    return .delete table (← filterOf arguments t)

/-- The type that a keyword names. -/
def dataType? : Kind → Option DataType
  | .keyword .INT | .keyword .INTEGER | .keyword .BIGINT | .keyword .SMALLINT => some .integer
  | .keyword .TEXT | .keyword .VARCHAR | .keyword .CHAR | .keyword .STRING => some .text
  | .keyword .FLOAT | .keyword .DOUBLE | .keyword .REAL | .keyword .DECIMAL => some .float
  | .keyword .BOOL | .keyword .BOOLEAN => some .boolean
  | .keyword .TIMESTAMP | .keyword .DATETIME | .keyword .DATE => some .timestamp
  | _ => none

/-- The default that a column is given. -/
def defaultOf (arguments : List Value) (c : Column) (t : Tree) : Except Error Default := do
  match ← value arguments (← operand t) with
  | .constant v => return .value (← v.coerce c.type)
  | .currentTime => return .now
  | _ => .error (.schema (.defaultNotConstant c.name))

/-- The column with one more modifier, and whether `NULL` has been written among them. -/
def modify (arguments : List Value) (read : Column × Bool) (t : Tree) :
    Except Error (Column × Bool) :=
  let (c, null) := read
  match t.kind with
  | .keyword .AUTOINCREMENT => .ok ({ c with autoincrement := true }, null)
  | .keyword .NOT => .ok ({ c with nullable := false }, null)
  | .keyword .NULL => .ok (c, true)
  | .keyword .PRIMARY => .ok ({ c with primaryKey := true }, null)
  | .keyword .ON => .ok ({ c with onUpdate := true }, null)
  | .keyword .DEFAULT => return ({ c with default := some (← defaultOf arguments c t) }, null)
  | _ => .ok (c, null)

/-- A column. A primary key is never `NULL`. -/
def column (arguments : List Value) (t : Tree) : Except Error Column := do
  let type ← operand t
  match dataType? type.kind with
  | none => .error (.schema (.unknownType t.lexeme))
  | some type =>
    let (c, null) ←
      (t.children.drop 1).foldlM (modify arguments) (Column.plain t.lexeme type, false)
    if c.primaryKey then
      if null then .error (.schema (.nullPrimaryKey c.name))
      else return { c with nullable := false }
    else if null ∧ !c.nullable then .error (.schema (.nullAndNotNull c.name))
    else return c

/-- The plan of a `CREATE`. -/
def create (arguments : List Value) (t : Tree) : Except Error Plan := do
  match t.part? .TABLE with
  | none => .error (.internal .createWithoutTable)
  | some table =>
    let columns ← table.children.mapM (column arguments)
    return .createTable ⟨table.lexeme, columns⟩ (t.part? .IF).isSome

/-- The plan of a statement whose arguments have been checked. -/
def statement (arguments : List Value) (t : Tree) : Except Error Plan :=
  match t.kind with
  | .keyword .SELECT => select arguments t
  | .keyword .INSERT => insert arguments t
  | .keyword .UPDATE => update arguments t
  | .keyword .DELETE => delete arguments t
  | .keyword .CREATE => create arguments t
  | .keyword .DROP => return .dropTable (← tableName t) (t.part? .IF).isSome
  | .keyword .TRUNCATE => return .truncate (← tableName t)
  | _ => .error (.internal (.cannotPlan t.lexeme))

end Planning

/-- The plan of the first of some trees, with arguments for its placeholders. -/
def Plan.ofTrees (trees : List Tree) (arguments : List Value) (strict : Bool) :
    Except Error Plan :=
  match trees with
  | [] => .error (.internal .emptyStatement)
  | t :: _ => do
    Arguments.check t arguments.length strict
    Planning.statement arguments t

end MiniSql
