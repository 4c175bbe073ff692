/-
# Errors

Why a statement is refused. A text that is no statement has a fault; otherwise the error is one
of the schema, of a constraint, of the parameters, or internal. Each error is a cause with what it
speaks of; the words are found in `Error.message` alone.
-/

import MiniSql.Grammar.Statement
import MiniSql.Reference
import MiniSql.Value

namespace MiniSql

/-- A table, a column or a value is not what the statement takes it for. -/
inductive SchemaError where
  | badInteger (fault : Number.IntegerFault)
  | badFloat (fault : Number.FloatFault)
  | badTimestamp (text : String)
  /-- A value that no column of the type can store. -/
  | unstorable (value : Value) (type : DataType)
  /-- A value that this column cannot store. -/
  | unfit (column : String) (type : DataType)
  | ambiguous (column : ColumnRef)
  | noColumn (column : ColumnRef)
  | columnNotFound (column table : String)
  | noTable (table : String)
  | tableExists (table : String)
  | tableNotInQuery (table : String)
  | defaultInExpression
  | columnInValues (column : ColumnRef)
  | mixedAggregates
  | notSummable (value : Value)
  | notAveragable (value : Value)
  | unknownType (column : String)
  | defaultNotConstant (column : String)
  | nullPrimaryKey (column : String)
  | nullAndNotNull (column : String)
  | noColumns (table : String)
  | duplicateColumn (column table : String)
  | autoincrementType (column : String)
  | onUpdateType (column : String)
  | defaultNowType (column : String)
  | nullDefault (column : String)
  | manyPrimaryKeys (table : String)
  | namedTwice (column : String)
  | assignedTwice (column : String)
  /-- The values supplied are fewer or more than the columns of the table. -/
  | suppliedWidth (table : String) (columns values : Nat)
  /-- The values supplied are fewer or more than the columns named. -/
  | namedWidth (columns values : Nat)
  | rowWidth (table : String) (columns values : Nat)
  deriving DecidableEq, Repr

/-- A rule of the table would be broken. -/
inductive ConstraintError where
  | notNull (column : String)
  | noDefault (column : String)
  | autoincrement (column : String)
  | duplicateKey (value : Value) (table column : String)
  deriving DecidableEq, Repr

/-- The statement and what it was given do not agree. -/
inductive ParameterError where
  | badPlaceholder (placeholder : String)
  | placeholderGap (highest used : Nat)
  | argumentCount (used given : Nat)
  | noArgument (placeholder : String)
  | noCurrentRow
  | columnIndex (index width : Nat)
  | mismatch (value : Value) (target : String)
  | destinations (width given : Nat)
  deriving DecidableEq, Repr

/-- Why the options of a data source name cannot be read. -/
inductive OptionFault where
  | repeated (option : String)
  | badInteger (fault : Number.IntegerFault)
  | badFlag
  deriving DecidableEq, Repr

/-- What is asked for has a shape that no statement has. -/
inductive InternalError where
  | emptyStatement
  | cannotPlan (lexeme : String)
  | joinWithoutFrom
  | sortWithoutColumn
  | unexpectedClause (lexeme : String)
  | selectWithoutFrom
  | insertWithoutInto
  | deleteWithoutFrom
  | createWithoutTable
  | malformedAssignment
  | malformedNullTest
  | withoutWhere (lexeme : String)
  | withoutTable (lexeme : String)
  | noOperand (lexeme : String)
  | notTwoOperands (lexeme : String)
  | unexpectedValue (lexeme : String)
  | noValue (column : ColumnRef)
  | rowVanished (id : Nat) (table : String)
  | notLocked (table : String)
  | readLocked (table : String)
  | badOptions (fault : OptionFault)
  deriving DecidableEq, Repr

/-- Why a statement is refused. -/
inductive Error where
  | grammar (fault : Grammar.Fault)
  | schema (cause : SchemaError)
  | constraint (cause : ConstraintError)
  | parameter (cause : ParameterError)
  | internal (cause : InternalError)
  deriving DecidableEq, Repr

/-- The cause in words. -/
def SchemaError.message : SchemaError → String
  | badInteger fault => fault.message
  | badFloat fault => fault.message
  | badTimestamp text => "invalid timestamp '" ++ text ++ "'"
  | unstorable value type => "cannot store value " ++ value.shown ++ " in a " ++ type.name ++ " column"
  | unfit column type => "column " ++ column ++ " of type " ++ type.name ++ " cannot hold this value"
  | ambiguous column => "column reference " ++ column.text ++ " is ambiguous"
  | noColumn column => "column " ++ column.text ++ " does not exist"
  | columnNotFound column table => "column " ++ column ++ " not found in table " ++ table
  | noTable table => "table " ++ table ++ " does not exist"
  | tableExists table => "table " ++ table ++ " already exists"
  | tableNotInQuery table => "table " ++ table ++ " is not part of the query"
  | defaultInExpression => "DEFAULT is not allowed in an expression"
  | columnInValues column => "column reference " ++ column.text ++ " is not allowed in VALUES"
  | mixedAggregates => "cannot mix aggregate functions and plain columns without GROUP BY"
  | notSummable value => "can not sum non-numeric value " ++ value.shown
  | notAveragable value => "can not average non-numeric value " ++ value.shown
  | unknownType column => "column " ++ column ++ " has an unknown type"
  | defaultNotConstant column => "default of column " ++ column ++ " must be a constant"
  | nullPrimaryKey column => "primary key " ++ column ++ " cannot be NULL"
  | nullAndNotNull column => "column " ++ column ++ " is both NULL and NOT NULL"
  | noColumns table => "table " ++ table ++ " has no columns"
  | duplicateColumn column table => "duplicate column " ++ column ++ " in table " ++ table
  | autoincrementType column => "autoincrement column " ++ column ++ " must be an integer"
  | onUpdateType column => "ON UPDATE CURRENT_TIMESTAMP column " ++ column ++ " must be a timestamp"
  | defaultNowType column => "DEFAULT CURRENT_TIMESTAMP column " ++ column ++ " must be a timestamp"
  | nullDefault column => "NOT NULL column " ++ column ++ " cannot default to NULL"
  | manyPrimaryKeys table => "Multiple primary keys for table " ++ table
  | namedTwice column => "column " ++ column ++ " specified more than once"
  | assignedTwice column => "column " ++ column ++ " assigned more than once"
  | suppliedWidth table columns values =>
    "table " ++ table ++ " has " ++ toString columns ++ " columns but " ++ toString values
      ++ " values were supplied"
  | namedWidth columns values =>
    toString columns ++ " columns named but " ++ toString values ++ " values supplied"
  | rowWidth table columns values =>
    "table " ++ table ++ " has " ++ toString columns ++ " columns but row has " ++ toString values
      ++ " values"

/-- The cause in words. -/
def ConstraintError.message : ConstraintError → String
  | notNull column => "column " ++ column ++ " cannot be null"
  | noDefault column => "column " ++ column ++ " has no default"
  | autoincrement column => "column " ++ column ++ " is autoincrement and cannot be assigned"
  | duplicateKey value table column =>
    "duplicate value " ++ value.shown ++ " for primary key " ++ label table column

/-- The cause in words. -/
def ParameterError.message : ParameterError → String
  | badPlaceholder placeholder => "invalid placeholder " ++ placeholder
  | placeholderGap highest used =>
    "placeholder $" ++ toString highest ++ " used but only " ++ toString used
      ++ " distinct placeholders appear"
  | argumentCount used given =>
    "statement expects " ++ toString used ++ " arguments, got " ++ toString given
  | noArgument placeholder => "no argument for " ++ placeholder
  | noCurrentRow => "no current row, call next() first"
  | columnIndex index width =>
    "column index " ++ toString index ++ " out of range for " ++ toString width ++ " columns"
  | mismatch value target => "can not scan " ++ value.shown ++ " into " ++ target
  | destinations width given =>
    "row has " ++ toString width ++ " columns but " ++ toString given ++ " destinations were given"

/-- The fault in words. -/
def OptionFault.message : OptionFault → String
  | repeated option => "duplicate field `" ++ option ++ "`"
  | badInteger fault => fault.message
  | badFlag => "provided string was not `true` or `false`"

/-- The cause in words. -/
def InternalError.message : InternalError → String
  | emptyStatement => "empty instruction"
  | cannotPlan lexeme => "cannot plan statement " ++ lexeme
  | joinWithoutFrom => "JOIN without FROM"
  | sortWithoutColumn => "ORDER BY term without column"
  | unexpectedClause lexeme => "unexpected SELECT clause " ++ lexeme
  | selectWithoutFrom => "SELECT without FROM"
  | insertWithoutInto => "INSERT without INTO"
  | deleteWithoutFrom => "DELETE without FROM"
  | createWithoutTable => "CREATE without TABLE"
  | malformedAssignment => "malformed SET assignment"
  | malformedNullTest => "malformed IS predicate"
  | withoutWhere lexeme => lexeme ++ " without WHERE"
  | withoutTable lexeme => lexeme ++ " without table"
  | noOperand lexeme => lexeme ++ " has no operand"
  | notTwoOperands lexeme => lexeme ++ " expects two operands"
  | unexpectedValue lexeme => "unexpected value " ++ lexeme
  | noValue column => "row has no value for " ++ column.text
  | rowVanished id table =>
    "row " ++ toString id ++ " of table " ++ table ++ " vanished during update"
  | notLocked table => "table " ++ table ++ " is not locked"
  | readLocked table => "table " ++ table ++ " is only read locked"
  | badOptions fault => "invalid data source options: " ++ fault.message

/-- The error in words, after the word for its kind. -/
def Error.message : Error → String
  | grammar fault => fault.message
  | schema cause => "schema error: " ++ cause.message
  | constraint cause => "constraint violation: " ++ cause.message
  | parameter cause => "parameter error: " ++ cause.message
  | internal cause => "internal error: " ++ cause.message

end MiniSql
