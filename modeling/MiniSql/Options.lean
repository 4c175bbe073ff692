/-
# Data source names

A data source name is the name of a database and, behind the first question mark, options for it:
`accounts?autoincrement_start=100&strict_params=false`. The options are written like the query of
a web address: pairs separated by `&`, a plus sign for a space, and `%` with two hexadecimal
digits for a byte. Options of other names are passed over, and none may be given twice.

No option has a name or a value outside `ASCII`, so a byte of 128 or more is read as a character
that none of them holds, whatever text it is a part of.
-/

import MiniSql.Error

namespace MiniSql

/-- How a database behaves. -/
structure Options where
  /-- The first number of the autoincrement columns of a new table. -/
  autoincrementStart : Int64
  /-- Refuse a statement that is given more arguments than it uses. -/
  strictParams : Bool
  deriving DecidableEq, Repr

namespace Options

/-- The options of a name that gives none. -/
def standard : Options := ⟨1, true⟩

/-- What stands before the first separator and what stands behind it. -/
def splitFirst (separator : Char) (s : List Char) : List Char × Option (List Char) :=
  match s.dropWhile (· != separator) with
  | [] => (s, none)
  | _ :: rest => (s.takeWhile (· != separator), some rest)

/-- What stands between separators. -/
def splitAll (separator : Char) : List Char → List (List Char)
  | [] => [[]]
  | c :: rest =>
    if c = separator then [] :: splitAll separator rest
    else
      match splitAll separator rest with
      | [] => [[c]]
      | field :: fields => (c :: field) :: fields

/-- The value of a hexadecimal digit. -/
def hexValue? (c : Char) : Option Nat :=
  if c.isDigit then some (c.toNat - '0'.toNat)
  else if 'a' ≤ c ∧ c ≤ 'f' then some (c.toNat - 'a'.toNat + 10)
  else if 'A' ≤ c ∧ c ≤ 'F' then some (c.toNat - 'A'.toNat + 10)
  else none

/-- The character of a byte; a replacement for one that is not `ASCII`. -/
def byteChar (byte : Nat) : Char := if byte < 128 then Char.ofNat byte else '\ufffd'

/-- The byte that two hexadecimal digits spell. -/
def hexByte? (high low : Char) : Option Nat := do return 16 * (← hexValue? high) + (← hexValue? low)

/-- The text that is meant by a part of the options. A percent sign without two hexadecimal
digits is itself. -/
def decode : List Char → List Char
  | '+' :: rest => ' ' :: decode rest
  | '%' :: high :: low :: rest =>
    match hexByte? high low with
    | some byte => byteChar byte :: decode rest
    | none => '%' :: decode (high :: low :: rest)
  | c :: rest => c :: decode rest
  | [] => []

/-- The pairs of names and values. -/
def pairs (s : List Char) : List (String × String) :=
  ((splitAll '&' s).filter fun field => !field.isEmpty).map fun field =>
    let (name, value) := splitFirst '=' field
    (String.ofList (decode name), String.ofList (decode (value.getD [])))

/-- The options read so far; an option that has not been given is `none`. -/
structure Given where
  start : Option Int64
  strict : Option Bool

/-- One more pair. -/
def Given.add (g : Given) (pair : String × String) : Except OptionFault Given :=
  if pair.1 = "autoincrement_start" then
    if g.start.isSome then .error (.repeated pair.1)
    else
      match Number.readInteger pair.2 with
      | .ok i => .ok { g with start := some i }
      | .error fault => .error (.badInteger fault)
  else if pair.1 = "strict_params" then
    if g.strict.isSome then .error (.repeated pair.1)
    else if pair.2 = "true" then .ok { g with strict := some true }
    else if pair.2 = "false" then .ok { g with strict := some false }
    else .error .badFlag
  else .ok g

/-- The options that a text gives. -/
def read (s : List Char) : Except OptionFault Options := do
  let given ← (pairs s).foldlM Given.add ⟨none, none⟩
  return ⟨given.start.getD standard.autoincrementStart, given.strict.getD standard.strictParams⟩

/-- The database that a data source name means, and its options. -/
def ofSource (source : String) : Except Error (String × Options) :=
  match splitFirst '?' source.toList with
  | (_, none) => .ok (source, standard)
  | (name, some options) =>
    match read options with
    | .ok o => .ok (String.ofList name, o)
    | .error fault => .error (.internal (.badOptions fault))

end Options

end MiniSql
