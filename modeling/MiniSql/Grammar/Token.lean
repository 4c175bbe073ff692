/-
# Tokens

A token is a kind, a lexeme and the byte offset at which it stands in the text. The lexeme of a
quoted name or string is what the quotes hold, that of a bare word is the word in lower case, and
that of a keyword is the word as it was written. What cannot be read is a token too, of the kind
`invalid`, so that a text always has its tokens.
-/

import MiniSql.Grammar.Keyword

namespace MiniSql
namespace Grammar

/-- What a token is. -/
inductive Kind where
  | keyword (k : Keyword)
  | ident
  | string
  | number
  | placeholder
  | openParen
  | closeParen
  | comma
  | semicolon
  | period
  | asterisk
  | minus
  | equal
  | notEqual
  | less
  | lessEqual
  | greater
  | greaterEqual
  | invalid
  deriving DecidableEq, Repr

namespace Kind

/-- The kind as a message asks for it. -/
def describe : Kind → String
  | keyword k => k.text
  | ident => "identifier"
  | string => "string"
  | number => "number"
  | placeholder => "placeholder"
  | openParen => "("
  | closeParen => ")"
  | comma => ","
  | semicolon => ";"
  | period => "."
  | asterisk => "*"
  | minus => "-"
  | equal => "="
  | notEqual => "!="
  | less => "<"
  | lessEqual => "<="
  | greater => ">"
  | greaterEqual => ">="
  | invalid => "invalid input"

/-- The kind as the outline of a tree names it. -/
def title : Kind → String
  | keyword k => "Keyword(" ++ k.title ++ ")"
  | ident => "Ident"
  | string => "String"
  | number => "Number"
  | placeholder => "Placeholder"
  | openParen => "OpenParen"
  | closeParen => "CloseParen"
  | comma => "Comma"
  | semicolon => "Semicolon"
  | period => "Period"
  | asterisk => "Asterisk"
  | minus => "Minus"
  | equal => "Equal"
  | notEqual => "NotEqual"
  | less => "Less"
  | lessEqual => "LessEqual"
  | greater => "Greater"
  | greaterEqual => "GreaterEqual"
  | invalid => "Invalid"

/-- The kinds that compare two values. -/
def isComparison : Kind → Bool
  | equal | notEqual | less | lessEqual | greater | greaterEqual => true
  | _ => false

end Kind

/-- One token of a text. -/
structure Token where
  kind : Kind
  lexeme : String
  /-- The byte offset in the text, counted in `UTF-8`. -/
  position : Nat
  deriving DecidableEq, Repr

/-- The keyword that the token is, if it is one. -/
def Token.keyword? (t : Token) : Option Keyword :=
  match t.kind with
  | .keyword k => some k
  | _ => none

end Grammar
end MiniSql
