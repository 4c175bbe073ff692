/-
# White space

The characters with the Unicode property `White_Space`. They separate tokens, and a date may be
written with any of them between its parts. Other invisible characters, such as the zero width
space, are not blank.
-/

import MiniSql.Text.Range

namespace MiniSql
namespace Text

/-- The blank characters. -/
def blankRanges : List (Nat × Nat) := [
  (9, 13), (32, 32), (133, 133), (160, 160), (5760, 5760), (8192, 8202), (8232, 8233),
  (8239, 8239), (8287, 8287), (12288, 12288)]

/-- A white space character. -/
def isBlank (c : Char) : Bool := inRanges blankRanges c.toNat

/-- The text from its first character that is not blank. -/
def skipBlank (s : List Char) : List Char := s.dropWhile isBlank

end Text
end MiniSql
