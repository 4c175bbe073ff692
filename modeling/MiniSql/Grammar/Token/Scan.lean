/-
# Cutting a text into tokens

Between tokens stand gaps of white space and of comments, which run from `--` to the end of the
line. At the first character that is no gap, `cut` takes one token off the text. It takes at
least that character, so the rest is shorter and the scan ends.

A number is digits, with at most one full stop after the first of them. A word is a keyword if it
spells one, and else an identifier. A quote that is never closed makes one invalid token of all
that follows it.

| theorem | what it says |
| --- | --- |
| `splitGap_append` | a gap and what follows it are the text |
| `cut_append` | a token and what follows it are the text |
-/

import MiniSql.Grammar.Quoted
import MiniSql.Grammar.Token
import MiniSql.Text.Blank
import MiniSql.Text.Letter

namespace MiniSql
namespace Grammar

-- A sum begins with the numeral, whatever algebra is imported beside.
attribute [local instance (high)] Zero.ofOfNat0

/-- The length of a text in bytes of `UTF-8`. -/
def byteLength (s : List Char) : Nat := (s.map Char.utf8Size).sum

/-- The empty text has no bytes. -/
@[simp] theorem byteLength_nil : byteLength [] = 0 := rfl

/-- The bytes of a text are those of its characters. -/
@[simp] theorem byteLength_cons (c : Char) (s : List Char) :
    byteLength (c :: s) = c.utf8Size + byteLength s := by simp [byteLength]

/-- The bytes of two texts are those of both. -/
@[simp] theorem byteLength_append (s t : List Char) :
    byteLength (s ++ t) = byteLength s + byteLength t := by simp [byteLength]

/-- The gap at the start of a text, and the text from its next token on. With `comment` the text
starts inside a comment. -/
def splitGap (comment : Bool) : List Char → List Char × List Char
  | [] => ([], [])
  | c :: rest =>
    let further (comment : Bool) :=
      let (skipped, left) := splitGap comment rest
      (c :: skipped, left)
    if comment then further (c != '\n')
    else if Text.isBlank c then further false
    else if c = '-' ∧ rest.head? = some '-' then further true
    else ([], c :: rest)

/-- **A gap takes nothing but itself off a text.** -/
theorem splitGap_append (comment : Bool) (s : List Char) :
    (splitGap comment s).1 ++ (splitGap comment s).2 = s := by
  induction s generalizing comment with
  | nil => rfl
  | cons c rest ih =>
    unfold splitGap
    split
    · simp [ih]
    · split
      · simp [ih]
      · split <;> simp [ih]

/-- A token without its position, and what it leaves of the text. -/
structure Cut where
  kind : Kind
  lexeme : String
  /-- What the token takes off the text behind its first character. -/
  taken : List Char
  rest : List Char

/-- What the quotes hold is the lexeme; without a closing quote the text itself is. -/
def cutQuoted (kind : Kind) (quote : Char) (s : List Char) : Cut :=
  match unquote quote s with
  | some (held, rest) => ⟨kind, String.ofList held, double quote held ++ [quote], rest⟩
  | none => ⟨.invalid, String.ofList (quote :: s), s, []⟩

/-- A placeholder is a dollar sign and its number. -/
def cutPlaceholder (s : List Char) : Cut :=
  match s.takeWhile Char.isDigit with
  | [] => ⟨.invalid, "$", [], s⟩
  | d :: ds =>
    ⟨.placeholder, String.ofList ('$' :: d :: ds), d :: ds, s.dropWhile Char.isDigit⟩

/-- A number that starts with the digit `c`. -/
def cutNumber (c : Char) (s : List Char) : Cut :=
  let whole := s.takeWhile Char.isDigit
  match s.dropWhile Char.isDigit with
  | '.' :: rest =>
    let taken := whole ++ '.' :: rest.takeWhile Char.isDigit
    ⟨.number, String.ofList (c :: taken), taken, rest.dropWhile Char.isDigit⟩
  | rest => ⟨.number, String.ofList (c :: whole), whole, rest⟩

/-- A bare word that starts with `c`. -/
def cutWord (c : Char) (s : List Char) : Cut :=
  let taken := s.takeWhile Text.isWordPart
  let rest := s.dropWhile Text.isWordPart
  let word := String.ofList (c :: taken)
  match Keyword.ofWord? word with
  | some k => ⟨.keyword k, word, taken, rest⟩
  | none => ⟨.ident, Text.lower word, taken, rest⟩

/-- The symbol that a character is by itself. -/
def symbol : Char → Kind
  | '*' => .asterisk
  | '(' => .openParen
  | ')' => .closeParen
  | ',' => .comma
  | ';' => .semicolon
  | '.' => .period
  | '-' => .minus
  | '=' => .equal
  | '<' => .less
  | '>' => .greater
  | _ => .invalid

/-- The symbol that two characters are together. -/
def doubleSymbol? : Char → Char → Option Kind
  | '!', '=' => some .notEqual
  | '<', '=' => some .lessEqual
  | '<', '>' => some .notEqual
  | '>', '=' => some .greaterEqual
  | _, _ => none

/-- A symbol that starts with `c`; one of two characters is preferred. -/
def cutSymbol (c : Char) : List Char → Cut
  | [] => ⟨symbol c, c.toString, [], []⟩
  | d :: rest =>
    match doubleSymbol? c d with
    | some kind => ⟨kind, String.ofList [c, d], [d], rest⟩
    | none => ⟨symbol c, c.toString, [], d :: rest⟩

/-- Takes the token that starts with `c` off a text. -/
def cut (c : Char) (s : List Char) : Cut :=
  if c = '\'' then cutQuoted .string c s
  else if c = '"' ∨ c = '\x60' then cutQuoted .ident c s
  else if c = '$' then cutPlaceholder s
  else if c.isDigit then cutNumber c s
  else if Text.isWordStart c then cutWord c s
  else cutSymbol c s

/-- **A token takes nothing but itself off a text.** -/
theorem cut_append (c : Char) (s : List Char) : (cut c s).taken ++ (cut c s).rest = s := by
  unfold cut
  split
  · exact quoted_append _ _ _
  split
  · exact quoted_append _ _ _
  split
  · have h := List.takeWhile_append_dropWhile (p := Char.isDigit) (l := s)
    unfold cutPlaceholder
    split <;> simp_all
  split
  · have h := List.takeWhile_append_dropWhile (p := Char.isDigit) (l := s)
    unfold cutNumber
    dsimp only
    split <;> simp_all
  split
  · unfold cutWord
    dsimp only
    split <;> exact List.takeWhile_append_dropWhile
  · unfold cutSymbol
    split
    · rfl
    · split <;> rfl
where
  quoted_append (kind : Kind) (c : Char) (s : List Char) :
      (cutQuoted kind c s).taken ++ (cutQuoted kind c s).rest = s := by
    unfold cutQuoted
    split
    · rename_i h
      simp [eq_double_of_unquote h]
    · simp

/-- The tokens of a text that stands at the given byte offset. -/
def scan (position : Nat) (s : List Char) : List Token :=
  match _h : splitGap false s with
  | (_, []) => []
  | (skipped, c :: rest) =>
    let start := position + byteLength skipped
    let t := cut c rest
    ⟨t.kind, t.lexeme, start⟩ :: scan (start + byteLength (c :: t.taken)) t.rest
termination_by s.length
decreasing_by
  have h₁ := congrArg List.length (splitGap_append false s)
  have h₂ := congrArg List.length (cut_append c rest)
  rw [_h] at h₁
  simp only [List.length_append, List.length_cons] at h₁ h₂
  omega

/-- A text that is all gap has no tokens. -/
theorem scan_of_gap {position : Nat} {s skipped : List Char}
    (h : splitGap false s = (skipped, [])) : scan position s = [] := by
  rw [scan]
  split
  · rfl
  · rename_i h'
    rw [h] at h'
    cases h'

/-- Behind the gap a token is cut, and the rest is scanned. -/
theorem scan_of_token {position : Nat} {s skipped rest : List Char} {c : Char}
    (h : splitGap false s = (skipped, c :: rest)) :
    scan position s =
      ⟨(cut c rest).kind, (cut c rest).lexeme, position + byteLength skipped⟩ ::
        scan (position + byteLength skipped + byteLength (c :: (cut c rest).taken))
          (cut c rest).rest := by
  rw [scan]
  split
  · rename_i h'
    rw [h] at h'
    cases h'
  · rename_i h'
    rw [h] at h'
    cases h'
    rfl

/-- The tokens of a text. -/
def tokenize (text : String) : List Token := scan 0 text.toList

end Grammar
end MiniSql
