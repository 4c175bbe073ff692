/-
# Names and strings in front of other text

A name is written as it is if it is plain, else in quotes, and a string is always written in quotes.
Either way it is one token again, with the name or the string as its lexeme. What follows keeps the
tokens it has alone and stands behind the bytes that were written, unless it goes on with them:

| what is written | goes on with |
| --- | --- |
| a plain name | a letter, a numeral or an underscore, in any script |
| a name in quotes | a double quote |
| a string | a single quote |

A space, a comma, a full stop and a closing parenthesis, which are what statements have there, do
none of it. What the quotes hold does not matter: `unquote_double` undoes the doubling, up to the
closing quote.
-/

import MiniSql.Grammar.Parser
import MiniSql.Proofs.Grammar.Slices

namespace MiniSql
namespace Grammar

/-- The text may stand behind a name or a string: it is empty, or starts with a space, a comma, a
full stop or a closing parenthesis. -/
def StandsBehind (r : String) : Prop :=
  ∀ c ∈ r.toList.head?, c = ' ' ∨ c = ',' ∨ c = '.' ∨ c = ')'

/-- What may stand behind a word ends it. -/
theorem StandsBehind.endsWord {r : String} (h : StandsBehind r) : EndsWord r.toList := by
  intro c hc
  have hends : EndsWord [c] := endsWord_cons (by grind [h c hc])
  exact hends c rfl

/-- A text that is cut off another one as a token leaves the tokens of the other one, moved behind
it. -/
theorem tokenize_append_of_scan {s r : String} {t : Token}
    (h : scan 0 (s.toList ++ r.toList) = t :: scan (0 + byteLength s.toList) r.toList) :
    tokenize (s ++ r) = t :: (tokenize r).map (Token.moved s.utf8ByteSize) := by
  rw [tokenize, String.toList_append, h, scan_eq_moved, Nat.zero_add, tokenize,
    utf8ByteSize_eq_byteLength]

/-- A name is one token in front of what goes on with no word and closes no quotes. -/
theorem tokenize_renderName (n : String) {r : String} (hr : EndsWord r.toList) :
    tokenize (renderName n ++ r) =
      ⟨.ident, n, 0⟩ :: (tokenize r).map (Token.moved (renderName n).utf8ByteSize) :=
  tokenize_append_of_scan (scan_name n hr 0)

/-- A string is one token in front of what does not start with its quote. -/
theorem tokenize_quoted (s : String) {r : String} (hr : r.toList.head? ≠ some '\'') :
    tokenize (quoted '\'' s ++ r) =
      ⟨.string, s, 0⟩ :: (tokenize r).map (Token.moved (quoted '\'' s).utf8ByteSize) :=
  tokenize_append_of_scan (scan_quoted (.inl ⟨rfl, rfl⟩) s hr 0)

/-- **What is written of a name or a string is read back,** whatever characters it has, and leaves
what follows it as it is. The name written in front of another text is one token, and reading a name
off the tokens gives it and leaves the tokens of the other text, moved by the bytes that were
written. The string is one token in the same way. -/
theorem tokenize_rendered (n : String) {r : String} (hr : StandsBehind r) :
    tokenize (renderName n ++ r) =
        ⟨.ident, n, 0⟩ :: (tokenize r).map (Token.moved (renderName n).utf8ByteSize) ∧
      (∃ h, Parser.name (tokenize (renderName n ++ r)) =
        .ok ⟨n, (tokenize r).map (Token.moved (renderName n).utf8ByteSize), h⟩) ∧
      ∀ children, tokenize (Tree.renderItem ⟨.string, n, children⟩ ++ r) =
        ⟨.string, n, 0⟩ ::
          (tokenize r).map
            (Token.moved (Tree.renderItem ⟨.string, n, children⟩).utf8ByteSize) := by
  have hname := tokenize_renderName n hr.endsWord
  refine ⟨hname, ?_, fun children => ?_⟩
  · rw [hname]
    exact ⟨Nat.le_succ _, rfl⟩
  · have hquote : r.toList.head? ≠ some '\'' := fun h => (hr.endsWord _ h).2.2 rfl
    rw [Tree.renderItem]
    exact tokenize_quoted n hquote

/-- A quote of each kind at an end, what opens a comment and the end of a line, before a comma. -/
theorem tokenize_rendered_comma :
    StandsBehind ", é)" ∧
      tokenize (renderName "'É--\n\"" ++ ", é)") =
        [⟨.ident, "'É--\n\"", 0⟩, ⟨.comma, ",", 10⟩, ⟨.ident, "é", 12⟩, ⟨.closeParen, ")", 14⟩] ∧
      tokenize (Tree.renderItem ⟨.string, "'É--\n\"", []⟩ ++ ", é)") =
        [⟨.string, "'É--\n\"", 0⟩, ⟨.comma, ",", 10⟩, ⟨.ident, "é", 12⟩,
          ⟨.closeParen, ")", 14⟩] :=
  have h : StandsBehind ", é)" := fun _ hc => .inr (.inl (Option.some.inj hc).symm)
  have hrest : (tokenize ", é)").map (Token.moved 10) =
      [⟨.comma, ",", 10⟩, ⟨.ident, "é", 12⟩, ⟨.closeParen, ")", 14⟩] := by decide +kernel
  have hname : (renderName "'É--\n\"").utf8ByteSize = 10 := by decide +kernel
  have hstring : (Tree.renderItem ⟨.string, "'É--\n\"", []⟩).utf8ByteSize = 10 := by
    decide +kernel
  have hread := tokenize_rendered "'É--\n\"" h
  ⟨h, hread.1.trans (by rw [hname, hrest]), (hread.2.2 []).trans (by rw [hstring, hrest])⟩

end Grammar
end MiniSql
