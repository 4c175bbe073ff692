/-
# Texts in quotes

A text between quotes may hold the quote itself, which is then written twice. A single quote
closes the text, unless another one follows it: reading takes as much as it can.

| theorem | what it says |
| --- | --- |
| `eq_double_of_unquote` | what is read is what was written, up to the closing quote |
| `unquote_double` | what is written is read back, unless a quote follows the closing one |
-/

namespace MiniSql
namespace Grammar

/-- A text as it stands between quotes. -/
def double (quote : Char) : List Char → List Char
  | [] => []
  | c :: rest => if c = quote then c :: c :: double quote rest else c :: double quote rest

/-- What the quotes hold, and the text after the closing quote. There is none if the quotes are
never closed. -/
def unquote (quote : Char) : List Char → Option (List Char × List Char)
  | [] => none
  | c :: rest =>
    if c = quote then
      match rest with
      | c' :: rest' =>
        if c' = quote then (unquote quote rest').map fun r => (quote :: r.1, r.2)
        else some ([], rest)
      | [] => some ([], [])
    else (unquote quote rest).map fun r => (c :: r.1, r.2)

/-- **Reading loses nothing:** the text is what the quotes hold as it is written, the closing
quote and the rest. -/
theorem eq_double_of_unquote {quote : Char} {s held rest : List Char}
    (h : unquote quote s = some (held, rest)) : s = double quote held ++ quote :: rest := by
  fun_induction unquote quote s generalizing held rest with
  | case1 => simp at h
  | case2 s ih =>
    obtain ⟨r, hr, he⟩ := Option.map_eq_some_iff.1 h
    simp only [Prod.mk.injEq] at he
    simp [← he.1, ← he.2, ih hr, double]
  | case3 => simp_all [double]
  | case4 => simp_all [double]
  | case5 c s hc ih =>
    obtain ⟨r, hr, he⟩ := Option.map_eq_some_iff.1 h
    simp only [Prod.mk.injEq] at he
    simp [← he.1, ← he.2, ih hr, double, hc]

/-- **Quoting is read back,** whatever stands behind it other than one more quote. -/
theorem unquote_double {quote : Char} (held : List Char) {rest : List Char}
    (h : rest.head? ≠ some quote) :
    unquote quote (double quote held ++ quote :: rest) = some (held, rest) := by
  induction held with
  | nil =>
    cases rest with
    | nil => simp [double, unquote]
    | cons c rest =>
      have : c ≠ quote := by simpa using h
      simp [double, unquote, this]
  | cons c held ih =>
    by_cases hc : c = quote
    · simp [double, hc, unquote, ih]
    · rw [double, if_neg hc, List.cons_append]
      unfold unquote
      simp [hc, ih]

/-- A text inside quotes. -/
def quoted (quote : Char) (text : String) : String :=
  String.ofList (quote :: double quote text.toList ++ [quote])

end Grammar
end MiniSql
