/-
# What stands between tokens

White space and comments stand between tokens. A comment runs from `--` to the end of its line; the
last comment of a text may run to the end of the text instead. What the scanner skips is of this
form (`splitGap_spaces_or`), and whatever is of this form it skips (`splitGap_spaces`,
`splitGap_skipped`). So where a gap ends does not depend on how much of the text follows
(`splitGap_cut`).
-/

import MiniSql.Grammar.Token.Scan

namespace MiniSql
namespace Grammar

/-- White space, and comments with the line feeds that end them. -/
inductive Spaces : List Char → Prop
  | none : Spaces []
  | blank {c : Char} {s : List Char} (hc : Text.isBlank c = true) (h : Spaces s) : Spaces (c :: s)
  | comment {text s : List Char} (ht : '\n' ∉ text) (h : Spaces s) :
      Spaces ('-' :: '-' :: (text ++ '\n' :: s))

/-- White space and comments, the last of which may be ended by the end of the text. -/
inductive Skipped : List Char → Prop
  | spaces {s : List Char} (h : Spaces s) : Skipped s
  | comment {s text : List Char} (h : Spaces s) (ht : '\n' ∉ text) :
      Skipped (s ++ '-' :: '-' :: text)

/-- White space before what is skipped is skipped. -/
theorem Skipped.blank {c : Char} {s : List Char} (hc : Text.isBlank c = true) (h : Skipped s) :
    Skipped (c :: s) := by
  cases h with
  | spaces h => exact .spaces (.blank hc h)
  | comment h ht => exact .comment (.blank hc h) ht

/-- A comment with the end of its line before what is skipped is skipped. -/
theorem Skipped.behindComment {text s : List Char} (ht : '\n' ∉ text) (h : Skipped s) :
    Skipped ('-' :: '-' :: (text ++ '\n' :: s)) := by
  cases h with
  | spaces h => exact .spaces (.comment ht h)
  | comment h ht' => simpa using Skipped.comment (.comment ht h) ht'

/-! ## One character of a gap -/

section Step

variable {c : Char} {s : List Char}

/-- White space belongs to the gap. -/
theorem splitGap_blank (hc : Text.isBlank c = true) :
    splitGap false (c :: s) = (c :: (splitGap false s).1, (splitGap false s).2) := by
  simp [splitGap, hc]

/-- Two minuses open a comment. -/
theorem splitGap_opens :
    splitGap false ('-' :: '-' :: s) =
      ('-' :: '-' :: (splitGap true s).1, (splitGap true s).2) := by
  have hc : Text.isBlank '-' = false := by decide
  simp [splitGap, hc]

/-- A comment goes on with any character but the end of the line. -/
theorem splitGap_inside (hc : c ≠ '\n') :
    splitGap true (c :: s) = (c :: (splitGap true s).1, (splitGap true s).2) := by
  have hc' : (c != '\n') = true := by simpa using hc
  simp [splitGap, hc']

/-- The end of the line ends the comment. -/
theorem splitGap_lineEnd :
    splitGap true ('\n' :: s) = ('\n' :: (splitGap false s).1, (splitGap false s).2) := rfl

/-- Anything else ends the gap. -/
theorem splitGap_token (hc : Text.isBlank c = false) (hd : c = '-' → s.head? ≠ some '-') :
    splitGap false (c :: s) = ([], c :: s) := by
  have : ¬(c = '-' ∧ s.head? = some '-') := fun h => hd h.1 h.2
  simp [splitGap, hc, this]

/-- A text starts with a blank, with a comment, or with a token. -/
theorem gap_cases (c : Char) (s : List Char) :
    Text.isBlank c = true ∨ (∃ s', c = '-' ∧ s = '-' :: s') ∨
      Text.isBlank c = false ∧ (c = '-' → s.head? ≠ some '-') := by
  cases hc : Text.isBlank c with
  | true => exact .inl rfl
  | false =>
    by_cases hd : c = '-' ∧ s.head? = some '-'
    · obtain ⟨rfl, hs⟩ := hd
      obtain ⟨s', rfl⟩ := List.head?_eq_some_iff.1 hs
      exact .inr (.inl ⟨s', rfl, rfl⟩)
    · exact .inr (.inr ⟨rfl, fun h h' => hd ⟨h, h'⟩⟩)

end Step

/-! ## What is skipped -/

/-- A comment belongs to the gap up to the end of its line. -/
theorem splitGap_comment {text s : List Char} (ht : '\n' ∉ text) :
    splitGap true (text ++ '\n' :: s) =
      (text ++ '\n' :: (splitGap false s).1, (splitGap false s).2) := by
  induction text with
  | nil => exact splitGap_lineEnd
  | cons c text ih =>
    have hc : c ≠ '\n' := fun h => ht (by simp [h])
    have hs : '\n' ∉ text := fun h => ht (by simp [h])
    rw [List.cons_append, splitGap_inside hc, ih hs, List.cons_append]

/-- A comment on the last line belongs to the gap up to the end of the text. -/
theorem splitGap_lastComment {text : List Char} (ht : '\n' ∉ text) :
    splitGap true text = (text, []) := by
  induction text with
  | nil => rfl
  | cons c text ih =>
    have hc : c ≠ '\n' := fun h => ht (by simp [h])
    have hs : '\n' ∉ text := fun h => ht (by simp [h])
    rw [splitGap_inside hc, ih hs]

/-- White space and comments belong to the gap at the start of a text. -/
theorem splitGap_spaces {g : List Char} (h : Spaces g) (s : List Char) :
    splitGap false (g ++ s) = (g ++ (splitGap false s).1, (splitGap false s).2) := by
  induction h with
  | none => rfl
  | blank hc _ ih => rw [List.cons_append, splitGap_blank hc, ih, List.cons_append]
  | comment ht _ ih =>
    simp only [List.cons_append, List.append_assoc]
    rw [splitGap_opens, splitGap_comment ht, ih]

/-- What is skipped is all gap. -/
theorem splitGap_skipped {g : List Char} (h : Skipped g) : splitGap false g = (g, []) := by
  cases h with
  | spaces h => simpa [splitGap] using splitGap_spaces h []
  | comment h ht => simp [splitGap_spaces h, splitGap_opens, splitGap_lastComment ht]

/-- A comment ends with its line or with the text. -/
theorem splitGap_true_cases (s : List Char) : ∃ text, '\n' ∉ text ∧
    (splitGap true s = (text, []) ∨ ∃ s', s'.length < s.length ∧
      splitGap true s = (text ++ '\n' :: (splitGap false s').1, (splitGap false s').2)) := by
  induction s with
  | nil => exact ⟨[], by simp, .inl rfl⟩
  | cons c s ih =>
    by_cases hc : c = '\n'
    · subst hc
      exact ⟨[], by simp, .inr ⟨s, by simp, splitGap_lineEnd⟩⟩
    · obtain ⟨text, ht, h⟩ := ih
      refine ⟨c :: text, by simpa [Ne.symm hc] using ht, ?_⟩
      rw [splitGap_inside hc]
      rcases h with h | ⟨s', hlt, h⟩
      · exact .inl (by rw [h])
      · exact .inr ⟨s', by simp only [List.length_cons]; omega, by rw [h, List.cons_append]⟩

/-- **The scanner skips white space and comments,** and nothing else. Where a token follows, every
comment was ended by its line. -/
theorem splitGap_spaces_or (s : List Char) :
    Spaces (splitGap false s).1 ∨ Skipped (splitGap false s).1 ∧ (splitGap false s).2 = [] := by
  induction hn : s.length using Nat.strongRecOn generalizing s with
  | ind n ih =>
    cases s with
    | nil => exact .inl .none
    | cons c s =>
      simp only [List.length_cons] at hn
      rcases gap_cases c s with hc | ⟨s', rfl, rfl⟩ | ⟨hc, hd⟩
      · rw [splitGap_blank hc]
        exact (ih s.length (by omega) s rfl).imp (.blank hc) fun h => ⟨.blank hc h.1, h.2⟩
      · rw [splitGap_opens]
        simp only [List.length_cons] at hn
        obtain ⟨text, ht, h | ⟨rest, hlt, h⟩⟩ := splitGap_true_cases s'
        · rw [h]
          exact .inr ⟨.comment .none ht, rfl⟩
        · rw [h]
          exact (ih rest.length (by omega) rest rfl).imp (.comment ht) fun h =>
            ⟨.behindComment ht h.1, h.2⟩
      · rw [splitGap_token hc hd]
        exact .inl .none

/-- The gap is skipped. -/
theorem skipped_splitGap (s : List Char) : Skipped (splitGap false s).1 :=
  (splitGap_spaces_or s).elim .spaces And.left

/-! ## Where a gap ends -/

/-- Behind a gap stands a token. -/
theorem splitGap_stops (comment : Bool) (s : List Char) :
    splitGap false (splitGap comment s).2 = ([], (splitGap comment s).2) := by
  induction s generalizing comment with
  | nil => rfl
  | cons c s ih =>
    cases comment with
    | true =>
      by_cases hc : c = '\n'
      · rw [hc, splitGap_lineEnd]; exact ih _
      · rw [splitGap_inside hc]; exact ih _
    | false =>
      rcases gap_cases c s with hc | ⟨s', rfl, rfl⟩ | ⟨hc, hd⟩
      · rw [splitGap_blank hc]; exact ih _
      · have h := ih true
        rw [splitGap_inside (by decide)] at h
        rw [splitGap_opens]; exact h
      · rw [splitGap_token hc hd, splitGap_token hc hd]

/-- The first character behind a gap is not blank and opens no comment. -/
theorem starts_of_splitGap {s g rest : List Char} {c : Char} (h : splitGap false s = (g, c :: rest)) :
    Text.isBlank c = false ∧ (c = '-' → rest.head? ≠ some '-') := by
  have hstops := splitGap_stops false s
  rw [h] at hstops
  rcases gap_cases c rest with hc | ⟨s', rfl, rfl⟩ | hc
  · rw [splitGap_blank hc] at hstops
    cases congrArg Prod.fst hstops
  · rw [splitGap_opens] at hstops
    cases congrArg Prod.fst hstops
  · exact hc

/-- A token behind a gap is found with less text behind it. -/
theorem splitGap_cut {s g t u : List Char} {c : Char} (h : splitGap false s = (g, c :: (t ++ u))) :
    splitGap false (g ++ c :: t) = (g, c :: t) := by
  obtain ⟨hc, hd⟩ := starts_of_splitGap h
  have hd' : c = '-' → t.head? ≠ some '-' := fun hm ht => hd hm (by
    obtain ⟨t', rfl⟩ := List.head?_eq_some_iff.1 ht
    rfl)
  have hg : Spaces g := by
    have hor := splitGap_spaces_or s
    rw [h] at hor
    exact hor.resolve_right fun h => nomatch h.2
  rw [splitGap_spaces hg, splitGap_token hc hd', List.append_nil]

end Grammar
end MiniSql
