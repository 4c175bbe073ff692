/-
# Spelling

Two texts are spelled differently (`Respelled`) if they are the same but for these:

| in | one text may differ from the other in |
| --- | --- |
| gaps, where both have one | all of the gap |
| quotes that are closed, and comments outside gaps | nothing |
| all else | the case of `ASCII` letters |

A gap starts with white space and goes on with white space and with comments that a line feed ends,
so that no token runs on into it, whatever the token is.

The scanner cuts such texts into tokens that the grammar cannot tell apart (`scan_respelled`): it
never looks at how a keyword is spelled, and what it copies into the tree is in lower case already.
So they are read alike (`parse_respelled`). Where a quote is never closed the letters behind it may
differ too, but no such text is a statement.
-/

import MiniSql.Proofs.Grammar.Aspect
import MiniSql.Proofs.Grammar.Located
import MiniSql.Proofs.Text.SameLetters

namespace MiniSql
namespace Grammar

open Text

/-- The characters that open quotes. -/
def isQuote (c : Char) : Bool := c == '\'' || c == '"' || c == '\x60'

/-- The characters that open neither gaps nor quotes nor comments. -/
def isBare (c : Char) : Bool := !isBlank c && !isQuote c && c != '-'

/-- The texts differ in gaps and in the case of letters only. -/
inductive Respelled : List Char → List Char → Prop
  | done : Respelled [] []
  /-- A character outside gaps, quotes and comments. -/
  | letter {c c' : Char} {s s' : List Char} (hb : isBlank c = false) (hq : isQuote c = false)
      (hd : c = '-' → s.head? ≠ some '-') (hc : SameLetter c c') (h : Respelled s s') :
      Respelled (c :: s) (c' :: s')
  /-- A gap in both texts. -/
  | gap {c c' : Char} {g g' s s' : List Char} (hc : isBlank c = true) (hg : Spaces g)
      (hc' : isBlank c' = true) (hg' : Spaces g') (h : Respelled s s') :
      Respelled (c :: (g ++ s)) (c' :: (g' ++ s'))
  /-- A comment right behind a token. -/
  | comment {text s s' : List Char} (ht : '\n' ∉ text) (h : Respelled s s') :
      Respelled ('-' :: '-' :: (text ++ '\n' :: s)) ('-' :: '-' :: (text ++ '\n' :: s'))
  /-- A comment that the end of the text ends. -/
  | lastComment {text : List Char} (ht : '\n' ∉ text) :
      Respelled ('-' :: '-' :: text) ('-' :: '-' :: text)
  /-- A text in quotes. -/
  | quoted {quote : Char} {held s s' : List Char} (hq : isQuote quote = true)
      (hs : s.head? ≠ some quote) (h : Respelled s s') :
      Respelled (quote :: (double quote held ++ quote :: s))
        (quote :: (double quote held ++ quote :: s'))
  /-- A quote that is never closed. -/
  | unclosed {quote : Char} {s s' : List Char} (hq : isQuote quote = true)
      (hs : unquote quote s = none) (h : SameLetters s s') : Respelled (quote :: s) (quote :: s')

/-! ## Characters -/

/-- White space is no part of a word. -/
theorem isWordPart_of_isBlank {c : Char} (h : isBlank c = true) : isWordPart c = false := by
  obtain ⟨r, hr, hle, hle'⟩ := inRanges_iff.1 h
  have hall : ∀ r ∈ blankRanges, ∀ k < r.2 + 1 - r.1, isWordPart (Char.ofNat (r.1 + k)) = false := by
    decide +kernel
  have hc := hall r hr (c.toNat - r.1) (by omega)
  rwa [Nat.add_sub_cancel' hle, Char.ofNat_toNat] at hc

/-- There are three kinds of quotes. -/
theorem isQuote_cases {c : Char} (h : isQuote c = true) : c = '\'' ∨ c = '"' ∨ c = '\x60' := by
  simpa [isQuote, or_assoc] using h

/-- No quote is a letter. -/
theorem isWordStart_of_isQuote {c : Char} (h : isQuote c = true) : isWordStart c = false := by
  rcases isQuote_cases h with rfl | rfl | rfl <;> decide

/-- No word begins with a digit. -/
theorem isWordStart_of_isDigit {c : Char} (h : c.isDigit = true) : isWordStart c = false :=
  forall_ascii (p := fun c => c.isDigit = true → isWordStart c = false) (by decide)
    (toNat_lt_of_isAsciiWord (by simp [isAsciiWord, isPlain, h])) h

/-- The class holds of bare characters only. -/
def EndsAtMarks (p : Char → Bool) : Prop :=
  ∀ c, isBlank c = true ∨ isQuote c = true ∨ c = '-' → p c = false

/-- A word ends at white space, at a quote and at a minus. -/
theorem endsAtMarks_isWordPart : EndsAtMarks isWordPart := by
  rintro c (h | h | rfl)
  · exact isWordPart_of_isBlank h
  · rcases isQuote_cases h with rfl | rfl | rfl <;> decide
  · decide

/-- Digits may stand in a word. -/
theorem isWordPart_of_isDigit {c : Char} (h : c.isDigit = true) : isWordPart c = true :=
  (isWordPart_of_isAsciiWord (by simp [isAsciiWord, isPlain, h])).1

/-- A run of digits ends at white space, at a quote and at a minus. -/
theorem endsAtMarks_isDigit : EndsAtMarks Char.isDigit := by
  intro c h
  cases hd : c.isDigit with
  | false => rfl
  | true => rw [← isWordPart_of_isDigit hd, endsAtMarks_isWordPart c h]

/-! ## Parts of the texts -/

namespace Respelled

variable {s s' : List Char}

/-- What both texts start with, if it is neither a blank nor a letter. -/
theorem head (h : Respelled s s') {d : Char} (hb : isBlank d = false) (hd : isWordStart d = false) :
    s.head? = some d ↔ s'.head? = some d := by
  cases h with
  | letter _ _ _ hc _ =>
    simp only [List.head?_cons, Option.some.injEq]
    constructor
    · rintro rfl
      exact eq_of_sameLetter hc hd
    · rintro rfl
      exact eq_of_sameLetter hc.symm hd
  | gap hc _ hc' _ _ =>
    simp only [List.head?_cons, Option.some.injEq]
    constructor
    · rintro rfl
      exact absurd hc (by simp [hb])
    · rintro rfl
      exact absurd hc' (by simp [hb])
  | _ => simp

/-- The texts behind a character outside gaps, quotes and comments. -/
theorem tail {d : Char} (h : Respelled (d :: s) s') (hb : isBlank d = false)
    (hq : isQuote d = false) (hm : d ≠ '-') (hd : isWordStart d = false) :
    ∃ t', s' = d :: t' ∧ Respelled s t' := by
  cases h with
  | letter _ _ _ hc h => exact ⟨_, by rw [eq_of_sameLetter hc hd], h⟩
  | gap hc => exact absurd hc (by simp [hb])
  | comment | lastComment => exact absurd rfl hm
  | quoted hq' | unclosed hq' => exact absurd hq' (by simp [hq])

/-- A run of characters of one class, and what is behind it. -/
theorem span {p : Char → Bool} (hp : Caseless p) (hends : EndsAtMarks p) (h : Respelled s s') :
    SameLetters (s.takeWhile p) (s'.takeWhile p) ∧ Respelled (s.dropWhile p) (s'.dropWhile p) := by
  have stop {c c' : Char} {s s' : List Char} (hc : p c = false) (hc' : p c' = false)
      (h : Respelled (c :: s) (c' :: s')) :
      SameLetters ((c :: s).takeWhile p) ((c' :: s').takeWhile p) ∧
        Respelled ((c :: s).dropWhile p) ((c' :: s').dropWhile p) := by
    simpa [hc, hc', SameLetters] using h
  induction h with
  | done => exact ⟨rfl, .done⟩
  | @letter c c' s s' hb hq hd hc h ih =>
    cases hpc : p c with
    | false => exact stop hpc (hp.eq hc ▸ hpc) (.letter hb hq hd hc h)
    | true =>
      have hpc' : p c' = true := hp.eq hc ▸ hpc
      simp only [List.takeWhile_cons, List.dropWhile_cons, hpc, hpc', if_true]
      refine ⟨?_, ih.2⟩
      have htail : (s.takeWhile p).map Char.toLower = (s'.takeWhile p).map Char.toLower := ih.1
      rw [SameLetters, List.map_cons, List.map_cons, hc, htail]
  | gap hc hg hc' hg' h =>
    exact stop (hends _ (.inl hc)) (hends _ (.inl hc')) (.gap hc hg hc' hg' h)
  | comment ht h => exact stop (hends _ (by simp)) (hends _ (by simp)) (.comment ht h)
  | lastComment ht => exact stop (hends _ (by simp)) (hends _ (by simp)) (.lastComment ht)
  | quoted hq hs h => exact stop (hends _ (by simp [hq])) (hends _ (by simp [hq])) (.quoted hq hs h)
  | unclosed hq hs h =>
    exact stop (hends _ (by simp [hq])) (hends _ (by simp [hq])) (.unclosed hq hs h)

/-- A word in other letters. -/
theorem word {w w' : List Char} (hw : w.all isBare = true) (hletters : SameLetters w w')
    (h : Respelled s s') : Respelled (w ++ s) (w' ++ s') := by
  induction w generalizing w' with
  | nil =>
    rw [List.map_eq_nil_iff.1 hletters.symm]
    exact h
  | cons c w ih =>
    obtain ⟨c', w', rfl, hc, hrest⟩ := List.map_eq_cons_iff.1 hletters.symm
    rw [List.all_cons, Bool.and_eq_true] at hw
    obtain ⟨hbare, hw⟩ := hw
    simp only [isBare, Bool.and_eq_true, Bool.not_eq_true', bne_iff_ne] at hbare
    obtain ⟨⟨hb, hq⟩, hm⟩ := hbare
    exact .letter hb hq (fun hc => absurd hc hm) hc.symm (ih hw hrest.symm)

/-- A text is spelled as itself: every text is made up of gaps, comments, quotes and characters
outside these. -/
theorem refl (s : List Char) : Respelled s s := by
  induction hn : s.length using Nat.strongRecOn generalizing s with
  | ind n ih =>
    cases s with
    | nil => exact .done
    | cons c s =>
      simp only [List.length_cons] at hn
      rcases gap_cases c s with hb | ⟨t, rfl, rfl⟩ | ⟨hb, hd⟩
      · show Respelled (c :: ([] ++ s)) (c :: ([] ++ s))
        exact .gap hb .none hb .none (ih s.length (by omega) s rfl)
      · obtain ⟨text, ht, htext | ⟨rest, hlt, htext⟩⟩ := splitGap_true_cases t
        · have happend := splitGap_append true t
          rw [htext, List.append_nil] at happend
          exact happend ▸ .lastComment ht
        · have htail := splitGap_append false rest
          have happend := splitGap_append true t
          rw [htext, List.append_assoc, List.cons_append, htail] at happend
          simp only [List.length_cons] at hn
          exact happend ▸ .comment ht (ih rest.length (by omega) rest rfl)
      · cases hq : isQuote c with
        | false => exact .letter hb hq hd rfl (ih s.length (by omega) s rfl)
        | true =>
          cases hs : unquote c s with
          | none => exact .unclosed hq hs rfl
          | some r =>
            obtain ⟨held, rest⟩ := r
            have htext := eq_double_of_unquote hs
            have hlength := congrArg List.length htext
            simp only [List.length_append, List.length_cons] at hlength
            rw [htext]
            exact .quoted hq (head_of_unquote hs) (ih rest.length (by omega) rest rfl)

/-- A run of digits is the same in both texts. -/
theorem digits (h : Respelled s s') :
    s'.takeWhile Char.isDigit = s.takeWhile Char.isDigit ∧
      Respelled (s.dropWhile Char.isDigit) (s'.dropWhile Char.isDigit) := by
  obtain ⟨htake, hdrop⟩ := h.span caseless_isDigit endsAtMarks_isDigit
  refine ⟨eq_of_sameLetters htake fun c hc => ?_, hdrop⟩
  exact isWordStart_of_isDigit (List.all_eq_true.1 List.all_takeWhile c hc)

end Respelled

/-! ## Tokens -/

/-- The grammar cannot tell the tokens apart, wherever they stand. -/
def Cut.Alike (t' t : Cut) : Prop :=
  ∀ p' p, (⟨t'.kind, t'.lexeme, p'⟩ : Token).aspect = (⟨t.kind, t.lexeme, p⟩ : Token).aspect

/-- Tokens of one kind with one lexeme cannot be told apart. -/
theorem Cut.alike_of_eq {t' t : Cut} (hk : t'.kind = t.kind) (hl : t'.lexeme = t.lexeme) :
    t'.Alike t := by
  intro p' p
  rw [hk, hl]
  rfl

/-- A keyword is told by its letters in uppercase. -/
theorem Keyword.ofWord?_congr {word word' : String} (h : Text.upper word' = Text.upper word) :
    Keyword.ofWord? word' = Keyword.ofWord? word := by
  unfold Keyword.ofWord?
  rw [h]

section Cut

variable {c c' : Char} {s s' : List Char}

/-- What begins a word is cut as one. -/
theorem cut_of_isWordStart (hc : isWordStart c = true) (s : List Char) : cut c s = cutWord c s := by
  rcases cut_cases c with ⟨rfl, -⟩ | ⟨rfl | rfl, -⟩ | ⟨rfl, -⟩ | ⟨hd, -⟩ | ⟨-, hcut⟩ | ⟨hw, -⟩
  · exact absurd hc (by decide)
  · exact absurd hc (by decide)
  · exact absurd hc (by decide)
  · exact absurd hc (by decide)
  · exact absurd hc (by simp [isWordStart_of_isDigit hd])
  · exact hcut s
  · exact absurd hc (by simp [hw])

/-- A placeholder is cut alike from both texts. -/
theorem cutPlaceholder_respelled (h : Respelled s s') :
    (cutPlaceholder s').Alike (cutPlaceholder s) ∧
      Respelled (cutPlaceholder s).rest (cutPlaceholder s').rest := by
  obtain ⟨htake, hdrop⟩ := h.digits
  unfold cutPlaceholder
  rw [htake]
  split
  · exact ⟨Cut.alike_of_eq rfl rfl, h⟩
  · exact ⟨Cut.alike_of_eq rfl rfl, hdrop⟩

/-- A number is cut alike from both texts. -/
theorem cutNumber_respelled (c : Char) (h : Respelled s s') :
    (cutNumber c s').Alike (cutNumber c s) ∧
      Respelled (cutNumber c s).rest (cutNumber c s').rest := by
  obtain ⟨htake, hdrop⟩ := h.digits
  have hhead := hdrop.head (d := '.') (by decide) (by decide)
  by_cases hpoint : (s.dropWhile Char.isDigit).head? = some '.'
  · obtain ⟨rest, hrest⟩ := List.head?_eq_some_iff.1 hpoint
    rw [hrest] at hdrop
    obtain ⟨rest', hrest', hdrop⟩ := hdrop.tail (by decide) (by decide) (by decide) (by decide)
    obtain ⟨hfraction, hbehind⟩ := hdrop.digits
    rw [cutNumber_point hrest, cutNumber_point hrest']
    exact ⟨Cut.alike_of_eq rfl (by rw [htake, hfraction]), hbehind⟩
  · rw [cutNumber_whole hpoint, cutNumber_whole (mt hhead.2 hpoint)]
    exact ⟨Cut.alike_of_eq rfl (by rw [htake]), hdrop⟩

/-- A word is cut alike from both texts, as a keyword or a name in lowercase letters. -/
theorem cutWord_respelled (hc : SameLetter c c') (h : Respelled s s') :
    (cutWord c' s').Alike (cutWord c s) ∧ Respelled (cutWord c s).rest (cutWord c' s').rest := by
  obtain ⟨htake, hdrop⟩ := h.span caseless_isWordPart endsAtMarks_isWordPart
  have hword : SameLetters (c' :: s'.takeWhile isWordPart) (c :: s.takeWhile isWordPart) := by
    rw [SameLetters, List.map_cons, List.map_cons, hc, htake]
  have hlower := lower_eq_of_sameLetters hword
  have hkeyword := Keyword.ofWord?_congr (upper_eq_of_sameLetters hword)
  unfold cutWord
  dsimp only
  rw [hkeyword]
  split
  · refine ⟨fun p' p => ?_, hdrop⟩
    simp only [Token.aspect, Token.name?, Token.keyword?, hlower]
    simp
  · exact ⟨Cut.alike_of_eq rfl hlower, hdrop⟩

/-- The second character of a symbol is no blank, no quote, no letter and no minus sign. -/
theorem second_of_doubleSymbol {c d : Char} {kind : Kind} (h : doubleSymbol? c d = some kind) :
    isBlank d = false ∧ isQuote d = false ∧ d ≠ '-' ∧ isWordStart d = false := by
  unfold doubleSymbol? at h
  split at h <;> cases h <;> decide

/-- A symbol is cut alike from both texts, as its characters have no cases. -/
theorem cutSymbol_respelled (c : Char) (h : Respelled s s') :
    (cutSymbol c s').Alike (cutSymbol c s) ∧
      Respelled (cutSymbol c s).rest (cutSymbol c s').rest := by
  rcases symbol_cases c s with hone | ⟨d, kind, t, rfl, htwo⟩
  · have hone' : ∀ d ∈ s'.head?, doubleSymbol? c d = none := by
      intro d hd
      cases htwo : doubleSymbol? c d with
      | none => rfl
      | some kind =>
        obtain ⟨hb, -, -, hletter⟩ := second_of_doubleSymbol htwo
        rw [← hone d ((h.head hb hletter).2 hd), htwo]
    rw [cutSymbol_one hone, cutSymbol_one hone']
    exact ⟨Cut.alike_of_eq rfl rfl, h⟩
  · obtain ⟨hb, hq, hm, hletter⟩ := second_of_doubleSymbol htwo
    obtain ⟨t', rfl, ht⟩ := h.tail hb hq hm hletter
    rw [cutSymbol_two htwo, cutSymbol_two htwo]
    exact ⟨Cut.alike_of_eq rfl rfl, ht⟩

/-- **A token outside quotes is cut off both texts,** and the texts behind it differ in spelling
only. -/
theorem cut_respelled (hq : isQuote c = false) (hc : SameLetter c c') (h : Respelled s s') :
    (cut c' s').Alike (cut c s) ∧ Respelled (cut c s).rest (cut c' s').rest := by
  by_cases hletter : isWordStart c = true
  · have hletter' : isWordStart c' = true := caseless_isWordStart.eq hc ▸ hletter
    rw [cut_of_isWordStart hletter, cut_of_isWordStart hletter']
    exact cutWord_respelled hc h
  · rw [Bool.not_eq_true] at hletter
    rw [eq_of_sameLetter hc hletter]
    rcases cut_cases c with ⟨rfl, -⟩ | ⟨rfl | rfl, -⟩ | ⟨-, hcut⟩ | ⟨-, hcut⟩ | ⟨h', -⟩ | ⟨-, hcut⟩
    · cases hq
    · cases hq
    · cases hq
    · rw [hcut, hcut]; exact cutPlaceholder_respelled h
    · rw [hcut, hcut]; exact cutNumber_respelled c h
    · exact absurd h' (by simp [hletter])
    · rw [hcut, hcut]; exact cutSymbol_respelled c h

end Cut

/-! ## Texts -/

/-- A character that is no quote is held. -/
theorem unquote_cons_of_ne {quote c : Char} (hc : c ≠ quote) (s : List Char) :
    unquote quote (c :: s) = (unquote quote s).map fun r => (c :: r.1, r.2) := by
  rw [unquote.eq_def]
  simp [hc]

/-- Quotes hold the same in lowercase letters. -/
theorem unquote_map {quote : Char} (hq : isQuote quote = true) (s : List Char) :
    unquote quote (s.map Char.toLower) =
      (unquote quote s).map fun r => (r.1.map Char.toLower, r.2.map Char.toLower) := by
  have hquote : quote.toLower = quote := by rcases isQuote_cases hq with rfl | rfl | rfl <;> decide
  have hletter (c : Char) : c.toLower = quote ↔ c = quote := by
    constructor
    · intro h
      have hsame : SameLetter quote c := hquote.trans h.symm
      exact eq_of_sameLetter hsame (isWordStart_of_isQuote hq)
    · rintro rfl
      exact hquote
  fun_induction unquote quote s with
  | case1 => rfl
  | case2 s ih => simp [unquote, hquote, ih, Function.comp_def]
  | case3 c s hc => simp [unquote, hquote, hletter, hc]
  | case4 => simp [unquote, hquote]
  | case5 c s hc ih =>
    rw [List.map_cons, unquote_cons_of_ne (mt (hletter c).1 hc), ih]
    simp [Function.comp_def]

/-- A quote is closed in both texts or in none. -/
theorem unquote_eq_none_congr {quote : Char} (hq : isQuote quote = true) {s s' : List Char}
    (h : SameLetters s s') : unquote quote s' = none ↔ unquote quote s = none := by
  rw [← Option.map_eq_none_iff, ← unquote_map hq, ← h, unquote_map hq, Option.map_eq_none_iff]

/-- The tokens are of one kind, and unless they are invalid the grammar cannot tell them apart. -/
def Token.Akin (t t' : Token) : Prop :=
  t'.kind = t.kind ∧ (t.kind ≠ .invalid → t'.aspect = t.aspect)

/-- White space and comments are skipped. -/
theorem scan_spaces {g : List Char} (h : Spaces g) (p : Nat) (s : List Char) :
    scan p (g ++ s) = scan (p + byteLength g) s := by
  have hgap := splitGap_spaces h s
  cases hs : splitGap false s with
  | mk g' left =>
    rw [hs] at hgap
    cases left with
    | nil => rw [scan_of_gap hs, scan_of_gap hgap]
    | cons c rest =>
      rw [scan_of_token hs, scan_of_token hgap]
      simp [Nat.add_assoc]

/-- What begins with a quote is cut at the quote that closes it. -/
theorem cut_of_isQuote {c : Char} (hq : isQuote c = true) :
    ∃ kind, ∀ s, cut c s = cutQuoted kind c s := by
  rcases isQuote_cases hq with rfl | rfl | rfl
  · exact ⟨.string, fun _ => rfl⟩
  · exact ⟨.ident, fun _ => rfl⟩
  · exact ⟨.ident, fun _ => rfl⟩

/-- A quote begins neither a gap nor a comment. -/
theorem starts_of_isQuote {c : Char} (hq : isQuote c = true) : isBlank c = false ∧ c ≠ '-' := by
  rcases isQuote_cases hq with rfl | rfl | rfl <;> decide

/-- **The scanner does not look at the spelling.** -/
theorem scan_respelled {s s' : List Char} (h : Respelled s s') (p p' : Nat) :
    List.Forall₂ Token.Akin (scan p s) (scan p' s') := by
  -- On the length, since a cut takes a character at least.
  induction hn : s.length using Nat.strongRecOn generalizing s s' p p' with
  | ind n ih =>
    cases h with
    | done =>
      rw [scan_of_gap rfl, scan_of_gap rfl]
      exact .nil
    | @letter c c' s s' hb hq hd hc h =>
      -- A minus has no cases, so a comment begins in both texts or in none.
      have hd' : c' = '-' → s'.head? ≠ some '-' := by
        rintro rfl
        have hdash : c = '-' := eq_of_sameLetter hc.symm (by decide)
        exact mt (h.head (by decide) (by decide)).2 (hd hdash)
      have hscan := scan_of_cut p hb hd (rfl : cut c s = cut c s)
      have hscan' := scan_of_cut p' (caseless_isBlank.eq hc ▸ hb) hd'
        (rfl : cut c' s' = cut c' s')
      obtain ⟨halike, hrest⟩ := cut_respelled hq hc h
      have hlength := congrArg List.length (cut_append c s)
      simp only [List.length_append, List.length_cons] at hlength hn
      rw [hscan, hscan']
      exact .cons ⟨congrArg (·.1) (halike p' p), fun _ => halike p' p⟩
        (ih _ (by omega) hrest _ _ rfl)
    | @gap c c' g g' s s' hc hg hc' hg' h =>
      simp only [List.length_cons, List.length_append] at hn
      rw [← List.cons_append, ← List.cons_append, scan_spaces (.blank hc hg),
        scan_spaces (.blank hc' hg')]
      exact ih s.length (by omega) h _ _ rfl
    | @comment text s s' ht h =>
      have hcomment := scan_spaces (.comment ht .none)
      simp only [List.length_cons, List.length_append] at hn
      simp only [List.cons_append, List.append_assoc, List.nil_append] at hcomment
      rw [hcomment, hcomment]
      exact ih s.length (by omega) h _ _ rfl
    | @lastComment text ht =>
      have hgap := splitGap_skipped (.comment .none ht)
      rw [List.nil_append] at hgap
      rw [scan_of_gap hgap, scan_of_gap hgap]
      exact .nil
    | @quoted quote held s s' hq hs h =>
      obtain ⟨kind, hcut⟩ := cut_of_isQuote hq
      obtain ⟨hb, hm⟩ := starts_of_isQuote hq
      have hs' : s'.head? ≠ some quote := mt (h.head hb (isWordStart_of_isQuote hq)).2 hs
      -- The quotes close at the same place, whatever stands behind.
      have hheld {s : List Char} (hs : s.head? ≠ some quote) :
          cut quote (double quote held ++ quote :: s) =
            ⟨kind, String.ofList held, double quote held ++ [quote], s⟩ := by
        rw [hcut, cutQuoted_double kind held hs]
      have hscan := scan_of_cut p hb (fun h => absurd h hm) (hheld hs)
      have hscan' := scan_of_cut p' hb (fun h => absurd h hm) (hheld hs')
      simp only [List.length_cons, List.length_append] at hn
      rw [hscan, hscan']
      exact .cons ⟨rfl, fun _ => rfl⟩ (ih s.length (by omega) h _ _ rfl)
    | @unclosed quote s s' hq hs h =>
      obtain ⟨kind, hcut⟩ := cut_of_isQuote hq
      obtain ⟨hb, hm⟩ := starts_of_isQuote hq
      have hopen {s : List Char} (hs : unquote quote s = none) :
          cut quote s = ⟨.invalid, String.ofList (quote :: s), s, []⟩ := by
        rw [hcut, cutQuoted, hs]
      have hscan := scan_of_cut p hb (fun h => absurd h hm) (hopen hs)
      have hscan' := scan_of_cut p' hb (fun h => absurd h hm)
        (hopen ((unquote_eq_none_congr hq h).2 hs))
      rw [hscan, hscan', scan_of_gap rfl, scan_of_gap rfl]
      exact .cons ⟨rfl, fun h => absurd rfl h⟩ .nil

/-- Valid tokens that are akin to others are alike. -/
theorem alike_of_akin {u u' : List Token} (h : List.Forall₂ Token.Akin u u') (hu : Valid u) :
    Alike u' u := by
  induction h with
  | nil => rfl
  | cons ht _ ih =>
    rw [valid_cons] at hu
    rw [Alike, List.map_cons, List.map_cons, ht.2 hu.1, ih hu.2]

/-- Tokens that are akin are both valid or both invalid. -/
theorem valid_iff_of_akin {u u' : List Token} (h : List.Forall₂ Token.Akin u u') :
    Valid u' ↔ Valid u := by
  induction h with
  | nil => rfl
  | cons ht _ ih => rw [valid_cons, valid_cons, ht.1, ih]

/-- **The spelling of a text does not matter:** if one of two texts is a statement, so is the other,
and they have the same tree. -/
theorem parse_respelled {s s' : String} (h : Respelled s.toList s'.toList) (t : Tree) :
    parse s' = .ok t ↔ parse s = .ok t := by
  have hakin := scan_respelled h 0 0
  by_cases hvalid : Valid (tokenize s)
  · exact parse_alike (alike_of_akin hakin hvalid)
  · have hvalid' : ¬Valid (tokenize s') := mt (valid_iff_of_akin hakin).1 hvalid
    exact ⟨fun hs' => absurd (valid_of_parse hs') hvalid', fun hs => absurd (valid_of_parse hs) hvalid⟩

/-- A query with a keyword for a name, a word in quotes and a comment at the end. -/
def quietQuery : String := "select KEY,'It' from Écu-- x"

/-- The query in other letters, with other gaps. -/
def loudQuery : String := "SELECT\t-- y\n Key,'It'\r\nFROM ÉCU-- x"

/-- The quotes and the comments behind tokens are as they were. -/
theorem parse_respelled_key : Respelled quietQuery.toList loudQuery.toList ∧
    ∃ t, parse quietQuery = .ok t ∧ parse loudQuery = .ok t := by
  have hquiet : quietQuery.toList = "select".toList ++ ' ' :: ([] ++ ("KEY,".toList ++
      '\'' :: (double '\'' "It".toList ++ '\'' :: (' ' :: ([] ++ ("from".toList ++
        ' ' :: ([] ++ ("Écu".toList ++ '-' :: '-' :: " x".toList)))))))) := by
    decide +kernel
  have hloud : loudQuery.toList = "SELECT".toList ++ '\t' ::
      (('-' :: '-' :: (" y".toList ++ '\n' :: [' '])) ++ ("Key,".toList ++
        '\'' :: (double '\'' "It".toList ++ '\'' :: ('\r' :: (['\n'] ++ ("FROM".toList ++
          ' ' :: ([] ++ ("ÉCU".toList ++ '-' :: '-' :: " x".toList)))))))) := by
    decide +kernel
  have h : Respelled quietQuery.toList loudQuery.toList := by
    rw [hquiet, hloud]
    refine .word (by decide) (by decide) (.gap (by decide) .none (by decide)
      (.comment (by decide) (.blank (by decide) .none)) ?_)
    refine .word (by decide) (by decide) (.quoted (by decide) (by decide) ?_)
    refine .gap (by decide) .none (by decide) (.blank (by decide) .none) ?_
    refine .word (by decide) (by decide) (.gap (by decide) .none (by decide) .none ?_)
    exact .word (by decide) (by decide) (.lastComment (by decide))
  have hparse : parse quietQuery = .ok (.word .SELECT [.leaf .ident "key", .leaf .ident "It",
      .word .FROM [.table "écu" []], .implicitWhere]) := by
    decide +kernel
  exact ⟨h, _, hparse, (parse_respelled h _).2 hparse⟩

end Grammar
end MiniSql
