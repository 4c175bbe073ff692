/-
# The tokens of a text and of its slices

The tokens of a text cut it into slices: each slice runs from the start of one token to the start of
the next, or to the end of the text. A slice is one token as it is written and what is skipped
behind it.

| kind | is written |
| --- | --- |
| keyword | as its lexeme, a word that spells it |
| identifier | as a word whose lower case the lexeme is, or the lexeme in quotes |
| string | the lexeme in quotes |
| any other | as its lexeme |

What is cut off a text does not depend on what follows it (`cut_shorter`), so a slice is scanned
alone as it is scanned in the text. The same goes for several slices in a row: `tokenize_slices`
says that scanning is compositional over the starts of the tokens, and that nothing is lost between
them.
-/

import MiniSql.Proofs.Grammar.Gaps
import MiniSql.Proofs.Grammar.Scan
import Mathlib.Data.String.Basic

namespace MiniSql
namespace Grammar

/-- The token of this kind and lexeme may be written so. -/
inductive Written : Kind → String → List Char → Prop
  | keyword {k : Keyword} {word : String} (h : Keyword.ofWord? word = some k) :
      Written (.keyword k) word word.toList
  | word {word : String} (hw : ∀ c ∈ word.toList, Text.isWordPart c = true)
      (h : Keyword.ofWord? word = none) : Written .ident (Text.lower word) word.toList
  | name {quote : Char} (hq : quote = '"' ∨ quote = '\x60') (name : String) :
      Written .ident name (quoted quote name).toList
  | string (held : String) : Written .string held (quoted '\'' held).toList
  | other {kind : Kind} (hk : kind ≠ .ident ∧ kind ≠ .string ∧ ∀ k, kind ≠ .keyword k)
      (lexeme : String) : Written kind lexeme lexeme.toList

/-! ## One token -/

/-- A symbol of one character. -/
theorem cutSymbol_one {c : Char} {s : List Char} (h : ∀ d ∈ s.head?, doubleSymbol? c d = none) :
    cutSymbol c s = ⟨symbol c, c.toString, [], s⟩ := by
  cases s with
  | nil => rfl
  | cons d s => simp [cutSymbol, h d rfl]

/-- Two characters that make one symbol are cut together. -/
theorem cutSymbol_two {c d : Char} {kind : Kind} (h : doubleSymbol? c d = some kind)
    (s : List Char) : cutSymbol c (d :: s) = ⟨kind, String.ofList [c, d], [d], s⟩ := by
  simp [cutSymbol, h]

/-- A symbol has one character or two. -/
theorem symbol_cases (c : Char) (s : List Char) :
    (∀ d ∈ s.head?, doubleSymbol? c d = none) ∨
      ∃ d kind t, s = d :: t ∧ doubleSymbol? c d = some kind := by
  cases s with
  | nil => exact .inl (by simp)
  | cons d t =>
    cases h : doubleSymbol? c d with
    | none => exact .inl (by simpa using h)
    | some kind => exact .inr ⟨d, kind, t, rfl, h⟩

/-- A token that is its own lexeme. -/
theorem written_plain {kind : Kind}
    (hk : kind ≠ .ident ∧ kind ≠ .string ∧ ∀ k, kind ≠ .keyword k) (s : List Char) :
    Written kind (String.ofList s) s := by
  have h := Written.other hk (String.ofList s)
  rwa [String.toList_ofList] at h

/-- A quoted token stands between its quotes. -/
theorem written_cutQuoted {kind : Kind} {quote : Char}
    (hq : quote = '\'' ∧ kind = .string ∨ (quote = '"' ∨ quote = '\x60') ∧ kind = .ident)
    (s : List Char) :
    Written (cutQuoted kind quote s).kind (cutQuoted kind quote s).lexeme
      (quote :: (cutQuoted kind quote s).taken) := by
  unfold cutQuoted
  split
  · rename_i held rest _
    have htext : quote :: (double quote held ++ [quote]) =
        (quoted quote (String.ofList held)).toList := by simp [quoted]
    dsimp only
    rw [htext]
    rcases hq with ⟨rfl, rfl⟩ | ⟨hq, rfl⟩
    · exact .string _
    · exact .name hq _
  · exact written_plain (by simp) _

/-- A word stands as it was written, in any case of its letters. -/
theorem written_cutWord {c : Char} (hc : Text.isWordStart c = true) (s : List Char) :
    Written (cutWord c s).kind (cutWord c s).lexeme (c :: (cutWord c s).taken) := by
  have hparts : ∀ d ∈ c :: s.takeWhile Text.isWordPart, Text.isWordPart d = true := by
    rintro d hd
    rcases List.mem_cons.1 hd with rfl | hd
    · exact Text.isWordPart_of_isWordStart hc
    · exact List.all_eq_true.1 List.all_takeWhile d hd
  unfold cutWord
  dsimp only
  split
  · rename_i k hk
    simpa using Written.keyword hk
  · rename_i hk
    simpa using Written.word (by simpa using hparts) hk

/-- One character is neither a name nor a string nor a keyword. -/
theorem kind_symbol (c : Char) :
    symbol c ≠ .ident ∧ symbol c ≠ .string ∧ ∀ k, symbol c ≠ .keyword k := by
  unfold symbol
  split <;> simp

/-- Two characters that make a symbol are neither a name nor a string nor a keyword. -/
theorem kind_doubleSymbol {c d : Char} {kind : Kind} (h : doubleSymbol? c d = some kind) :
    kind ≠ .ident ∧ kind ≠ .string ∧ ∀ k, kind ≠ .keyword k := by
  unfold doubleSymbol? at h
  split at h <;> cases h <;> simp

/-- The first character of a token tells how it is cut. -/
theorem cut_cases (c : Char) :
    c = '\'' ∧ (∀ s, cut c s = cutQuoted .string c s) ∨
      (c = '"' ∨ c = '\x60') ∧ (∀ s, cut c s = cutQuoted .ident c s) ∨
      c = '$' ∧ (∀ s, cut c s = cutPlaceholder s) ∨
      c.isDigit = true ∧ (∀ s, cut c s = cutNumber c s) ∨
      Text.isWordStart c = true ∧ (∀ s, cut c s = cutWord c s) ∨
      Text.isWordStart c = false ∧ ∀ s, cut c s = cutSymbol c s := by
  by_cases h₁ : c = '\''
  · exact .inl ⟨h₁, fun s => by simp only [cut, if_pos h₁]⟩
  by_cases h₂ : c = '"' ∨ c = '\x60'
  · exact .inr (.inl ⟨h₂, fun s => by simp only [cut, if_neg h₁, if_pos h₂]⟩)
  by_cases h₃ : c = '$'
  · exact .inr (.inr (.inl ⟨h₃, fun s => by simp only [cut, if_neg h₁, if_neg h₂, if_pos h₃]⟩))
  cases h₄ : c.isDigit with
  | true => simp [cut, h₁, h₂, h₃, h₄]
  | false =>
    cases h₅ : Text.isWordStart c with
    | true => simp [cut, h₁, h₂, h₃, h₄, h₅]
    | false => simp [cut, h₁, h₂, h₃, h₄, h₅]

/-- **A token is written as its kind and lexeme say.** -/
theorem written_cut (c : Char) (s : List Char) :
    Written (cut c s).kind (cut c s).lexeme (c :: (cut c s).taken) := by
  rcases cut_cases c with ⟨hc, hcut⟩ | ⟨hc, hcut⟩ | ⟨rfl, hcut⟩ | ⟨-, hcut⟩ | ⟨hc, hcut⟩ | ⟨-, hcut⟩
  · rw [hcut]; exact written_cutQuoted (.inl ⟨hc, rfl⟩) s
  · rw [hcut]; exact written_cutQuoted (.inr ⟨hc, rfl⟩) s
  · rw [hcut]
    unfold cutPlaceholder
    split
    · exact written_plain (by simp) ['$']
    · exact written_plain (by simp) _
  · rw [hcut]
    unfold cutNumber
    dsimp only
    split <;> exact written_plain (by simp) _
  · rw [hcut]; exact written_cutWord hc s
  · rw [hcut]
    rcases symbol_cases c s with hone | ⟨d, kind, t, rfl, htwo⟩
    · rw [cutSymbol_one hone]
      exact written_plain (kind_symbol c) [c]
    · rw [cutSymbol_two htwo]
      exact written_plain (kind_doubleSymbol htwo) [c, d]

/-! ## What follows a token -/

/-- The quote that closes a text has no other one behind it. -/
theorem head_of_unquote {quote : Char} {s held rest : List Char}
    (h : unquote quote s = some (held, rest)) : rest.head? ≠ some quote := by
  fun_induction unquote quote s generalizing held rest with
  | case1 => simp at h
  | case2 s ih =>
    obtain ⟨r, hr, he⟩ := Option.map_eq_some_iff.1 h
    cases he
    exact ih hr
  | case3 c s hc =>
    cases h
    simpa using hc
  | case4 =>
    cases h
    simp
  | case5 c s hc ih =>
    obtain ⟨r, hr, he⟩ := Option.map_eq_some_iff.1 h
    cases he
    exact ih hr

/-- A run of characters ends in the same place with less text behind it. -/
theorem span_shorter {p : Char → Bool} {s u v : List Char} (h : s.dropWhile p = u ++ v) :
    (s.takeWhile p ++ u).takeWhile p = s.takeWhile p ∧ (s.takeWhile p ++ u).dropWhile p = u := by
  refine takeWhile_append_stop (List.all_eq_true.1 List.all_takeWhile) fun c hc => ?_
  have hhead : (s.dropWhile p).head? = some c := by
    obtain ⟨u', rfl⟩ := List.head?_eq_some_iff.1 hc
    rw [h]; rfl
  have hnot := List.head?_dropWhile_not p s
  rw [hhead] at hnot
  simpa using hnot

/-- A quoted token is cut alike from a text that ends behind it. -/
theorem cutQuoted_shorter {kind : Kind} {quote : Char} {s u v : List Char}
    (h : (cutQuoted kind quote s).rest = u ++ v) :
    cutQuoted kind quote ((cutQuoted kind quote s).taken ++ u) =
      { cutQuoted kind quote s with rest := u } := by
  unfold cutQuoted at h ⊢
  split at h
  · rename_i held rest hs
    dsimp only at h
    have hstop : u.head? ≠ some quote := by
      intro hu
      obtain ⟨u', rfl⟩ := List.head?_eq_some_iff.1 hu
      exact head_of_unquote hs (by rw [h]; rfl)
    simp [unquote_double held hstop]
  · rename_i hs
    obtain ⟨rfl, rfl⟩ := List.append_eq_nil_iff.1 h.symm
    simp [hs]

/-- A placeholder is cut alike from a text that ends behind it. -/
theorem cutPlaceholder_shorter {s u v : List Char} (h : (cutPlaceholder s).rest = u ++ v) :
    cutPlaceholder ((cutPlaceholder s).taken ++ u) = { cutPlaceholder s with rest := u } := by
  have hspan := List.takeWhile_append_dropWhile (p := Char.isDigit) (l := s)
  unfold cutPlaceholder at h ⊢
  split at h
  · rename_i hs
    rw [hs, List.nil_append] at hspan
    have hdrop : s.dropWhile Char.isDigit = u ++ v := hspan.trans h
    have hu := (span_shorter hdrop).1
    rw [hs, List.nil_append] at hu
    simp [hu]
  · rename_i d ds hs
    obtain ⟨htake, hdrop⟩ := span_shorter h
    rw [hs] at htake hdrop
    dsimp only
    rw [htake, hdrop]

/-- A number with a full stop. -/
theorem cutNumber_point {c : Char} {s rest : List Char}
    (h : s.dropWhile Char.isDigit = '.' :: rest) :
    cutNumber c s =
      ⟨.number,
        String.ofList (c :: (s.takeWhile Char.isDigit ++ '.' :: rest.takeWhile Char.isDigit)),
        s.takeWhile Char.isDigit ++ '.' :: rest.takeWhile Char.isDigit,
        rest.dropWhile Char.isDigit⟩ := by
  unfold cutNumber
  simp only [h]

/-- A number without one. -/
theorem cutNumber_whole {c : Char} {s : List Char}
    (h : (s.dropWhile Char.isDigit).head? ≠ some '.') :
    cutNumber c s = ⟨.number, String.ofList (c :: s.takeWhile Char.isDigit),
      s.takeWhile Char.isDigit, s.dropWhile Char.isDigit⟩ := by
  unfold cutNumber
  dsimp only
  split
  · rename_i rest hrest
    exact absurd (by rw [hrest]; rfl) h
  · rfl

/-- A number is cut alike from a text that ends behind it. -/
theorem cutNumber_shorter {c : Char} {s u v : List Char} (h : (cutNumber c s).rest = u ++ v) :
    cutNumber c ((cutNumber c s).taken ++ u) = { cutNumber c s with rest := u } := by
  by_cases hpoint : (s.dropWhile Char.isDigit).head? = some '.'
  · obtain ⟨rest, hrest⟩ := List.head?_eq_some_iff.1 hpoint
    rw [cutNumber_point hrest] at h ⊢
    dsimp only at h ⊢
    have hfraction := span_shorter h
    have hwhole := span_shorter (p := Char.isDigit) (s := s)
      (u := '.' :: (rest.takeWhile Char.isDigit ++ u)) (v := v)
      (by rw [hrest, List.cons_append, List.append_assoc, ← h, List.takeWhile_append_dropWhile])
    rw [List.append_assoc, List.cons_append, cutNumber_point hwhole.2, hwhole.1, hfraction.1,
      hfraction.2]
  · rw [cutNumber_whole hpoint] at h ⊢
    dsimp only at h ⊢
    obtain ⟨htake, hdrop⟩ := span_shorter h
    have hu : u.head? ≠ some '.' := fun hu => hpoint (by
      obtain ⟨u', rfl⟩ := List.head?_eq_some_iff.1 hu
      rw [h]; rfl)
    rw [cutNumber_whole (by rwa [hdrop]), htake, hdrop]

/-- A word is cut alike from a text that ends behind it. -/
theorem cutWord_shorter {c : Char} {s u v : List Char} (h : (cutWord c s).rest = u ++ v) :
    cutWord c ((cutWord c s).taken ++ u) = { cutWord c s with rest := u } := by
  have hparts : (cutWord c s).taken = s.takeWhile Text.isWordPart ∧
      (cutWord c s).rest = s.dropWhile Text.isWordPart := by
    unfold cutWord
    dsimp only
    split <;> exact ⟨rfl, rfl⟩
  obtain ⟨htake, hdrop⟩ := span_shorter (hparts.2.symm.trans h)
  rw [hparts.1]
  unfold cutWord
  dsimp only
  rw [htake, hdrop]
  split <;> rfl

/-- A symbol is cut alike from a text that ends behind it. -/
theorem cutSymbol_shorter {c : Char} {s u v : List Char} (h : (cutSymbol c s).rest = u ++ v) :
    cutSymbol c ((cutSymbol c s).taken ++ u) = { cutSymbol c s with rest := u } := by
  rcases symbol_cases c s with hone | ⟨d, kind, t, rfl, htwo⟩
  · rw [cutSymbol_one hone] at h ⊢
    dsimp only at h ⊢
    refine cutSymbol_one fun d hd => hone d ?_
    obtain ⟨u', rfl⟩ := List.head?_eq_some_iff.1 hd
    rw [h]; rfl
  · rw [cutSymbol_two htwo] at h ⊢
    exact cutSymbol_two htwo u

/-- **A token is cut off a text as it is with less text behind it.** -/
theorem cut_shorter {c : Char} {s u v : List Char} (h : (cut c s).rest = u ++ v) :
    cut c ((cut c s).taken ++ u) = { cut c s with rest := u } := by
  rcases cut_cases c with ⟨-, hcut⟩ | ⟨-, hcut⟩ | ⟨-, hcut⟩ | ⟨-, hcut⟩ | ⟨-, hcut⟩ | ⟨-, hcut⟩
  · simp only [hcut] at h ⊢; exact cutQuoted_shorter h
  · simp only [hcut] at h ⊢; exact cutQuoted_shorter h
  · simp only [hcut] at h ⊢; exact cutPlaceholder_shorter h
  · simp only [hcut] at h ⊢; exact cutNumber_shorter h
  · simp only [hcut] at h ⊢; exact cutWord_shorter h
  · simp only [hcut] at h ⊢; exact cutSymbol_shorter h

/-! ## Several tokens -/

/-- What holds of every text: it is a gap, or the text behind its first token has it. -/
theorem scan_induction {P : List Char → Prop}
    (gap : ∀ {s g}, splitGap false s = (g, []) → P s)
    (token : ∀ {s g c rest}, splitGap false s = (g, c :: rest) → P (cut c rest).rest → P s)
    (s : List Char) : P s := by
  induction hn : s.length using Nat.strongRecOn generalizing s with
  | ind n ih =>
    cases h : splitGap false s with
    | mk g left =>
      cases left with
      | nil => exact gap h
      | cons c rest =>
        have hlength := congrArg List.length (splitGap_append false s)
        have hcut := congrArg List.length (cut_append c rest)
        rw [h] at hlength
        simp only [List.length_append, List.length_cons] at hlength hcut
        exact token h (ih _ (by omega) _ rfl)

/-- The token further on in the text. -/
def Token.moved (distance : Nat) (t : Token) : Token :=
  { t with position := distance + t.position }

/-- **Where a text stands moves its tokens,** and changes nothing else. -/
theorem scan_moved (p q : Nat) (s : List Char) :
    scan (p + q) s = (scan q s).map (Token.moved p) := by
  induction s using scan_induction generalizing q with
  | gap h => rw [scan_of_gap h, scan_of_gap h, List.map_nil]
  | token h ih =>
    rw [scan_of_token h, scan_of_token h, List.map_cons, ← ih]
    simp only [Token.moved, Nat.add_assoc]

/-- Scanning from a later place moves the tokens there. -/
theorem scan_eq_moved (p : Nat) (s : List Char) : scan p s = (scan 0 s).map (Token.moved p) :=
  scan_moved p 0 s

/-- The text behind a gap has the tokens of the text. -/
theorem scan_behind_gap (p : Nat) (s : List Char) :
    scan (p + byteLength (splitGap false s).1) (splitGap false s).2 = scan p s := by
  have hstops := splitGap_stops false s
  cases h : splitGap false s with
  | mk g left =>
    rw [h] at hstops
    cases left with
    | nil => rw [scan_of_gap h, scan_of_gap hstops]
    | cons c rest =>
      rw [scan_of_token h, scan_of_token hstops]
      simp

/-- A text without tokens is skipped. -/
theorem skipped_of_scan {p : Nat} {s : List Char} (h : scan p s = []) : Skipped s := by
  have hskipped := skipped_splitGap s
  have happend := splitGap_append false s
  cases hgap : splitGap false s with
  | mk g left =>
    cases left with
    | nil =>
      rw [hgap] at hskipped happend
      rwa [← happend, List.append_nil]
    | cons c rest =>
      rw [scan_of_token hgap] at h
      cases h

/-- **Tokens are cut apart where one of them starts:** the text up to there has those before it, the
text from there on has the others. -/
theorem scan_split {p : Nat} {s : List Char} {ts ts' : List Token} (h : scan p s = ts ++ ts') :
    ∃ u v, s = u ++ v ∧ scan p u = ts ∧ scan (p + byteLength u) v = ts' ∧
      splitGap false v = ([], v) := by
  induction ts generalizing p s with
  | nil =>
    refine ⟨_, _, (splitGap_append false s).symm, ?_, ?_, splitGap_stops false s⟩
    · exact scan_of_gap (splitGap_skipped (skipped_splitGap s))
    · rw [scan_behind_gap, h, List.nil_append]
  | cons t ts ih =>
    cases hgap : splitGap false s with
    | mk g left =>
      cases left with
      | nil =>
        rw [scan_of_gap hgap] at h
        cases h
      | cons c rest =>
        rw [scan_of_token hgap, List.cons_append, List.cons.injEq] at h
        obtain ⟨rfl, h⟩ := h
        obtain ⟨u, v, hrest, hu, hv, hstops⟩ := ih h
        have hs := splitGap_append false s
        have hcut := cut_append c rest
        rw [hrest] at hcut
        rw [hgap] at hs
        have hshort : splitGap false (g ++ c :: ((cut c rest).taken ++ u)) =
            (g, c :: ((cut c rest).taken ++ u)) := splitGap_cut (u := v) (by
          rw [List.append_assoc, hcut, hgap])
        refine ⟨g ++ c :: ((cut c rest).taken ++ u), v, ?_, ?_, ?_, hstops⟩
        · calc s = g ++ c :: rest := hs.symm
            _ = g ++ c :: ((cut c rest).taken ++ (u ++ v)) := by rw [hcut]
            _ = g ++ c :: ((cut c rest).taken ++ u) ++ v := by simp
        · rw [scan_of_token hshort, cut_shorter hrest, hu]
        · rw [← hv]
          simp only [byteLength_append, byteLength_cons, Nat.add_assoc]

/-- A text that starts with a token has its first token where it stands. -/
theorem position_of_scan {p : Nat} {v : List Char} {ts : List Token}
    (hv : splitGap false v = ([], v)) (h : scan p v = ts) :
    ts = [] ∧ v = [] ∨ ∃ t ts', ts = t :: ts' ∧ t.position = p ∧ v ≠ [] := by
  subst h
  cases v with
  | nil => exact .inl ⟨scan_of_gap hv, rfl⟩
  | cons c rest =>
    rw [scan_of_token hv]
    exact .inr ⟨_, _, rfl, by simp, by simp⟩

/-- A text with one token, at its start, is that token as it is written and what is skipped behind
it. -/
theorem written_of_scan {m : List Char} {t : Token} (h : scan 0 m = [t])
    (hm : splitGap false m = ([], m)) :
    ∃ w g, m = w ++ g ∧ Written t.kind t.lexeme w ∧ Skipped g := by
  cases m with
  | nil =>
    rw [scan_of_gap hm] at h
    cases h
  | cons c rest =>
    rw [scan_of_token hm, List.cons.injEq] at h
    obtain ⟨rfl, h⟩ := h
    refine ⟨c :: (cut c rest).taken, (cut c rest).rest, ?_, written_cut c rest, skipped_of_scan h⟩
    rw [List.cons_append, cut_append]

/-! ## Slices -/

/-- The byte offset at which a token of the text starts; behind the last one, the length of the
text. -/
def tokenStart (s : String) (i : Nat) : Nat := ((tokenize s)[i]?).elim s.utf8ByteSize (·.position)

/-- The text from one token up to another. -/
def tokenSlice (s : String) (i j : Nat) : String :=
  String.Pos.Raw.extract s ⟨tokenStart s i⟩ ⟨tokenStart s j⟩

/-- The text before its first token. -/
def beforeTokens (s : String) : String := String.Pos.Raw.extract s 0 ⟨tokenStart s 0⟩

/-- The bytes of a text are counted as its encoding has them. -/
theorem byteLength_eq_utf8Len (l : List Char) : byteLength l = String.utf8Len l := by
  induction l with
  | nil => rfl
  | cons c l ih => rw [byteLength_cons, String.utf8Len_cons, ih, Nat.add_comm]

/-- A text is as long as its characters together. -/
theorem utf8ByteSize_eq_byteLength (s : String) : s.utf8ByteSize = byteLength s.toList := by
  rw [byteLength_eq_utf8Len, ← String.utf8ByteSize_ofList, String.ofList_toList]

/-- The slice between two places is what stands between them. -/
theorem extract_eq_ofList {s : String} {u m v : List Char} (h : s.toList = u ++ m ++ v) :
    String.Pos.Raw.extract s ⟨byteLength u⟩ ⟨byteLength u + byteLength m⟩ = String.ofList m := by
  have hs : s = String.ofList (u ++ m ++ v) := by rw [← h, String.ofList_toList]
  rw [hs, byteLength_eq_utf8Len, byteLength_eq_utf8Len]
  exact String.extract_of_valid u m v

/-- A place behind some of the characters is a boundary of the text. -/
theorem isValid_byteLength {s : String} {u v : List Char} (h : s.toList = u ++ v) :
    (⟨byteLength u⟩ : String.Pos.Raw).IsValid s := by
  refine String.Pos.Raw.isValid_iff_exists_append.2 ⟨String.ofList u, String.ofList v, ?_, ?_⟩
  · rw [← String.ofList_append, ← h, String.ofList_toList]
  · rw [byteLength_eq_utf8Len, ← String.utf8ByteSize_ofList]
    rfl

/-- A token starts at its position. -/
theorem tokenStart_eq {s : String} {i : Nat} {t : Token} (h : (tokenize s)[i]? = some t) :
    tokenStart s i = t.position := by rw [tokenStart, h]; rfl

/-- The text is cut in two where a token starts, or behind the last one. -/
theorem exists_cut_at (s : String) (i : Nat) :
    ∃ u v, s.toList = u ++ v ∧ tokenStart s i = byteLength u ∧ scan 0 u = (tokenize s).take i ∧
      scan (byteLength u) v = (tokenize s).drop i ∧ splitGap false v = ([], v) := by
  obtain ⟨u, v, hs, hu, hv, hstops⟩ := scan_split (List.take_append_drop i (tokenize s)).symm
  rw [Nat.zero_add] at hv
  refine ⟨u, v, hs, ?_, hu, hv, hstops⟩
  have hhead : (tokenize s)[i]? = ((tokenize s).drop i).head? := List.head?_drop.symm
  rcases position_of_scan hstops hv with ⟨hnil, rfl⟩ | ⟨t, ts, hcons, ht, -⟩
  · rw [hnil] at hhead
    rw [tokenStart, hhead, List.head?_nil, Option.elim_none, utf8ByteSize_eq_byteLength, hs,
      List.append_nil]
  · rw [hcons, List.head?_cons] at hhead
    rw [tokenStart_eq hhead, ht]

/-- The text from token `i` up to token `j`. -/
theorem exists_slice (s : String) {i j : Nat} (hij : i ≤ j) (hj : j ≤ (tokenize s).length) :
    ∃ u m v, s.toList = u ++ m ++ v ∧ tokenStart s i = byteLength u ∧
      tokenStart s j = byteLength u + byteLength m ∧
      scan (byteLength u) m = ((tokenize s).take j).drop i ∧ splitGap false m = ([], m) := by
  obtain ⟨x, v, hs, hstart, hx, -⟩ := exists_cut_at s j
  rw [← List.take_append_drop i ((tokenize s).take j)] at hx
  obtain ⟨u, m, rfl, -, hm, hstops⟩ := scan_split hx
  rw [Nat.zero_add] at hm
  rw [byteLength_append] at hstart
  refine ⟨u, m, v, hs, ?_, hstart, hm, hstops⟩
  rcases position_of_scan hstops hm with ⟨hnil, rfl⟩ | ⟨t, ts, hcons, ht, -⟩
  · have hlength := congrArg List.length hnil
    simp only [List.length_drop, List.length_take, List.length_nil] at hlength
    have hi : i = j := by omega
    rw [hi, hstart, byteLength_nil, Nat.add_zero]
  · have hhead : (((tokenize s).take j).drop i).head? = some t := by rw [hcons, List.head?_cons]
    rw [List.head?_drop, List.getElem?_take] at hhead
    split at hhead
    · rw [tokenStart_eq hhead, ht]
    · cases hhead

/-- The tokens of a slice are those of the text, as far as the slice goes. -/
theorem tokenize_tokenSlice (s : String) {i j : Nat} (hij : i ≤ j) (hj : j ≤ (tokenize s).length) :
    (tokenize (tokenSlice s i j)).map (Token.moved (tokenStart s i)) =
      ((tokenize s).take j).drop i := by
  obtain ⟨u, m, v, hs, hi, hj, hm, -⟩ := exists_slice s hij hj
  rw [tokenSlice, hi, hj, extract_eq_ofList hs, ← hm, scan_eq_moved, tokenize,
    String.toList_ofList]

/-- The slice of one token is scanned as that token, at its start. -/
theorem tokenize_slice_one {s : String} {i : Nat} {t : Token} (h : (tokenize s)[i]? = some t) :
    tokenize (tokenSlice s i (i + 1)) = [{ t with position := 0 }] ∧
      ∃ w g, (tokenSlice s i (i + 1)).toList = w ++ g ∧ Written t.kind t.lexeme w ∧ Skipped g := by
  obtain ⟨hlt, -⟩ := List.getElem?_eq_some_iff.1 h
  obtain ⟨u, m, v, hs, hi, hj, hm, hstops⟩ := exists_slice s (Nat.le_succ i) hlt
  have hone : ((tokenize s).take (i + 1)).drop i = [t] := by
    rw [List.take_add_one, h, List.drop_append]
    simp [Nat.le_of_lt hlt]
  have hslice : tokenSlice s i (i + 1) = String.ofList m := by
    rw [tokenSlice, hi, hj, extract_eq_ofList hs]
  rw [hone, scan_eq_moved] at hm
  obtain ⟨t₀, hscan, rfl⟩ := List.map_eq_singleton_iff.1 hm
  have hzero : t₀.position = 0 := by
    have hstart : tokenStart s i = byteLength u + t₀.position := tokenStart_eq h
    omega
  have hback : { t₀.moved (byteLength u) with position := 0 } = t₀ := by
    rw [← hzero]
    rfl
  rw [hslice, hback, tokenize, String.toList_ofList]
  have hwritten := written_of_scan hscan hstops
  exact ⟨hscan, hwritten⟩

/-- Scanning from a place gives no token before it. -/
theorem le_position_of_mem_scan {p : Nat} {s : List Char} {t : Token} (h : t ∈ scan p s) :
    p ≤ t.position := by
  rw [scan_eq_moved] at h
  obtain ⟨t₀, -, rfl⟩ := List.mem_map.1 h
  exact Nat.le_add_right _ _

/-- Every token stands behind those before it. -/
theorem pairwise_scan (p : Nat) (s : List Char) :
    (scan p s).Pairwise fun t t' => t.position < t'.position := by
  induction s using scan_induction generalizing p with
  | gap h =>
    rw [scan_of_gap h]
    exact .nil
  | @token s g c rest h ih =>
    rw [scan_of_token h]
    refine List.pairwise_cons.2 ⟨fun t ht => ?_, ih _⟩
    have hle := le_position_of_mem_scan ht
    have hpos := Char.utf8Size_pos c
    rw [byteLength_cons] at hle
    dsimp only
    omega

/-- A token starts inside the text, where a character does. -/
theorem position_within {s : String} {t : Token} (h : t ∈ tokenize s) :
    t.position < s.utf8ByteSize ∧ (⟨t.position⟩ : String.Pos.Raw).IsValid s := by
  obtain ⟨i, hi⟩ := List.getElem?_of_mem h
  obtain ⟨u, v, hs, hstart, -, hv, hstops⟩ := exists_cut_at s i
  rw [tokenStart_eq hi] at hstart
  refine ⟨?_, by rw [hstart]; exact isValid_byteLength hs⟩
  rcases position_of_scan hstops hv with ⟨hnil, -⟩ | ⟨-, -, -, -, hne⟩
  · have hhead : (tokenize s)[i]? = ((tokenize s).drop i).head? := List.head?_drop.symm
    rw [hnil, hi] at hhead
    cases hhead
  · obtain ⟨c, v, rfl⟩ := List.exists_cons_of_ne_nil hne
    have hpos := Char.utf8Size_pos c
    rw [utf8ByteSize_eq_byteLength, hs, byteLength_append, byteLength_cons]
    omega

/-- The text before its first token is skipped. -/
theorem tokenize_beforeTokens (s : String) :
    tokenize (beforeTokens s) = [] ∧ Skipped (beforeTokens s).toList := by
  obtain ⟨u, v, hs, hstart, hu, -, -⟩ := exists_cut_at s 0
  have hbefore : beforeTokens s = String.ofList u := by
    have := extract_eq_ofList (s := s) (u := []) (m := u) (v := v) hs
    rw [byteLength_nil, Nat.zero_add, ← hstart] at this
    exact this
  rw [List.take_zero] at hu
  rw [hbefore, tokenize, String.toList_ofList]
  exact ⟨hu, skipped_of_scan hu⟩

/-- **The scanner loses nothing.** Its tokens start one behind the other, each at a character of the
text. Before the first one nothing but a gap is skipped, and from each to the next there is the token
as it is written and a gap. The slice of a text from one token to another holds the tokens between
them, one or several, as if it were a text of its own. -/
theorem tokenize_slices (s : String) :
    (tokenize s).Pairwise (fun t t' => t.position < t'.position) ∧
      (∀ t ∈ tokenize s, t.position < s.utf8ByteSize ∧
        (⟨t.position⟩ : String.Pos.Raw).IsValid s) ∧
      (tokenize (beforeTokens s) = [] ∧ Skipped (beforeTokens s).toList) ∧
      (∀ i t, (tokenize s)[i]? = some t →
        tokenize (tokenSlice s i (i + 1)) = [{ t with position := 0 }] ∧
          ∃ w g, (tokenSlice s i (i + 1)).toList = w ++ g ∧ Written t.kind t.lexeme w ∧
            Skipped g) ∧
      ∀ i j, i ≤ j → j ≤ (tokenize s).length →
        (tokenize (tokenSlice s i j)).map (Token.moved (tokenStart s i)) =
          ((tokenize s).take j).drop i :=
  ⟨pairwise_scan 0 s.toList, fun _ h => position_within h, tokenize_beforeTokens s,
    fun _ _ h => tokenize_slice_one h, fun _ _ hij hj => tokenize_tokenSlice s hij hj⟩

/-- A comment right behind a token, a minus sign before a number, a quote inside a string, and a
quote that is never closed. -/
theorem tokenize_slices_minus :
    (tokenize "é.\"é\"-- a\n- 1.5.'it''s' <>\t'ab ")[3]? = some ⟨.minus, "-", 12⟩ ∧
      tokenize (tokenSlice "é.\"é\"-- a\n- 1.5.'it''s' <>\t'ab " 3 4) = [⟨.minus, "-", 0⟩] :=
  have h : (tokenize "é.\"é\"-- a\n- 1.5.'it''s' <>\t'ab ")[3]? = some ⟨.minus, "-", 12⟩ := by
    decide +kernel
  ⟨h, ((tokenize_slices _).2.2.2.1 3 _ h).1⟩

end Grammar
end MiniSql
