/-
# Which token stands at the start of a text

One law for each kind of token: what is written of it is cut off as that token, whatever follows
it that does not go on with it. The text behind is scanned from the byte at which it stands.

| what is written | stands before |
| --- | --- |
| a name, a keyword | what is no part of a word, and no quote |
| a number, a placeholder | a blank, a comma, a closing parenthesis |
| a comparison | a blank |
| another symbol | anything |

In the other direction `carries_of_mem_scan` says what the lexeme of a token looks like.
-/

import MiniSql.Grammar.Token.Scan
import MiniSql.Grammar.Tree.Render

namespace MiniSql
namespace Grammar

/-- What follows starts with a character that ends every token. -/
def Breaks (rest : List Char) : Prop := ∀ c ∈ rest.head?, c = ' ' ∨ c = ',' ∨ c = ')'

/-- The end of a text ends every token. -/
@[simp] theorem breaks_nil : Breaks [] := by simp [Breaks]

/-- A space, a comma and a closing bracket end every token. -/
@[simp] theorem breaks_cons {c : Char} {rest : List Char} :
    Breaks (c :: rest) ↔ c = ' ' ∨ c = ',' ∨ c = ')' := by simp [Breaks]

/-- What follows goes on with no word and closes no quotes. -/
def EndsWord (rest : List Char) : Prop :=
  ∀ c ∈ rest.head?, Text.isWordPart c = false ∧ c ≠ '"' ∧ c ≠ '\''

/-- What ends every token ends a word, and so do a full stop and an opening bracket. -/
theorem endsWord_cons {c : Char} {rest : List Char}
    (h : c = ' ' ∨ c = ',' ∨ c = ')' ∨ c = '.' ∨ c = '(') : EndsWord (c :: rest) := by
  intro d hd
  cases hd
  rcases h with rfl | rfl | rfl | rfl | rfl <;> decide

/-- What ends every token ends a word. -/
theorem Breaks.endsWord {rest : List Char} (h : Breaks rest) : EndsWord rest := by
  cases rest with
  | nil => simp [EndsWord]
  | cons c rest => exact endsWord_cons (by grind [breaks_cons.1 h])

/-! ## One token -/

/-- A run ends where what is next is not of its kind. -/
theorem takeWhile_append_stop {α : Type} {p : α → Bool} {s rest : List α} (hs : ∀ c ∈ s, p c = true)
    (hr : ∀ c ∈ rest.head?, p c = false) :
    (s ++ rest).takeWhile p = s ∧ (s ++ rest).dropWhile p = rest := by
  have hstop : rest.takeWhile p = [] ∧ rest.dropWhile p = rest := by
    cases rest with
    | nil => exact ⟨rfl, rfl⟩
    | cons d rest =>
      have hd : p d = false := hr d rfl
      exact ⟨by simp [hd], by simp [hd]⟩
  rw [List.takeWhile_append_of_pos hs, List.dropWhile_append_of_pos hs, hstop.1, hstop.2,
    List.append_nil]
  exact ⟨rfl, rfl⟩

/-- A space is skipped. -/
theorem scan_space (position : Nat) (s : List Char) :
    scan position (' ' :: s) = scan (position + 1) s := by
  have hgap : splitGap false (' ' :: s) = (' ' :: (splitGap false s).1, (splitGap false s).2) := rfl
  have hbytes : byteLength [' '] = 1 := rfl
  cases h : splitGap false s with
  | mk skipped left =>
    rw [h] at hgap
    cases left with
    | nil => rw [scan_of_gap h, scan_of_gap hgap]
    | cons c rest =>
      rw [scan_of_token h, scan_of_token hgap]
      simp [Nat.add_assoc, show Char.utf8Size ' ' = 1 from rfl]

/-- A character that is neither blank nor opens a comment starts a token. -/
theorem scan_of_cut (position : Nat) {c : Char} {s taken rest : List Char} {k : Kind}
    {lexeme : String} (hc : Text.isBlank c = false) (hd : c = '-' → s.head? ≠ some '-')
    (hcut : cut c s = ⟨k, lexeme, taken, rest⟩) :
    scan position (c :: s) =
      ⟨k, lexeme, position⟩ :: scan (position + byteLength (c :: taken)) rest := by
  have hgap : splitGap false (c :: s) = ([], c :: s) := by
    have : ¬(c = '-' ∧ s.head? = some '-') := fun h => hd h.1 h.2
    simp [splitGap, hc, this]
  rw [scan_of_token hgap, hcut, byteLength_nil, Nat.add_zero]

/-! ## Words -/

/-- What holds of every `ASCII` character, checked one by one. -/
theorem forall_ascii {p : Char → Prop} (h : ∀ n < 128, p (Char.ofNat n)) {c : Char}
    (hc : c.toNat < 128) : p c := by
  have := h c.toNat hc
  rwa [Char.ofNat_toNat] at this

/-- The characters of keywords and of names without quotes. -/
def isAsciiWord (c : Char) : Bool := isPlain c || c.isUpper

/-- The characters of a plain word are the first ones there are. -/
theorem toNat_lt_of_isAsciiWord {c : Char} (h : isAsciiWord c = true) : c.toNat < 128 := by
  have hlower : c.isLower = (decide ('a'.val ≤ c.val) && decide (c.val ≤ 'z'.val)) := rfl
  have hupper : c.isUpper = decide ('A'.val ≤ c.val ∧ c.val ≤ 'Z'.val) := rfl
  simp only [isAsciiWord, isPlain, hlower, Char.isDigit, hupper, Bool.or_eq_true,
    Bool.and_eq_true, decide_eq_true_eq, UInt32.le_iff_toNat_le, beq_iff_eq, ge_iff_le] at h
  rcases h with ((⟨-, h⟩ | ⟨-, h⟩) | rfl) | ⟨-, h⟩
  · exact Nat.lt_of_le_of_lt h (by decide)
  · exact Nat.lt_of_le_of_lt h (by decide)
  · decide
  · exact Nat.lt_of_le_of_lt h (by decide)

/-- Plain characters are parts of a word, and begin neither a gap nor a comment. -/
theorem isWordPart_of_isAsciiWord {c : Char} (h : isAsciiWord c = true) :
    Text.isWordPart c = true ∧ Text.isBlank c = false ∧ c ≠ '-' :=
  forall_ascii (p := fun c => isAsciiWord c = true →
    Text.isWordPart c = true ∧ Text.isBlank c = false ∧ c ≠ '-') (by decide)
    (toNat_lt_of_isAsciiWord h) h

/-- A token that begins with a letter is cut as a word. -/
theorem cut_eq_cutWord {c : Char} (h : isAsciiWord c = true) (hd : c.isDigit = false)
    (s : List Char) : cut c s = cutWord c s := by
  have := forall_ascii (p := fun c => isAsciiWord c = true → c.isDigit = false →
    Text.isWordStart c = true ∧ c ≠ '\'' ∧ c ≠ '"' ∧ c ≠ '\x60' ∧ c ≠ '$') (by decide)
    (toNat_lt_of_isAsciiWord h) h hd
  simp [cut, this, hd]

/-- Plain characters are lowercase already. -/
theorem lowerChar_of_isPlain {c : Char} (h : isPlain c = true) :
    Text.lowerChar c = [c] ∧ c ≠ Text.capitalSigma :=
  forall_ascii (p := fun c => isPlain c = true → Text.lowerChar c = [c] ∧ c ≠ Text.capitalSigma)
    (by decide) (toNat_lt_of_isAsciiWord (by simp [isAsciiWord, h])) h

/-- A text of plain characters is in lower case already. -/
theorem lower_of_isPlain {s : String} (h : ∀ c ∈ s.toList, isPlain c = true) :
    Text.lower s = s := by
  have from_ (before chars : List Char) (h : ∀ c ∈ chars, isPlain c = true) :
      Text.lowerFrom before chars = chars := by
    induction chars generalizing before with
    | nil => rfl
    | cons c chars ih =>
      obtain ⟨hl, hs⟩ := lowerChar_of_isPlain (h c (by simp))
      rw [Text.lowerFrom, if_neg hs, hl, ih _ fun d hd => h d (by simp [hd])]
      rfl
  rw [Text.lower, from_ [] s.toList h, String.ofList_toList]

/-- An uppercase letter belongs to a plain word and is no digit. -/
theorem isAsciiWord_of_isUpper {c : Char} (h : (c.isUpper || c == '_') = true) :
    isAsciiWord c = true ∧ c.isDigit = false := by
  have hword : isAsciiWord c = true := by
    simp only [Bool.or_eq_true] at h
    rcases h with h | h <;> simp [isAsciiWord, isPlain, h]
  exact ⟨hword, forall_ascii (p := fun c => (c.isUpper || c == '_') = true → c.isDigit = false)
    (by decide) (toNat_lt_of_isAsciiWord hword) h⟩

/-- What a word and what follows it is cut into. -/
theorem cutWord_append {c : Char} {s rest : List Char} (hs : ∀ d ∈ s, isAsciiWord d = true)
    (hr : EndsWord rest) {word : String} (hw : word = String.ofList (c :: s)) :
    cutWord c (s ++ rest) = match Keyword.ofWord? word with
      | some k => ⟨.keyword k, word, s, rest⟩
      | none => ⟨.ident, Text.lower word, s, rest⟩ := by
  have hpart : ∀ d ∈ s, Text.isWordPart d = true := fun d hd =>
    (isWordPart_of_isAsciiWord (hs d hd)).1
  obtain ⟨htake, hdrop⟩ := takeWhile_append_stop hpart fun d hd => (hr d hd).1
  cases hk : Keyword.ofWord? word <;> simp only [cutWord, htake, hdrop, ← hw, hk]

/-- The words of the language are in upper case, and each spells itself. -/
theorem Keyword.ofWord?_text (k : Keyword) : Keyword.ofWord? k.text = some k := by
  have h : ∀ k ∈ all, ofWord? k.text = some k := by decide +kernel
  exact h k (mem_all k)

/-- Keywords are written in uppercase letters. -/
theorem Keyword.text_isUpper (k : Keyword) :
    k.text.toList ≠ [] ∧ ∀ c ∈ k.text.toList, c.isUpper || c == '_' := by
  have h : (all.all fun k => !k.text.toList.isEmpty &&
      k.text.toList.all fun c => c.isUpper || c == '_') = true := by
    decide +kernel
  simpa using List.all_eq_true.1 h k (mem_all k)

/-- A word is one token in front of anything that does not go on with it. -/
theorem scan_word {word : String} {c : Char} {s rest : List Char} (hw : word.toList = c :: s)
    (hs : ∀ d ∈ c :: s, isAsciiWord d = true) (hd : c.isDigit = false) (hr : EndsWord rest)
    (position : Nat) : scan position (word.toList ++ rest) =
      (match Keyword.ofWord? word with
        | some k => ⟨.keyword k, word, position⟩
        | none => ⟨.ident, Text.lower word, position⟩) ::
        scan (position + byteLength word.toList) rest := by
  have hc := hs c (by simp)
  obtain ⟨-, hb, hm⟩ := isWordPart_of_isAsciiWord hc
  have hofList : word = String.ofList (c :: s) := by rw [← hw, String.ofList_toList]
  have hcut : cut c (s ++ rest) = _ := (cut_eq_cutWord hc hd _).trans
    (cutWord_append (fun d hd => hs d (by simp [hd])) hr hofList)
  rw [hw, List.cons_append]
  cases hk : Keyword.ofWord? word with
  | some k => exact scan_of_cut position hb (fun h => absurd h hm) (by rw [hcut, hk])
  | none => exact scan_of_cut position hb (fun h => absurd h hm) (by rw [hcut, hk])

/-- **A keyword** is scanned as itself in front of what ends a word. -/
theorem scan_keyword (k : Keyword) {rest : List Char} (hr : EndsWord rest) (position : Nat) :
    scan position (k.text.toList ++ rest) =
      ⟨.keyword k, k.text, position⟩ :: scan (position + byteLength k.text.toList) rest := by
  obtain ⟨hne, hupper⟩ := k.text_isUpper
  obtain ⟨c, s, hs⟩ := List.exists_cons_of_ne_nil hne
  rw [hs] at hupper
  have h := scan_word hs (fun d hd => (isAsciiWord_of_isUpper (hupper d hd)).1)
    (isAsciiWord_of_isUpper (hupper c (by simp))).2 hr position
  rwa [k.ofWord?_text] at h

/-! ## Quotes -/

/-- What quotes hold is cut off up to the closing quote. -/
theorem cutQuoted_double (kind : Kind) {quote : Char} (held : List Char) {rest : List Char}
    (hr : rest.head? ≠ some quote) :
    cutQuoted kind quote (double quote held ++ quote :: rest) =
      ⟨kind, String.ofList held, double quote held ++ [quote], rest⟩ := by
  rw [cutQuoted, unquote_double held hr]

/-- **What is quoted** is scanned as what it holds, unless another quote follows. -/
theorem scan_quoted {quote : Char} {k : Kind} (hq : quote = '\'' ∧ k = .string ∨
    quote = '"' ∧ k = .ident) (held : String) {rest : List Char} (hr : rest.head? ≠ some quote)
    (position : Nat) : scan position ((quoted quote held).toList ++ rest) =
      ⟨k, held, position⟩ :: scan (position + byteLength (quoted quote held).toList) rest := by
  have hcut := cutQuoted_double k held.toList hr
  rw [String.ofList_toList] at hcut
  have htext : (quoted quote held).toList = quote :: (double quote held.toList ++ [quote]) := by
    simp [quoted]
  rw [htext, List.cons_append, List.append_assoc, List.singleton_append]
  rcases hq with ⟨rfl, rfl⟩ | ⟨rfl, rfl⟩ <;>
    exact scan_of_cut position (by decide) (by simp) (by simpa [cut] using hcut)

/-- A plain name begins with a lowercase letter, goes on with plain characters and is no keyword. -/
theorem plainName_iff {n : String} : plainName n = true ↔ ∃ c s, n.toList = c :: s ∧
    (c.isLower = true ∨ c = '_') ∧ (∀ d ∈ s, isPlain d = true) ∧ Keyword.ofWord? n = none := by
  unfold plainName
  split
  · simp_all
  · rename_i hn
    simp [hn, and_assoc]

/-- **A name reads as itself,** with or without quotes. -/
theorem scan_name (n : String) {rest : List Char} (hr : EndsWord rest) (position : Nat) :
    scan position ((renderName n).toList ++ rest) =
      ⟨.ident, n, position⟩ :: scan (position + byteLength (renderName n).toList) rest := by
  unfold renderName
  split
  · rename_i hn
    obtain ⟨c, s, hs, hc, hplain, hk⟩ := plainName_iff.1 hn
    have hc' : isPlain c = true := by rcases hc with hc | rfl <;> simp [isPlain, *]
    have hall : ∀ d ∈ c :: s, isPlain d = true := List.forall_mem_cons.2 ⟨hc', hplain⟩
    have hword : ∀ d ∈ c :: s, isAsciiWord d = true := fun d hd => by simp [isAsciiWord, hall d hd]
    have hdigit : c.isDigit = false :=
      forall_ascii (p := fun c => c.isLower = true ∨ c = '_' → c.isDigit = false) (by decide)
        (toNat_lt_of_isAsciiWord (hword c (by simp))) hc
    have h := scan_word hs hword hdigit hr position
    rwa [hk, lower_of_isPlain (hs ▸ hall)] at h
  · exact scan_quoted (.inr ⟨rfl, rfl⟩) n (fun h => (hr _ h).2.1 rfl) position

/-! ## Symbols, numbers and placeholders -/

/-- The symbols that are tokens whatever follows them. -/
def isLone (c : Char) : Bool :=
  c == '*' || c == '(' || c == ')' || c == ',' || c == '.' || c == '='

/-- A character that is a token by itself is scanned whatever follows. -/
theorem scan_lone {c : Char} (hc : isLone c = true) (rest : List Char) (position : Nat) :
    scan position (c :: rest) =
      ⟨symbol c, c.toString, position⟩ :: scan (position + c.utf8Size) rest := by
  have hcut : cut c rest = ⟨symbol c, c.toString, [], rest⟩ := by
    simp only [isLone, Bool.or_eq_true, beq_iff_eq] at hc
    rcases hc with ((((rfl | rfl) | rfl) | rfl) | rfl) | rfl <;> cases rest <;> rfl
  have hchar : Text.isBlank c = false ∧ c ≠ '-' := by
    simp only [isLone, Bool.or_eq_true, beq_iff_eq] at hc
    rcases hc with ((((rfl | rfl) | rfl) | rfl) | rfl) | rfl <;> decide
  simpa using scan_of_cut position hchar.1 (fun h => absurd h hchar.2) hcut

/-- The digits of a number behind its first one, with or without a full stop among them. -/
def IsNumberTail (s : List Char) : Prop :=
  s.all Char.isDigit = true ∨
    ∃ whole fraction, s = whole ++ '.' :: fraction ∧ whole.all Char.isDigit = true ∧
      fraction.all Char.isDigit = true

/-- What the lexeme of a token of the given kind looks like, as far as it tells. The quoted kinds
and the words carry any text. -/
def Kind.Carries : Kind → String → Prop
  | .number, s => ∃ c tail, s = String.ofList (c :: tail) ∧ c.isDigit = true ∧ IsNumberTail tail
  | .placeholder, s => ∃ c tail, s = String.ofList ('$' :: c :: tail) ∧ c.isDigit = true ∧
    tail.all Char.isDigit = true
  | .asterisk, s => s = "*"
  | .openParen, s => s = "("
  | .equal, s => s = "="
  | .notEqual, s => s = "!=" ∨ s = "<>"
  | .less, s => s = "<"
  | .lessEqual, s => s = "<="
  | .greater, s => s = ">"
  | .greaterEqual, s => s = ">="
  | _, _ => True

/-- What is cut as a number carries its digits. -/
theorem carries_cutNumber {c : Char} (hc : c.isDigit = true) (s : List Char) :
    (cutNumber c s).kind.Carries (cutNumber c s).lexeme := by
  have hdigits (s : List Char) : (s.takeWhile Char.isDigit).all Char.isDigit = true :=
    List.all_takeWhile
  unfold cutNumber
  dsimp only
  split
  · exact ⟨c, _, rfl, hc, .inr ⟨_, _, rfl, hdigits _, hdigits _⟩⟩
  · exact ⟨c, _, rfl, hc, .inl (hdigits _)⟩

/-- A symbol of one character carries that character. -/
theorem carries_symbol (c : Char) : (symbol c).Carries c.toString := by
  unfold symbol
  split <;> first | rfl | trivial

/-- A symbol of two characters carries both. -/
theorem carries_doubleSymbol {c d : Char} {k : Kind} (h : doubleSymbol? c d = some k) :
    k.Carries (String.ofList [c, d]) := by
  unfold doubleSymbol? at h
  split at h <;> cases h
  · exact .inl rfl
  · rfl
  · exact .inr rfl
  · rfl

/-- **Every token that is cut** carries what its kind says. -/
theorem carries_cut (c : Char) (s : List Char) : (cut c s).kind.Carries (cut c s).lexeme := by
  unfold cut
  split
  · unfold cutQuoted
    split <;> trivial
  split
  · unfold cutQuoted
    split <;> trivial
  split
  · unfold cutPlaceholder
    have := List.all_takeWhile (p := Char.isDigit) (l := s)
    split
    · trivial
    · rename_i d ds hds
      rw [hds] at this
      simp only [List.all_cons, Bool.and_eq_true] at this
      exact ⟨d, ds, rfl, this.1, this.2⟩
  split
  · exact carries_cutNumber (by assumption) s
  split
  · unfold cutWord
    dsimp only
    split <;> trivial
  · unfold cutSymbol
    split
    · exact carries_symbol c
    · split
      · exact carries_doubleSymbol (by assumption)
      · exact carries_symbol c

/-- **Every token of a text carries what its kind says.** -/
theorem carries_of_mem_scan {position : Nat} {s : List Char} {t : Token} (h : t ∈ scan position s) :
    t.kind.Carries t.lexeme := by
  induction hn : s.length using Nat.strongRecOn generalizing position s with
  | ind n ih =>
    cases hgap : splitGap false s with
    | mk skipped left =>
      cases left with
      | nil => simp [scan_of_gap hgap] at h
      | cons c rest =>
        have hlength := congrArg List.length (splitGap_append false s)
        have hcut := congrArg List.length (cut_append c rest)
        rw [hgap] at hlength
        simp only [List.length_append, List.length_cons] at hlength hcut
        rw [scan_of_token hgap] at h
        rcases List.mem_cons.1 h with rfl | h
        · exact carries_cut c rest
        · exact ih _ (by omega) h rfl

/-- A token that begins with a digit is cut as a number. -/
theorem cut_eq_cutNumber {c : Char} (hc : c.isDigit = true) (s : List Char) :
    cut c s = cutNumber c s ∧ Text.isBlank c = false ∧ c ≠ '-' := by
  have hword : isAsciiWord c = true := by simp [isAsciiWord, isPlain, hc]
  have := forall_ascii (p := fun c => c.isDigit = true → c ≠ '\'' ∧ c ≠ '"' ∧ c ≠ '\x60' ∧ c ≠ '$')
    (by decide) (toNat_lt_of_isAsciiWord hword) hc
  exact ⟨by simp [cut, this, hc], (isWordPart_of_isAsciiWord hword).2⟩

/-- What ends a token is neither a digit nor a full stop. -/
theorem Breaks.notDigit {rest : List Char} (h : Breaks rest) {c : Char} (hc : c ∈ rest.head?) :
    c.isDigit = false ∧ c ≠ '.' := by
  rcases h c hc with rfl | rfl | rfl <;> decide

/-- A number is cut off in front of what ends every token. -/
theorem cutNumber_append {c : Char} {s rest : List Char} (hs : IsNumberTail s)
    (hr : Breaks rest) :
    cutNumber c (s ++ rest) = ⟨.number, String.ofList (c :: s), s, rest⟩ := by
  have hstop : ∀ c ∈ rest.head?, c.isDigit = false := fun c hc => (hr.notDigit hc).1
  unfold cutNumber
  rcases hs with hs | ⟨whole, fraction, rfl, hw, hf⟩
  · obtain ⟨htake, hdrop⟩ := takeWhile_append_stop (List.all_eq_true.1 hs) hstop
    dsimp only
    rw [htake, hdrop]
    split
    · exact absurd rfl (hr.notDigit rfl).2
    · rfl
  · have hpoint : ∀ c ∈ ('.' :: (fraction ++ rest)).head?, c.isDigit = false := by simp
    obtain ⟨htake, hdrop⟩ := takeWhile_append_stop (List.all_eq_true.1 hw) hpoint
    obtain ⟨htake', hdrop'⟩ := takeWhile_append_stop (List.all_eq_true.1 hf) hstop
    simp [htake, hdrop, htake', hdrop']

/-- **A number** is scanned as its digits. -/
theorem scan_number {s rest : List Char} {c : Char} (hc : c.isDigit = true)
    (hs : IsNumberTail s) (hr : Breaks rest) (position : Nat) :
    scan position (c :: s ++ rest) =
      ⟨.number, String.ofList (c :: s), position⟩ ::
        scan (position + byteLength (c :: s)) rest := by
  obtain ⟨hcut, hb, hm⟩ := cut_eq_cutNumber hc (s ++ rest)
  exact scan_of_cut position hb (fun h => absurd h hm) (hcut.trans (cutNumber_append hs hr))

/-- **A placeholder** is scanned as its sign and its digits. -/
theorem scan_placeholder {s rest : List Char} {c : Char} (hc : c.isDigit = true)
    (hs : s.all Char.isDigit = true) (hr : Breaks rest) (position : Nat) :
    scan position ('$' :: c :: s ++ rest) =
      ⟨.placeholder, String.ofList ('$' :: c :: s), position⟩ ::
        scan (position + byteLength ('$' :: c :: s)) rest := by
  have hdigits : ∀ d ∈ c :: s, d.isDigit = true := List.all_eq_true.1 (by simp [hc, hs])
  obtain ⟨htake, hdrop⟩ := takeWhile_append_stop hdigits fun c hc => (hr.notDigit hc).1
  have hcut : cut '$' (c :: s ++ rest) =
      ⟨.placeholder, String.ofList ('$' :: c :: s), c :: s, rest⟩ := by
    show cutPlaceholder (c :: s ++ rest) = _
    unfold cutPlaceholder
    rw [htake, hdrop]
  exact scan_of_cut position (by decide) (fun h => absurd h (by decide)) hcut

/-- A comparison is scanned as itself in front of a space. -/
theorem scan_comparison {k : Kind} {s : String} (hk : k.isComparison = true) (hs : k.Carries s)
    (rest : List Char) (position : Nat) :
    scan position (s.toList ++ ' ' :: rest) =
      ⟨k, s, position⟩ :: scan (position + byteLength s.toList) (' ' :: rest) := by
  have of_cut {c : Char} {taken : List Char} (htext : s.toList = c :: taken)
      (hc : Text.isBlank c = false ∧ c ≠ '-')
      (hcut : cut c (taken ++ ' ' :: rest) = ⟨k, s, taken, ' ' :: rest⟩) :
      scan position (s.toList ++ ' ' :: rest) =
        ⟨k, s, position⟩ :: scan (position + byteLength s.toList) (' ' :: rest) := by
    rw [htext]
    exact scan_of_cut position hc.1 (fun h => absurd h hc.2) hcut
  cases k with
  | notEqual => rcases hs with rfl | rfl <;> exact of_cut rfl (by decide) rfl
  | equal | less | lessEqual | greater | greaterEqual =>
    cases hs
    exact of_cut rfl (by decide) rfl
  | _ => cases hk

end Grammar
end MiniSql
