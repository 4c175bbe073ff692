/-
# The tokens of a text that is put together

`Lexes text P` says that the text is cut into tokens with the property `P` wherever it stands,
provided that what follows it starts with a blank, a comma or a closing parenthesis. These stand
between the parts of a statement and no token runs across them, so the tokens of a text are those
of its parts, and each law below adds up what it puts together.
-/

import MiniSql.Proofs.Grammar.Scan
import MiniSql.Proofs.Grammar.Spells
import Mathlib.Data.List.Induction

namespace MiniSql
namespace Grammar

open Spells

variable {α : Type} {P Q : List Token → Prop}

/-- The text is cut into tokens with the property, wherever it stands and whatever follows it
behind a break. -/
def Lexes (text : String) (P : List Token → Prop) : Prop :=
  ∀ position rest, Breaks rest →
    ∃ u stop, scan position (text.toList ++ rest) = u ++ scan stop rest ∧ P u

/-- Several texts, with a blank before each. -/
def Trails (texts : List String) (P : List Token → Prop) : Prop :=
  ∀ position rest, Breaks rest →
    ∃ u stop,
      scan position (texts.flatMap (fun t => ' ' :: t.toList) ++ rest) = u ++ scan stop rest ∧ P u

/-- Tokens with one property and behind them tokens with another one. -/
def Then (P Q : List Token → Prop) (w : List Token) : Prop := ∃ u v, w = u ++ v ∧ P u ∧ Q v

/-- The one token of this kind and lexeme. -/
def Is (k : Kind) (lexeme : String) (u : List Token) : Prop :=
  ∃ t, u = [t] ∧ t.kind = k ∧ t.lexeme = lexeme

/-- A text is read into tokens of a wider kind too. -/
theorem Lexes.mono {text : String} (h : Lexes text P) (hPQ : ∀ {u}, P u → Q u) :
    Lexes text Q := by
  intro position rest hr
  obtain ⟨u, stop, hscan, hu⟩ := h position rest hr
  exact ⟨u, stop, hscan, hPQ hu⟩

/-- Several texts are read into tokens of a wider kind too. -/
theorem Trails.mono {texts : List String} (h : Trails texts P) (hPQ : ∀ {u}, P u → Q u) :
    Trails texts Q := by
  intro position rest hr
  obtain ⟨u, stop, hscan, hu⟩ := h position rest hr
  exact ⟨u, stop, hscan, hPQ hu⟩

/-- Nothing needs to follow the text. -/
theorem Lexes.alone {text : String} (h : Lexes text P) : P (tokenize text) := by
  obtain ⟨u, stop, hscan, hu⟩ := h 0 [] breaks_nil
  have hend : scan stop [] = [] := scan_of_gap rfl
  rw [List.append_nil, hend, List.append_nil] at hscan
  show P (scan 0 text.toList)
  rw [hscan]
  exact hu

/-! ## One text after the other -/

/-- No texts are read into no tokens. -/
theorem Trails.nil : Trails [] (· = []) := fun position _ _ => ⟨[], position, rfl, rfl⟩

/-- What follows a text that has a break behind it. -/
theorem Lexes.followed {text : String} (h : Lexes text P) {s rest : List Char} {position : Nat}
    (hs : Breaks (s ++ rest))
    (hq : ∀ position, ∃ v stop, scan position (s ++ rest) = v ++ scan stop rest ∧ Q v) :
    ∃ w stop, scan position (text.toList ++ s ++ rest) = w ++ scan stop rest ∧ Then P Q w := by
  obtain ⟨u, middle, hscan, hu⟩ := h position (s ++ rest) hs
  obtain ⟨v, stop, hscan', hv⟩ := hq middle
  refine ⟨u ++ v, stop, ?_, u, v, rfl, hu, hv⟩
  rw [List.append_assoc, hscan, hscan', List.append_assoc]

/-- Texts with a blank before each one end the token before them. -/
theorem breaks_trails (texts : List String) {rest : List Char} (hr : Breaks rest) :
    Breaks (texts.flatMap (fun t => ' ' :: t.toList) ++ rest) := by
  cases texts with
  | nil => exact hr
  | cons t texts => simp

/-- Texts are read one after the other. -/
theorem Trails.cons {text : String} {texts : List String} (h : Lexes text P)
    (h' : Trails texts Q) : Trails (text :: texts) (Then P Q) := by
  intro position rest hr
  rw [List.flatMap_cons, List.cons_append, List.cons_append, scan_space]
  exact h.followed (breaks_trails texts hr) fun position => h' position rest hr

/-- Two rows of texts are read one after the other. -/
theorem Trails.append {texts texts' : List String} (h : Trails texts P) (h' : Trails texts' Q) :
    Trails (texts ++ texts') (Then P Q) := by
  intro position rest hr
  obtain ⟨u, middle, hscan, hu⟩ := h position _ (breaks_trails texts' hr)
  obtain ⟨v, stop, hscan', hv⟩ := h' middle rest hr
  refine ⟨u ++ v, stop, ?_, u, v, rfl, hu, hv⟩
  rw [List.flatMap_append, List.append_assoc, hscan, hscan', List.append_assoc]

/-- A text and others behind it, with blanks between them. -/
theorem Lexes.trailed {text : String} {texts : List String} (h : Lexes text P)
    (h' : Trails texts Q) : Lexes (" ".intercalate (text :: texts)) (Then P Q) := by
  have hlist : (" ".intercalate (text :: texts)).toList =
      text.toList ++ texts.flatMap fun t => ' ' :: t.toList := by
    clear h h'
    induction texts generalizing text with
    | nil => simp
    | cons t texts ih => simp [ih]
  intro position rest hr
  rw [hlist]
  exact h.followed (breaks_trails texts hr) fun position => h' position rest hr

/-- One text is read alone. -/
theorem Trails.one {text : String} (h : Lexes text P) : Trails [text] P :=
  (Trails.cons h .nil).mono fun ⟨u, v, hw, hu, hv⟩ => by
    subst hv
    simpa [hw] using hu

/-- Two texts with a blank between them are read one after the other. -/
theorem Lexes.spaced {text text' : String} (h : Lexes text P) (h' : Lexes text' Q) :
    Lexes (text ++ " " ++ text') (Then P Q) := by
  simpa using h.trailed (.one h')

/-- Two texts with a comma between them are read with the comma as a token. -/
theorem Lexes.comma {text text' : String} (h : Lexes text P) (h' : Lexes text' Q) :
    Lexes (text ++ ", " ++ text') (Then P (Then (Is .comma ",") Q)) := by
  intro position rest hr
  have hlist : (text ++ ", " ++ text').toList ++ rest =
      text.toList ++ ',' :: ' ' :: text'.toList ++ rest := by simp
  rw [hlist]
  refine h.followed (by simp) fun position => ?_
  have hcomma := scan_lone (c := ',') rfl (' ' :: text'.toList ++ rest) position
  obtain ⟨v, stop, hscan, hv⟩ := h' (position + ','.utf8Size + 1) rest hr
  rw [List.cons_append, scan_space, hscan] at hcomma
  exact ⟨_ :: v, stop, hcomma, [_], v, rfl, ⟨_, rfl, rfl, rfl⟩, hv⟩

/-- Texts with blanks before them, one by one. -/
theorem Trails.many {G : List Token → α → Prop} {render : α → String} {as : List α}
    (h : ∀ a ∈ as, Lexes (render a) (G · a)) : Trails (as.map render) (Many G · as) := by
  induction as using List.reverseRecOn with
  | nil => exact Trails.nil.mono fun hu => hu ▸ .none
  | append_singleton as a ih =>
    have has := ih fun b hb => h b (by simp [hb])
    rw [List.map_append]
    exact (has.append (.one (h a (by simp)))).mono fun ⟨u, v, hw, hu, hv⟩ => hw ▸ hu.more hv

/-- Texts with commas between them. -/
theorem Lexes.commas {G : List Token → α → Prop} {render : α → String} {as : List α}
    (h : ∀ a ∈ as, Lexes (render a) (G · a)) (hne : as ≠ []) :
    Lexes (commas (as.map render)) (CommaList G · as) := by
  induction as with
  | nil => exact absurd rfl hne
  | cons a as ih =>
    have ha := h a (by simp)
    cases as with
    | nil =>
      have : Grammar.commas ([a].map render) = render a := by simp [Grammar.commas]
      rw [this]
      exact ha.mono .one
    | cons b as =>
      have has := ih (fun c hc => h c (by simp [hc])) (by simp)
      have : Grammar.commas ((a :: b :: as).map render) =
          render a ++ ", " ++ Grammar.commas ((b :: as).map render) := by simp [Grammar.commas]
      rw [this]
      exact (ha.comma has).mono fun ⟨u, _, hw, hu, _, v, hw', ⟨c, hc, hk, _⟩, hv⟩ => by
        subst hw hw' hc
        exact .more hu hk hv

/-! ## Words, names and parentheses -/

/-- A keyword is read as itself. -/
theorem lexes_keyword (k : Keyword) : Lexes k.text (Is (.keyword k) k.text) := by
  intro position rest hr
  exact ⟨[_], _, scan_keyword k hr.endsWord position, _, rfl, rfl, rfl⟩

/-- Keywords with blanks between them are read as themselves, in turn. -/
theorem lexes_words (k : Keyword) (ks : List Keyword) :
    Lexes (" ".intercalate ((k :: ks).map Keyword.text)) fun u =>
      u.map (·.kind) = (k :: ks).map .keyword := by
  have words : Trails (ks.map Keyword.text) fun u => u.map (·.kind) = ks.map .keyword := by
    induction ks with
    | nil => exact Trails.nil.mono fun hu => hu ▸ rfl
    | cons k ks ih =>
      exact (Trails.cons (lexes_keyword k) ih).mono fun ⟨u, v, hw, ⟨t, hu, hk, _⟩, hv⟩ => by
        simp [hw, hu, hk, hv]
  exact ((lexes_keyword k).trailed words).mono fun ⟨u, v, hw, ⟨t, hu, hk, _⟩, hv⟩ => by
    simp [hw, hu, hk, hv]

/-- A text with some words behind it. -/
theorem Lexes.words {text suffix : String} (h : Lexes text P) (k : Keyword) (ks : List Keyword)
    (hs : suffix = " " ++ " ".intercalate ((k :: ks).map Keyword.text)) :
    Lexes (text ++ suffix) (Then P fun u => u.map (·.kind) = (k :: ks).map .keyword) := by
  rw [hs, ← String.append_assoc]
  exact h.spaced (lexes_words k ks)

/-- A text with some words before it. -/
theorem Lexes.after {text initial : String} (h : Lexes text P) (k : Keyword) (ks : List Keyword)
    (hs : initial = " ".intercalate ((k :: ks).map Keyword.text) ++ " ") :
    Lexes (initial ++ text) (Then (fun u => u.map (·.kind) = (k :: ks).map .keyword) P) := by
  rw [hs]
  exact (lexes_words k ks).spaced h

/-- A text with one word before it. -/
theorem Lexes.afterWord {text initial : String} (h : Lexes text P) (k : Keyword)
    (hs : initial = k.text ++ " ") :
    Lexes (initial ++ text) fun u => ∃ t v, u = t :: v ∧ t.kind = .keyword k ∧ P v := by
  rw [hs]
  refine ((lexes_keyword k).spaced h).mono ?_
  rintro _ ⟨_, v, rfl, ⟨t, rfl, ht, -⟩, hv⟩
  exact ⟨t, v, rfl, ht, hv⟩

/-- Two texts with a keyword between them. -/
theorem Lexes.connected {text text' between : String} {k : Keyword} (h : Lexes text P)
    (h' : Lexes text' Q) (hb : between = " " ++ k.text ++ " ") :
    Lexes (text ++ between ++ text') (Then P (Then (Is (.keyword k) k.text) Q)) := by
  have := h.spaced ((lexes_keyword k).spaced h')
  rw [hb]
  simpa only [String.append_assoc] using this

/-- A rendered name is read as the name. -/
theorem lexes_name (n : String) : Lexes (renderName n) (Is .ident n) := by
  intro position rest hr
  exact ⟨[_], _, scan_name n hr.endsWord position, _, rfl, rfl, rfl⟩

/-- A quoted string is read as the string. -/
theorem lexes_string (s : String) : Lexes (quoted '\'' s) (Is .string s) := by
  intro position rest hr
  have hscan := scan_quoted (.inl ⟨rfl, rfl⟩) s (fun h => (hr.endsWord _ h).2.2 rfl) position
  exact ⟨[_], _, hscan, _, rfl, rfl, rfl⟩

/-- Tokens in parentheses. -/
abbrev Enclosed (P : List Token → Prop) : List Token → Prop :=
  Then (Is .openParen "(") (Then P (Is .closeParen ")"))

/-- Parentheses need no break behind them. -/
theorem scan_enclosed {text : String} (h : Lexes text P) (position : Nat) (rest : List Char) :
    ∃ u stop, scan position (("(" ++ text ++ ")").toList ++ rest) = u ++ scan stop rest ∧
      Enclosed P u := by
  have hlist : ("(" ++ text ++ ")").toList ++ rest = '(' :: (text.toList ++ ')' :: rest) := by simp
  rw [hlist]
  have hopen := scan_lone (c := '(') rfl (text.toList ++ ')' :: rest) position
  obtain ⟨u, middle, htext, hu⟩ := h (position + '('.utf8Size) (')' :: rest) (by simp)
  rw [hopen, htext, scan_lone (c := ')') rfl rest middle]
  refine ⟨⟨.openParen, "(", position⟩ :: (u ++ [⟨.closeParen, ")", middle⟩]), middle + ')'.utf8Size,
    ?_, [_], _, rfl, ⟨_, rfl, rfl, rfl⟩, u, [_], rfl, hu, ⟨_, rfl, rfl, rfl⟩⟩
  simp [symbol]

/-- A text in parentheses is read between two of them. -/
theorem Lexes.enclosed {text : String} (h : Lexes text P) :
    Lexes ("(" ++ text ++ ")") (Enclosed P) := fun position rest _ => scan_enclosed h position rest

/-- A keyword with something in parentheses right behind it. -/
theorem Lexes.call {text : String} (k : Keyword) (h : Lexes text P) :
    Lexes (k.text ++ "(" ++ text ++ ")") (Then (Is (.keyword k) k.text) (Enclosed P)) := by
  intro position rest _
  have hlist : (k.text ++ "(" ++ text ++ ")").toList ++ rest =
      k.text.toList ++ (("(" ++ text ++ ")").toList ++ rest) := by simp
  have hends : EndsWord (("(" ++ text ++ ")").toList ++ rest) := by
    simpa using endsWord_cons (by simp)
  obtain ⟨u, stop, hscan, hu⟩ := scan_enclosed h (position + byteLength k.text.toList) rest
  rw [hlist, scan_keyword k hends position, hscan]
  exact ⟨_ :: u, stop, rfl, [_], u, rfl, ⟨_, rfl, rfl, rfl⟩, hu⟩

/-- What stands between parentheses is a construct in parentheses. -/
theorem parens_of_enclosed {G : List Token → α → Prop} {a : α} {u : List Token}
    (h : Enclosed (G · a) u) : Parens G u a := by
  obtain ⟨_, _, rfl, ⟨o, rfl, ho, -⟩, u, _, rfl, hu, ⟨c, rfl, hc, -⟩⟩ := h
  simpa using Parens.mk ho hu hc

/-- A name and what follows its full stop: another name, or a star. -/
theorem Lexes.qualified (n : String) {s : String} (h : Lexes s P) :
    Lexes (renderName n ++ "." ++ s) (Then (Is .ident n) (Then (Is .period ".") P)) := by
  intro position rest hr
  have hlist : (renderName n ++ "." ++ s).toList ++ rest =
      (renderName n).toList ++ '.' :: (s.toList ++ rest) := by simp
  have hends : EndsWord ('.' :: (s.toList ++ rest)) := endsWord_cons (by simp)
  have hname := scan_name n hends position
  have hperiod := scan_lone (c := '.') rfl (s.toList ++ rest)
    (position + byteLength (renderName n).toList)
  obtain ⟨u, stop, hscan, hu⟩ := h _ rest hr
  rw [hlist, hname, hperiod, hscan]
  exact ⟨[_] ++ ([_] ++ u), stop, rfl, [_], _, rfl, ⟨_, rfl, rfl, rfl⟩, [_], u, rfl,
    ⟨_, rfl, rfl, rfl⟩, hu⟩

/-- The asterisk is read as itself. -/
theorem lexes_star : Lexes "*" (Is .asterisk "*") := by
  intro position rest _
  exact ⟨[_], _, scan_lone (c := '*') rfl rest position, _, rfl, rfl, rfl⟩

/-- A symbol that compares, between two texts. -/
theorem Lexes.compared {text text' s : String} {k : Kind} (h : Lexes text P) (h' : Lexes text' Q)
    (hk : k.isComparison = true) (hs : k.Carries s) :
    Lexes (text ++ " " ++ s ++ " " ++ text') (Then P (Then (Is k s) Q)) := by
  intro position rest hr
  have hlist : (text ++ " " ++ s ++ " " ++ text').toList ++ rest =
      text.toList ++ (' ' :: (s.toList ++ ' ' :: text'.toList)) ++ rest := by simp
  rw [hlist]
  refine h.followed (by simp) fun position => ?_
  have hsymbol := scan_comparison hk hs (text'.toList ++ rest) (position + 1)
  obtain ⟨v, stop, hscan, hv⟩ := h' (position + 1 + byteLength s.toList + 1) rest hr
  rw [List.cons_append, scan_space, List.append_assoc, List.cons_append, hsymbol, scan_space, hscan]
  exact ⟨[_] ++ v, stop, rfl, [_], v, rfl, ⟨_, rfl, rfl, rfl⟩, hv⟩

/-- A number is read as its digits. -/
theorem lexes_number {s : String} (h : Kind.number.Carries s) : Lexes s (Is .number s) := by
  obtain ⟨c, tail, rfl, hc, htail⟩ := h
  intro position rest hr
  rw [String.toList_ofList]
  exact ⟨[_], _, scan_number hc htail hr position, _, rfl, rfl, rfl⟩

/-- A placeholder is read with its digits. -/
theorem lexes_placeholder {s : String} (h : Kind.placeholder.Carries s) :
    Lexes s (Is .placeholder s) := by
  obtain ⟨c, tail, rfl, hc, htail⟩ := h
  intro position rest hr
  rw [String.toList_ofList]
  exact ⟨[_], _, scan_placeholder hc htail hr position, _, rfl, rfl, rfl⟩

/-- A minus sign and a number are two tokens. No comment starts there, as no number starts with a
minus sign. -/
theorem lexes_negative {s : String} (h : Kind.number.Carries s) :
    Lexes ("-" ++ s) (Then (Is .minus "-") (Is .number s)) := by
  obtain ⟨c, tail, rfl, hc, htail⟩ := h
  intro position rest hr
  have hlist : ("-" ++ String.ofList (c :: tail)).toList ++ rest = '-' :: (c :: tail ++ rest) := by
    simp
  have hdigit : c ≠ '-' ∧ doubleSymbol? '-' c = none := by
    refine ⟨(cut_eq_cutNumber hc tail).2.2, ?_⟩
    unfold doubleSymbol?
    split <;> simp_all
  have hcut : cut '-' (c :: tail ++ rest) = ⟨.minus, "-", [], c :: tail ++ rest⟩ := by
    show cutSymbol '-' (c :: (tail ++ rest)) = _
    rw [cutSymbol, hdigit.2]
    rfl
  have hminus := scan_of_cut position (by decide) (fun _ => by simpa using hdigit.1) hcut
  rw [hlist, hminus, scan_number hc htail hr]
  exact ⟨[_] ++ [_], _, rfl, [_], [_], rfl, ⟨_, rfl, rfl, rfl⟩, ⟨_, rfl, rfl, rfl⟩⟩

end Grammar
end MiniSql
