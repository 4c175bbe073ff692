/-
# What is written of a predicate is read back

A tree that a statement spells is written as a text whose tokens spell the tree again. The proofs
follow the grammar, one part after the other; what a part is written as is put together from what
its own parts are written as.

Most of a token's text comes back from the tree alone. Numbers, placeholders and symbols keep
their lexemes in the tree, so these must look as a text gives them: the tokens are `Genuine`.
-/

import MiniSql.Proofs.Grammar.Completeness
import MiniSql.Proofs.Grammar.Lexes

namespace MiniSql
namespace Grammar

open Spells

/-- The tokens carry what their kinds say, as those of a text do. -/
def Genuine (u : List Token) : Prop := ∀ t ∈ u, t.kind.Carries t.lexeme

/-- No tokens carry anything wrong. -/
@[simp] theorem genuine_nil : Genuine [] := by simp [Genuine]

/-- Tokens are genuine if the first carries what its kind says and the others are genuine. -/
@[simp] theorem genuine_cons {t : Token} {u : List Token} :
    Genuine (t :: u) ↔ t.kind.Carries t.lexeme ∧ Genuine u := by simp [Genuine]

/-- Two parts in a row are genuine if both are. -/
@[simp] theorem genuine_append {u v : List Token} :
    Genuine (u ++ v) ↔ Genuine u ∧ Genuine v := by
  simp only [Genuine, List.mem_append]
  grind

/-! ## Names and columns -/

/-- An identifier spells its lexeme as a name. -/
theorem name_of_is {n : String} {u : List Token} (h : Is .ident n u) :
    ∃ t, u = [t] ∧ t.kind = .ident ∧ t.name? = some n := by
  obtain ⟨t, rfl, hk, rfl⟩ := h
  exact ⟨t, rfl, hk, by simp [Token.name?, hk]⟩

/-- A node is written as its name, in quotes where the name needs them. -/
theorem lexes_node (node : String → Tree) (n : String) :
    Lexes (renderName n) (Name node · (node n)) := by
  refine (lexes_name n).mono fun h => ?_
  obtain ⟨t, rfl, -, hn⟩ := name_of_is h
  exact .mk hn

/-- A column is written as its name. -/
@[simp] theorem renderItem_ident (n : String) :
    Tree.renderItem (.leaf .ident n) = renderName n := by
  simp [Tree.leaf, Tree.renderItem, Tree.qualifier, Tree.part?]

/-- A qualified column is written with a full stop between its names. -/
@[simp] theorem renderItem_qualified (n m : String) :
    Tree.renderItem ⟨.ident, m, [.table n []]⟩ = renderName n ++ "." ++ renderName m := by
  simp [Tree.renderItem, Tree.qualifier, Tree.part?, Tree.isWord, Tree.table]

/-- A column is written with identifiers. -/
theorem lexes_column {u : List Token} {c : Tree} (h : Column u c) :
    Lexes c.renderItem fun v => Column v c ∧ ∀ t ∈ v.head?, t.kind = .ident := by
  cases h with
  | @plain t n h =>
    rw [renderItem_ident]
    refine (lexes_name n).mono fun h => ?_
    obtain ⟨t, rfl, hk, hn⟩ := name_of_is h
    exact ⟨.plain hn, by simpa using hk⟩
  | @qualified t d c n m ht hd hc =>
    rw [renderItem_qualified]
    refine ((lexes_name m).qualified n).mono fun ⟨_, _, hw, h, _, _, hw', ⟨d, hd, hk, _⟩, h'⟩ => ?_
    obtain ⟨t, rfl, hk', hn⟩ := name_of_is h
    obtain ⟨s, rfl, -, hm⟩ := name_of_is h'
    subst hw hw' hd
    exact ⟨.qualified hn hk hm, by simpa using hk'⟩

/-! ## Values -/

/-- A word is written as itself. -/
@[simp] theorem renderItem_word (k : Keyword) : (Tree.word k []).renderItem = k.text := by
  simp [Tree.word, Tree.renderItem]

/-- A literal is written as its token. -/
theorem lexes_literal {t : Token} (h : t.kind.isLiteral = true) (hg : t.kind.Carries t.lexeme) :
    Lexes (Tree.leaf t.kind t.lexeme).renderItem (Is t.kind t.lexeme) := by
  cases hk : t.kind with
  | number =>
    rw [hk] at hg
    simpa [Tree.leaf, Tree.renderItem] using lexes_number hg
  | string => simpa [Tree.leaf, Tree.renderItem] using lexes_string t.lexeme
  | placeholder =>
    rw [hk] at hg
    simpa [Tree.leaf, Tree.renderItem] using lexes_placeholder hg
  | _ => simp [hk, Kind.isLiteral] at h

/-- **A value is written** so that it is read back, in each of its forms. -/
theorem lexes_value {u : List Token} {v : Tree} (h : Value u v) (hg : Genuine u) :
    Lexes v.renderItem (Value · v) := by
  cases h with
  | @literal t h =>
    refine (lexes_literal h (genuine_cons.1 hg).1).mono fun hu => ?_
    obtain ⟨t', rfl, hk, hl⟩ := hu
    rw [← hk, ← hl]
    exact .literal (hk ▸ h)
  | @negative m n hm hn =>
    simp only [genuine_cons, hn] at hg
    have htext : (Tree.leaf .number ("-" ++ n.lexeme)).renderItem = "-" ++ n.lexeme := by
      simp [Tree.leaf, Tree.renderItem]
    rw [htext]
    refine (lexes_negative hg.2.1).mono ?_
    rintro _ ⟨_, _, rfl, ⟨m, rfl, hm, -⟩, ⟨n', rfl, hn, hl⟩⟩
    rw [← hl]
    exact .negative hm hn
  | @word t k h hk =>
    rw [renderItem_word]
    refine (lexes_keyword k).mono ?_
    rintro _ ⟨t, rfl, ht, -⟩
    exact .word ht hk
  | now h =>
    have htext : v = .word .CURRENT_TIMESTAMP [] := by cases h <;> rfl
    rw [htext, renderItem_word]
    refine (lexes_keyword .CURRENT_TIMESTAMP).mono ?_
    rintro _ ⟨t, rfl, ht, -⟩
    exact .now (.word ht)
  | column h ht =>
    refine (lexes_column h).mono ?_
    rintro v ⟨hv, hhead⟩
    cases hv with
    | plain hn => exact .column (.plain hn) (by simp [hhead _ rfl])
    | qualified hn hd hm => exact .column (.qualified hn hd hm) (by simp [hhead _ rfl])

/-! ## Predicates -/

/-- The level of a predicate that is written under a connective of the given strength. -/
def levelUnder (outer : Nat) : Level :=
  if outer > 2 then .atom else if outer > 1 then .conjunction else .disjunction

/-- What stands alone may stand under any connective. -/
theorem predicate_levelUnder_of_atom {u : List Token} {t : Tree} (h : Predicate .atom u t)
    (outer : Nat) : Predicate (levelUnder outer) u t := by
  unfold levelUnder
  split
  · exact h
  split
  · exact .ofAtom h
  · exact .ofConjunction (.ofAtom h)

/-- A comparison is written with its sign between its sides. -/
theorem renderPredicate_comparison {k : Kind} (hk : k.isComparison = true) (s : String)
    (l r : Tree) (outer : Nat) :
    Tree.renderPredicate outer ⟨k, s, [l, r]⟩ =
      l.renderItem ++ " " ++ s ++ " " ++ r.renderItem := by
  cases k <;> first | rfl | cases hk

/-- What stands alone is written as an item. -/
theorem renderPredicate_of_standsAlone {t : Tree} (h : Parser.standsAlone t = true) (outer : Nat) :
    t.renderPredicate outer = t.renderItem := by
  obtain ⟨k, s, cs⟩ := t
  rcases kind_of_standsAlone h with hk | hk | hk <;> cases hk <;> rfl

/-- What is written in parentheses when its connective binds too loosely reads as the level that
is asked for either way. -/
theorem lexes_bound {text : String} {t : Tree} (outer : Nat) (c : Prop) [Decidable c]
    (h : Lexes text (Predicate .disjunction · t))
    (hc : ¬c → Lexes text (Predicate (levelUnder outer) · t)) :
    Lexes (if c then "(" ++ text ++ ")" else text) (Predicate (levelUnder outer) · t) := by
  split
  · refine h.enclosed.mono fun hu => predicate_levelUnder_of_atom ?_ outer
    obtain ⟨ho, hp, hclose⟩ := parens_of_enclosed hu
    exact .parens ho hp hclose
  · exact hc (by assumption)

/-- A conjunction is written in brackets where a stronger connective stands around it. -/
theorem lexes_and {l r : Tree} (hl : Lexes (l.renderPredicate 2) (Predicate .conjunction · l))
    (hr : Lexes (r.renderPredicate 3) (Predicate .atom · r)) (outer : Nat) :
    Lexes ((Tree.word .AND [l, r]).renderPredicate outer)
      (Predicate (levelUnder outer) · (.word .AND [l, r])) := by
  have htext : (Tree.word .AND [l, r]).renderPredicate outer =
      if outer > 2 then "(" ++ (l.renderPredicate 2 ++ " AND " ++ r.renderPredicate 3) ++ ")"
      else l.renderPredicate 2 ++ " AND " ++ r.renderPredicate 3 := rfl
  have hand : Lexes (l.renderPredicate 2 ++ " AND " ++ r.renderPredicate 3)
      (Predicate .conjunction · (.word .AND [l, r])) := by
    refine (hl.connected hr (k := .AND) rfl).mono ?_
    rintro _ ⟨u, _, rfl, hu, _, v, rfl, ⟨a, rfl, ha, -⟩, hv⟩
    exact .and hu ha hv
  rw [htext]
  refine lexes_bound outer _ (hand.mono .ofConjunction) fun hc => hand.mono fun hp => ?_
  rw [levelUnder, if_neg hc]
  split
  · exact hp
  · exact .ofConjunction hp

/-- A disjunction is written in brackets where a stronger connective stands around it. -/
theorem lexes_or {l r : Tree} (hl : Lexes (l.renderPredicate 1) (Predicate .disjunction · l))
    (hr : Lexes (r.renderPredicate 2) (Predicate .conjunction · r)) (outer : Nat) :
    Lexes ((Tree.word .OR [l, r]).renderPredicate outer)
      (Predicate (levelUnder outer) · (.word .OR [l, r])) := by
  have htext : (Tree.word .OR [l, r]).renderPredicate outer =
      if outer > 1 then "(" ++ (l.renderPredicate 1 ++ " OR " ++ r.renderPredicate 2) ++ ")"
      else l.renderPredicate 1 ++ " OR " ++ r.renderPredicate 2 := rfl
  have hor : Lexes (l.renderPredicate 1 ++ " OR " ++ r.renderPredicate 2)
      (Predicate .disjunction · (.word .OR [l, r])) := by
    refine (hl.connected hr (k := .OR) rfl).mono ?_
    rintro _ ⟨u, _, rfl, hu, _, v, rfl, ⟨o, rfl, ho, -⟩, hv⟩
    exact .or hu ho hv
  rw [htext]
  refine lexes_bound outer _ hor fun hc => hor.mono fun hp => ?_
  rw [levelUnder, if_neg (by omega), if_neg hc]
  exact hp

/-- A predicate is written so that it reads as the level that stands under the connective. -/
theorem lexes_predicate {level : Level} {u : List Token} {t : Tree} (h : Predicate level u t)
    (hg : Genuine u) (outer : Nat) :
    Lexes (t.renderPredicate outer) (Predicate (levelUnder outer) · t) := by
  induction h generalizing outer with
  | @comparison u v s l r hl hs hr =>
    simp only [genuine_append, genuine_cons] at hg
    rw [renderPredicate_comparison hs]
    refine ((lexes_value hl hg.1).compared (lexes_value hr hg.2.2) hs hg.2.1).mono ?_
    rintro _ ⟨u, _, rfl, hu, _, v, rfl, ⟨s', rfl, hk, hlex⟩, hv⟩
    rw [← hk, ← hlex]
    exact predicate_levelUnder_of_atom (.comparison hu (hk ▸ hs) hv) outer
  | @isNull u s n t h hs hn =>
    have htext : (Tree.word .IS [t, .word .NULL []]).renderPredicate outer =
        t.renderItem ++ " IS NULL" := rfl
    rw [htext]
    refine ((lexes_value h (genuine_append.1 hg).1).words .IS [.NULL] rfl).mono ?_
    rintro _ ⟨u, v, rfl, hu, hv⟩
    obtain ⟨s, _, rfl, hs, hv⟩ := List.map_eq_cons_iff.1 hv
    obtain ⟨n, rfl, hn⟩ := List.map_eq_singleton_iff.1 hv
    exact predicate_levelUnder_of_atom (.isNull hu hs hn) outer
  | @isNotNull u s m n t h hs hm hn =>
    have htext : (Tree.word .IS [t, .word .NOT [.word .NULL []]]).renderPredicate outer =
        t.renderItem ++ " IS NOT NULL" := rfl
    rw [htext]
    refine ((lexes_value h (genuine_append.1 hg).1).words .IS [.NOT, .NULL] rfl).mono
      ?_
    rintro _ ⟨u, v, rfl, hu, hv⟩
    obtain ⟨s, _, rfl, hs, hv⟩ := List.map_eq_cons_iff.1 hv
    obtain ⟨m, _, rfl, hm, hv⟩ := List.map_eq_cons_iff.1 hv
    obtain ⟨n, rfl, hn⟩ := List.map_eq_singleton_iff.1 hv
    exact predicate_levelUnder_of_atom (.isNotNull hu hs hm hn) outer
  | literal h ht =>
    rw [renderPredicate_of_standsAlone ht]
    exact (lexes_value h hg).mono fun hv => predicate_levelUnder_of_atom (.literal hv ht) outer
  | parens ho h hc ih =>
    simp only [List.cons_append, genuine_cons, genuine_append] at hg
    exact ih hg.2.1 outer
  | ofAtom h ih => exact ih hg outer
  | @and u v a l r hl ha hr ihl ihr =>
    simp only [genuine_append, genuine_cons] at hg
    exact lexes_and (ihl hg.1 2) (ihr hg.2.2 3) outer
  | ofConjunction h ih => exact ih hg outer
  | @or u v o l r hl ho hr ihl ihr =>
    simp only [genuine_append, genuine_cons] at hg
    exact lexes_or (ihl hg.1 1) (ihr hg.2.2 2) outer

/-! ## Lists -/

/-- Several items are written one by one. -/
theorem renderItems_eq_map (ts : List Tree) : Tree.renderItems ts = ts.map Tree.renderItem := by
  induction ts with
  | nil => rfl
  | cons t ts ih => rw [Tree.renderItems, ih, List.map_cons]

/-- Several clauses are written one by one. -/
theorem renderClauses_eq_map (ts : List Tree) :
    Tree.renderClauses ts = ts.map Tree.renderClause := by
  induction ts with
  | nil => rfl
  | cons t ts ih => rw [Tree.renderClauses, ih, List.map_cons]

/-- Each thing of a list is spelled by some of its tokens. -/
theorem forall_of_commaList {α : Type} {G : List Token → α → Prop} {u : List Token} {as : List α}
    (h : CommaList G u as) (hg : Genuine u) : as ≠ [] ∧ ∀ a ∈ as, ∃ v, G v a ∧ Genuine v := by
  induction h with
  | one h => exact ⟨by simp, by simpa using ⟨_, h, hg⟩⟩
  | more h hc hs ih =>
    simp only [genuine_append, genuine_cons] at hg
    refine ⟨by simp, List.forall_mem_cons.2 ⟨⟨_, h, hg.1⟩, (ih hg.2.2).2⟩⟩

/-- Each of several phrases in a row is spelled by genuine tokens. -/
theorem forall_of_many {α : Type} {G : List Token → α → Prop} {u : List Token} {as : List α}
    (h : Many G u as) (hg : Genuine u) : ∀ a ∈ as, ∃ v, G v a ∧ Genuine v := by
  induction h with
  | none => simp
  | more hs h ih =>
    simp only [genuine_append] at hg
    intro a ha
    rcases List.mem_append.1 ha with ha | ha
    · exact ih hg.1 a ha
    · obtain rfl := List.mem_singleton.1 ha
      exact ⟨_, h, hg.2⟩

/-- A list is written with commas between its things. -/
theorem lexes_commaList {α : Type} {G : List Token → α → Prop} {render : α → String}
    (hi : ∀ {u a}, G u a → Genuine u → Lexes (render a) (G · a)) {u : List Token} {as : List α}
    (h : CommaList G u as) (hg : Genuine u) :
    Lexes (commas (as.map render)) (CommaList G · as) := by
  obtain ⟨hne, hall⟩ := forall_of_commaList h hg
  refine Lexes.commas (fun a ha => ?_) hne
  obtain ⟨v, hv, hgv⟩ := hall a ha
  exact hi hv hgv

/-- Phrases in a row are written with a blank before each. -/
theorem trails_many {α : Type} {G : List Token → α → Prop} {render : α → String}
    (hi : ∀ {u a}, G u a → Genuine u → Lexes (render a) (G · a)) {u : List Token} {as : List α}
    (h : Many G u as) (hg : Genuine u) : Trails (as.map render) (Many G · as) := by
  refine Trails.many fun a ha => ?_
  obtain ⟨v, hv, hgv⟩ := forall_of_many h hg a ha
  exact hi hv hgv

/-- One text needs no comma. -/
@[simp] theorem commas_one (text : String) : commas [text] = text := by simp [commas]

end Grammar
end MiniSql
