/-
# The one tree of a predicate

Before tokens that end a predicate the parser reads exactly what the tokens spell, so that they
spell one tree at most (`Parser.predicate_law`). Between three parts the connectives group as

| tokens | tree |
| --- | --- |
| `p OR q AND s` | `p OR (q AND s)` |
| `p AND q OR s` | `(p AND q) OR s` |
| `p OR q OR s` | `(p OR q) OR s` |
| `p AND q AND s` | `(p AND q) AND s` |

where the parts may themselves be put together from others, as far as their level goes.

A part of a predicate is what fills a place in it (`Spells.Around`). What fills the place may be
replaced by whatever else is spelled there, and the parts in parentheses spell what they spell
without, so parentheses around a part change no tree.
-/

import MiniSql.Proofs.Grammar.Completeness.Predicates

namespace MiniSql
namespace Grammar

/-- The kinds that end a predicate: what closes a parenthesis or a statement around it, and what
opens the next clause or join of a query. -/
def Kind.endsPredicate : Kind → Bool
  | .closeParen | .semicolon => true
  | .keyword .WHERE | .keyword .ORDER | .keyword .LIMIT | .keyword .OFFSET | .keyword .FOR => true
  | .keyword .JOIN | .keyword .LEFT | .keyword .INNER => true
  | _ => false

/-- No such kind carries a predicate on. -/
theorem Kind.afterPredicate_of_endsPredicate {k : Kind} (h : k.endsPredicate = true) :
    k.afterPredicate = false := by
  unfold Kind.endsPredicate at h
  split at h <;> first | rfl | cases h

namespace Spells

open MiniSql.Grammar.Parser (standsAlone)

/-- A literal that is a predicate by itself. -/
inductive Literal : List Token → Tree → Prop where
  | number {t : Token} (h : t.kind = .number) : Literal [t] (.leaf .number t.lexeme)
  | negative {m n : Token} (hm : m.kind = .minus) (hn : n.kind = .number) :
      Literal [m, n] (.leaf .number ("-" ++ n.lexeme))
  | true {t : Token} (h : t.kind = .keyword .TRUE) : Literal [t] (.word .TRUE [])
  | false {t : Token} (h : t.kind = .keyword .FALSE) : Literal [t] (.word .FALSE [])

/-- Of the values those stand alone that are numbers or truth values. -/
theorem literal_iff {u : List Token} {t : Tree} :
    Literal u t ↔ Value u t ∧ standsAlone t = true := by
  constructor
  · intro h
    cases h with
    | number h =>
      have hvalue := Value.literal (by rw [h]; rfl)
      rw [h] at hvalue
      exact ⟨hvalue, rfl⟩
    | negative hm hn => exact ⟨.negative hm hn, rfl⟩
    | true h => exact ⟨.word h rfl, rfl⟩
    | false h => exact ⟨.word h rfl, rfl⟩
  · rintro ⟨h, halone⟩
    have hkind := kind_of_standsAlone halone
    cases h with
    | @literal t h =>
      have hnumber : t.kind = .number := by
        rcases hkind with hk | hk | hk
        · exact hk
        · rw [show t.kind = _ from hk] at h
          cases h
        · rw [show t.kind = _ from hk] at h
          cases h
      rw [hnumber]
      exact .number hnumber
    | negative hm hn => exact .negative hm hn
    | @word t k h hk =>
      rcases hkind with hw | hw | hw <;> cases hw
      · exact .true h
      · exact .false h
    | now h => cases h <;> simp [Tree.word] at hkind
    | column h _ => cases h <;> simp [Tree.leaf] at hkind

/-! ## Parentheses -/

section Enclosed

variable {level : Level} {o c : Token} {u : List Token} {t : Tree}

/-- What is spelled at any level is a predicate. -/
theorem Predicate.widen (h : Predicate level u t) : Predicate .disjunction u t := by
  cases level with
  | atom => exact .ofConjunction (.ofAtom h)
  | conjunction => exact .ofConjunction h
  | disjunction => exact h

/-- An atom is a part of any level. -/
theorem Predicate.ofAtomAt (h : Predicate .atom u t) : Predicate level u t := by
  cases level with
  | atom => exact h
  | conjunction => exact .ofAtom h
  | disjunction => exact h.widen

/-- A part in parentheses is a part of the same level, with the same tree. -/
theorem Predicate.enclosed (ho : o.kind = .openParen) (h : Predicate level u t)
    (hc : c.kind = .closeParen) : Predicate level (o :: u ++ [c]) t :=
  (Predicate.parens ho h.widen hc).ofAtomAt

end Enclosed

/-! ## Places -/

/-- A place for a part of level `inner` in a predicate: the tokens before and behind it, and the
tree around the tree of the part. -/
inductive Around (inner : Level) : Level → List Token → List Token → (Tree → Tree) → Prop where
  | whole : Around inner inner [] [] id
  | parens {o c : Token} {before behind : List Token} {tree : Tree → Tree}
      (ho : o.kind = .openParen) (h : Around inner .disjunction before behind tree)
      (hc : c.kind = .closeParen) : Around inner .atom (o :: before) (behind ++ [c]) tree
  | ofAtom {before behind : List Token} {tree : Tree → Tree}
      (h : Around inner .atom before behind tree) : Around inner .conjunction before behind tree
  | andLeft {a : Token} {before behind v : List Token} {tree : Tree → Tree} {r : Tree}
      (h : Around inner .conjunction before behind tree) (ha : a.kind = .keyword .AND)
      (hr : Predicate .atom v r) :
      Around inner .conjunction before (behind ++ a :: v) fun t => .word .AND [tree t, r]
  | andRight {a : Token} {u before behind : List Token} {l : Tree} {tree : Tree → Tree}
      (hl : Predicate .conjunction u l) (ha : a.kind = .keyword .AND)
      (h : Around inner .atom before behind tree) :
      Around inner .conjunction (u ++ a :: before) behind fun t => .word .AND [l, tree t]
  | ofConjunction {before behind : List Token} {tree : Tree → Tree}
      (h : Around inner .conjunction before behind tree) :
      Around inner .disjunction before behind tree
  | orLeft {o : Token} {before behind v : List Token} {tree : Tree → Tree} {r : Tree}
      (h : Around inner .disjunction before behind tree) (ho : o.kind = .keyword .OR)
      (hr : Predicate .conjunction v r) :
      Around inner .disjunction before (behind ++ o :: v) fun t => .word .OR [tree t, r]
  | orRight {o : Token} {u before behind : List Token} {l : Tree} {tree : Tree → Tree}
      (hl : Predicate .disjunction u l) (ho : o.kind = .keyword .OR)
      (h : Around inner .conjunction before behind tree) :
      Around inner .disjunction (u ++ o :: before) behind fun t => .word .OR [l, tree t]

/-- **A place is filled** by any part of its level. -/
theorem Around.fill {inner outer : Level} {before behind u : List Token} {tree : Tree → Tree}
    {t : Tree} (h : Around inner outer before behind tree) (hu : Predicate inner u t) :
    Predicate outer (before ++ u ++ behind) (tree t) := by
  induction h with
  | whole => simpa using hu
  | parens ho h hc ih => simpa using Predicate.parens ho ih hc
  | ofAtom h ih => exact .ofAtom ih
  | andLeft h ha hr ih => simpa using Predicate.and ih ha hr
  | andRight hl ha h ih => simpa using Predicate.and hl ha ih
  | ofConjunction h ih => exact .ofConjunction ih
  | orLeft h ho hr ih => simpa using Predicate.or ih ho hr
  | orRight hl ho h ih => simpa using Predicate.or hl ho ih

end Spells

namespace Parser

open Spells

/-- The tokens behind a predicate: none, or one that ends it and others. -/
def EndsPredicate (rest : List Token) : Prop := ∀ t ∈ rest.head?, t.kind.endsPredicate = true

/-- What ends a predicate does not go on with it. -/
theorem EndsPredicate.ends {rest : List Token} (h : EndsPredicate rest) :
    Ends Kind.afterPredicate rest :=
  fun t ht => Kind.afterPredicate_of_endsPredicate (h t ht)

/-- A parser reads a text in one way only. -/
theorem Reads.unique {α : Type} {p : Parser α} {ahead rest rest' : List Token} {a b : α}
    (h : Reads p ahead a rest) (h' : Reads p ahead b rest') : a = b := by
  obtain ⟨_, ha⟩ := h
  obtain ⟨_, hb⟩ := h'
  cases ha.symm.trans hb
  rfl

/-- **What is read of a predicate is what is spelled**, and no more. -/
theorem reads_predicate_iff {u rest : List Token} {p : Tree} (hr : EndsPredicate rest) :
    Reads predicate (u ++ rest) p rest ↔ Spells.Predicate .disjunction u p := by
  constructor
  · intro h
    obtain ⟨v, htokens, hv⟩ := predicate_sound h
    rwa [List.append_cancel_right htokens]
  · intro h
    exact predicate_complete h hr.ends

/-- A predicate's tokens spell one tree. -/
theorem predicate_unique {level level' : Level} {u : List Token} {p q : Tree}
    (hp : Spells.Predicate level u p) (hq : Spells.Predicate level' u q) : p = q := by
  have hnone : EndsPredicate [] := by simp [EndsPredicate]
  exact Reads.unique ((reads_predicate_iff hnone).2 hp.widen) ((reads_predicate_iff hnone).2 hq.widen)

/-- What is read of a predicate before the tokens `rest`. -/
structure PredicateLaw (rest : List Token) : Prop where
  /-- The tokens before `rest` are read if and only if they spell the tree. -/
  reads_iff : ∀ (u : List Token) (p : Tree),
    Reads predicate (u ++ rest) p rest ↔ Spells.Predicate .disjunction u p
  /-- The literals among the atoms are the numbers and the truth values. -/
  literals : ∀ (u : List Token) (p : Tree),
    Spells.Value u p ∧ standsAlone p = true ↔ Spells.Literal u p
  /-- The tokens spell one tree, whatever level they are taken at. -/
  one : ∀ (level level' : Level) (u : List Token) (p q : Tree),
    Spells.Predicate level u p → Spells.Predicate level' u q → p = q
  orAnd : ∀ (u v w : List Token) (o a : Token) (p q s : Tree),
    Spells.Predicate .disjunction u p → o.kind = .keyword .OR →
    Spells.Predicate .conjunction v q → a.kind = .keyword .AND → Spells.Predicate .atom w s →
    Reads predicate (u ++ o :: v ++ a :: w ++ rest) (.word .OR [p, .word .AND [q, s]]) rest
  andOr : ∀ (u v w : List Token) (a o : Token) (p q s : Tree),
    Spells.Predicate .conjunction u p → a.kind = .keyword .AND →
    Spells.Predicate .atom v q → o.kind = .keyword .OR → Spells.Predicate .conjunction w s →
    Reads predicate (u ++ a :: v ++ o :: w ++ rest) (.word .OR [.word .AND [p, q], s]) rest
  orOr : ∀ (u v w : List Token) (o o' : Token) (p q s : Tree),
    Spells.Predicate .disjunction u p → o.kind = .keyword .OR →
    Spells.Predicate .conjunction v q → o'.kind = .keyword .OR →
    Spells.Predicate .conjunction w s →
    Reads predicate (u ++ o :: v ++ o' :: w ++ rest) (.word .OR [.word .OR [p, q], s]) rest
  andAnd : ∀ (u v w : List Token) (a a' : Token) (p q s : Tree),
    Spells.Predicate .conjunction u p → a.kind = .keyword .AND →
    Spells.Predicate .atom v q → a'.kind = .keyword .AND → Spells.Predicate .atom w s →
    Reads predicate (u ++ a :: v ++ a' :: w ++ rest) (.word .AND [.word .AND [p, q], s]) rest
  /-- A part is read as the same tree in parentheses and without, wherever it stands. -/
  enclosed : ∀ (level : Level) (before u behind : List Token) (o c : Token) (tree : Tree → Tree)
    (p : Tree), Around level .disjunction before behind tree → Spells.Predicate level u p →
    o.kind = .openParen → c.kind = .closeParen →
    Reads predicate (before ++ u ++ behind ++ rest) (tree p) rest ∧
      Reads predicate (before ++ (o :: u ++ [c]) ++ behind ++ rest) (tree p) rest

/-- **The law of predicates.** Before tokens that end a predicate the parser reads what is spelled
and nothing else, one tree at most, with `AND` before `OR` and both grouped to the left, and
parentheses around a part leave the tree as it is. -/
theorem predicate_law {rest : List Token} (hr : EndsPredicate rest) : PredicateLaw rest where
  reads_iff _ _ := reads_predicate_iff hr
  literals _ _ := literal_iff.symm
  one _ _ _ _ _ := predicate_unique
  orAnd u v w o a p q s hu ho hv ha hw := by
    have hspelled := Spells.Predicate.or hu ho (.and hv ha hw)
    rw [List.append_assoc u]
    exact (reads_predicate_iff hr).2 hspelled
  andOr u v w a o p q s hu ha hv ho hw :=
    (reads_predicate_iff hr).2 (.or (.ofConjunction (.and hu ha hv)) ho hw)
  orOr u v w o o' p q s hu ho hv ho' hw := (reads_predicate_iff hr).2 (.or (.or hu ho hv) ho' hw)
  andAnd u v w a a' p q s hu ha hv ha' hw :=
    (reads_predicate_iff hr).2 (.ofConjunction (.and (.and hu ha hv) ha' hw))
  enclosed _ _ _ _ _ _ _ _ haround hu ho hc :=
    ⟨(reads_predicate_iff hr).2 (haround.fill hu),
      (reads_predicate_iff hr).2 (haround.fill (hu.enclosed ho hc))⟩

/-- Inside a parenthesis that is open, `AND` goes first, with parentheses around its two sides as
without. -/
theorem predicate_law_insideParens :
    Reads predicate (tokenize "TRUE OR FALSE AND 1)")
      (.word .OR [.word .TRUE [], .word .AND [.word .FALSE [], .leaf .number "1"]])
      [⟨.closeParen, ")", 19⟩] ∧
    Reads predicate (tokenize "TRUE OR (FALSE AND 1))")
      (.word .OR [.word .TRUE [], .word .AND [.word .FALSE [], .leaf .number "1"]])
      [⟨.closeParen, ")", 21⟩] := by
  have hplain : tokenize "TRUE OR FALSE AND 1)" =
      [⟨.keyword .TRUE, "TRUE", 0⟩] ++ ⟨.keyword .OR, "OR", 5⟩ :: [⟨.keyword .FALSE, "FALSE", 8⟩] ++
        ⟨.keyword .AND, "AND", 14⟩ :: [⟨.number, "1", 18⟩] ++ [⟨.closeParen, ")", 19⟩] := by
    decide +kernel
  have henclosed : tokenize "TRUE OR (FALSE AND 1))" =
      [⟨.keyword .TRUE, "TRUE", 0⟩, ⟨.keyword .OR, "OR", 5⟩] ++
        (⟨.openParen, "(", 8⟩ :: ([⟨.keyword .FALSE, "FALSE", 9⟩] ++
          ⟨.keyword .AND, "AND", 15⟩ :: [⟨.number, "1", 19⟩]) ++ [⟨.closeParen, ")", 20⟩]) ++
        [] ++ [⟨.closeParen, ")", 21⟩] := by
    decide +kernel
  have literal {u : List Token} {t : Tree} (h : Literal u t) : Spells.Predicate .atom u t :=
    .literal (literal_iff.1 h).1 (literal_iff.1 h).2
  have yes (position : Nat) := literal (Literal.true (t := ⟨.keyword .TRUE, "TRUE", position⟩) rfl)
  have no (position : Nat) :=
    literal (Literal.false (t := ⟨.keyword .FALSE, "FALSE", position⟩) rfl)
  have one (position : Nat) := literal (Literal.number (t := ⟨.number, "1", position⟩) rfl)
  have hends (position : Nat) : EndsPredicate [⟨.closeParen, ")", position⟩] := by
    rintro t ⟨⟩
    rfl
  rw [hplain, henclosed]
  constructor
  · exact (predicate_law (hends 19)).orAnd _ _ _ _ _ _ _ _ (yes 0).widen rfl (no 8).ofAtomAt rfl
      (one 18)
  · have hplace : Around .conjunction .disjunction
        [⟨.keyword .TRUE, "TRUE", 0⟩, ⟨.keyword .OR, "OR", 5⟩] []
        fun t => .word .OR [.word .TRUE [], t] := .orRight (yes 0).widen rfl .whole
    exact ((predicate_law (hends 21)).enclosed _ _ _ _ _ _ _ _ hplace
      (.and (no 9).ofAtomAt rfl (one 19)) rfl rfl).2

end Parser
end Grammar
end MiniSql
