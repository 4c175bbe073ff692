/-
# What is spelled of a predicate is read

The levels of a predicate are read by chains, one inside the other. A parenthesis goes back to the
first, and as it takes two tokens the depth that the parser allows is never used up.
-/

import MiniSql.Proofs.Grammar.Completeness.Follow

namespace MiniSql
namespace Grammar
namespace Parser

open Spells

/-! ## Predicates -/

/-- What ends an atom ends its last value. -/
theorem Ends.ofAtom {ahead : List Token} (h : Ends Kind.afterAtom ahead) :
    Ends Kind.afterValue ahead := h.mono (by simp +contextual [Kind.afterAtom])

/-- `NULL` is read behind `IS`. -/
theorem nullTest_null {n : Token} {rest : List Token} {l : Tree} (hn : n.kind = .keyword .NULL) :
    Reads (nullTest l) (n :: rest) (.word .IS [l, .word .NULL []]) rest := by
  unfold nullTest
  simp only [↓reads_acceptWord_bind, reads_bind, reads_expectWord, reads_pure,
    Bool.false_eq_true, if_false]
  exact .inr ⟨by simp [hn], _, _, ⟨rfl, hn⟩, by simp⟩

/-- `NOT NULL` is read behind `IS`. -/
theorem nullTest_notNull {m n : Token} {rest : List Token} {l : Tree}
    (hm : m.kind = .keyword .NOT) (hn : n.kind = .keyword .NULL) :
    Reads (nullTest l) (m :: n :: rest) (.word .IS [l, .word .NOT [.word .NULL []]]) rest := by
  unfold nullTest
  simp only [↓reads_acceptWord_bind, reads_bind, reads_expectWord, reads_pure, if_true]
  exact .inl ⟨_, _, rfl, hm, _, _, ⟨rfl, hn⟩, by simp⟩

/-- Behind a value a comparison is read with the value on its right. -/
theorem atomRest_comparison {s : Token} {tail rest : List Token} {l r : Tree}
    (hs : s.kind.isComparison = true) (hr : Reads value tail r rest) :
    Reads (atomRest l) (s :: tail) ⟨s.kind, s.lexeme, [l, r]⟩ rest := by
  unfold atomRest
  rw [reads_look_bind]
  simp only [hs, if_true, reads_bind, reads_expect, reads_pure]
  exact ⟨_, _, ⟨rfl, rfl⟩, _, _, hr, rfl, rfl⟩

/-- Behind a value `IS` is read with its test. -/
theorem atomRest_is {s : Token} {tail rest : List Token} {l t : Tree}
    (hs : s.kind = .keyword .IS) (hr : Reads (nullTest l) tail t rest) :
    Reads (atomRest l) (s :: tail) t rest := by
  unfold atomRest
  rw [reads_look_bind]
  simp only [hs, Kind.isComparison, if_true, Bool.false_eq_true, if_false, reads_bind,
    reads_expectWord]
  exact ⟨_, _, ⟨rfl, hs⟩, hr⟩

/-- A literal may stand alone. -/
theorem atomRest_literal {l : Tree} {rest : List Token} (h : standsAlone l = true)
    (hr : Ends Kind.afterAtom rest) : Reads (atomRest l) rest l rest := by
  unfold atomRest
  rw [reads_look_bind]
  cases rest with
  | nil => simp [h]
  | cons t rest =>
    have := ends_cons.1 hr
    simp only [Kind.afterAtom, Bool.or_eq_false_iff, beq_eq_false_iff_ne] at this
    simp [this, h]

/-- A value never starts with an opening parenthesis. -/
theorem notAhead_of_value {u rest : List Token} {v : Tree} (h : Value u v) :
    NotAhead .openParen (u ++ rest) := by
  have name {t : Token} {n : String} (hn : t.name? = some n) : t.kind ≠ .openParen := by
    rcases Token.kind_of_name? hn with h | h | ⟨k, h, -⟩ <;> simp [h]
  cases h with
  | @literal t h =>
    have : t.kind ≠ .openParen := by
      intro hk
      simp [hk, Kind.isLiteral] at h
    simpa using this
  | negative hm hn => simp [hm]
  | word h hk => simp [h]
  | now h => cases h <;> simp_all
  | column h ht =>
    cases h with
    | plain h => simpa using name h
    | qualified h _ _ => simpa using name h

/-- What follows a value that starts an atom. -/
theorem atom_of_value {inner : Parser Tree} {u mid rest : List Token} {l t : Tree}
    (hl : Value u l) (hm : Ends Kind.afterValue mid) (hr : Reads (atomRest l) mid t rest) :
    Reads (atom inner) (u ++ mid) t rest := by
  unfold atom
  simp only [↓reads_accept_bind, reads_bind, Bool.false_eq_true, if_false]
  exact .inr ⟨notAhead_of_value hl, _, _, value_complete hl hm, hr⟩

/-- The rounds of a chain. -/
abbrev chainRound (k : Keyword) (operand : Parser Tree) (t : Token) :
    Option (Tree → Parser Tree) :=
  if t.kind = .keyword k then some fun left => do return .word k [left, ← operand] else none

section Chains

variable {k : Keyword} {operand : Parser Tree} {after : Kind → Bool} {u v : List Token}
  {l r : Tree}

/-- A chain begins with its first operand. -/
theorem chain_one (h : Takes operand after u l) :
    LeadsTo (chain k operand) (chainRound k operand) after u l :=
  fun _ _ _ hr hl => reads_bind.2 ⟨_, _, h hr, hl⟩

/-- A chain goes on with its keyword and one more operand. -/
theorem chain_more (hl : LeadsTo (chain k operand) (chainRound k operand) after u l) {c : Token}
    (hc : c.kind = .keyword k) (hk : after (.keyword k) = false) (hr : Takes operand after v r) :
    LeadsTo (chain k operand) (chainRound k operand) after (u ++ c :: v) (.word k [l, r]) := by
  refine hl.step (if_pos hc) (hc ▸ hk) fun rest hrest => ?_
  simp only [reads_bind, reads_pure]
  exact ⟨_, _, hr hrest, rfl, rfl⟩

/-- A chain is taken whole, before anything but its keyword and what goes on with an operand. -/
theorem chain_takes (h : LeadsTo (chain k operand) (chainRound k operand) after u l) :
    Takes (chain k operand) (fun kind => after kind || kind == .keyword k) u l := by
  refine fun rest hr => h.stop (hr.mono (by simp +contextual)) fun c hc => if_neg ?_
  exact hr.notAhead (k := .keyword k) (by simp) c hc

end Chains

/-- What a predicate of each level is to the parser of its level, in which fewer than `depth`
parentheses are open at once. -/
def ReadAt (depth : Nat) : Level → List Token → Tree → Prop
  | .atom, u, t => Takes (atom (predicateWithin depth)) Kind.afterAtom u t
  | .conjunction, u, t =>
    LeadsTo (chain .AND (atom (predicateWithin depth)))
      (chainRound .AND (atom (predicateWithin depth))) Kind.afterAtom u t
  | .disjunction, u, t =>
    LeadsTo (predicateWithin (depth + 1))
      (chainRound .OR (chain .AND (atom (predicateWithin depth)))) Kind.afterConjunction u t

/-- A predicate that is readable at a depth is taken whole one deeper. -/
theorem predicateWithin_takes {depth : Nat} {u : List Token} {t : Tree}
    (h : ReadAt depth .disjunction u t) :
    Takes (predicateWithin (depth + 1)) Kind.afterPredicate u t := chain_takes h

/-- A spelling is readable at the depth of its tokens. -/
theorem predicate_readAt {level : Level} {u : List Token} {t : Tree}
    (h : Spells.Predicate level u t) {depth : Nat} (hd : u.length ≤ depth) :
    ReadAt depth level u t := by
  induction h generalizing depth with
  | comparison hl hs hr =>
    intro rest hrest
    have hs' := Kind.afterValue_of_isComparison hs
    simpa using atom_of_value hl (ends_cons.2 hs')
      (atomRest_comparison hs (value_complete hr hrest.ofAtom))
  | isNull h hs hn =>
    intro rest hrest
    simpa using atom_of_value h (ends_of_kind hs rfl) (atomRest_is hs (nullTest_null hn))
  | isNotNull h hs hm hn =>
    intro rest hrest
    simpa using atom_of_value h (ends_of_kind hs rfl) (atomRest_is hs (nullTest_notNull hm hn))
  | literal h ht => exact fun rest hrest => atom_of_value h hrest.ofAtom (atomRest_literal ht hrest)
  | @parens o c u t ho h hc ih =>
    -- The parentheses are two tokens, so what they hold gets by with one level less.
    simp only [List.length_append, List.length_cons] at hd
    obtain ⟨depth, rfl⟩ : ∃ d, depth = d + 1 := ⟨depth - 1, by omega⟩
    have hi := predicateWithin_takes (@ih depth (by omega))
    intro rest hrest
    unfold atom
    simp only [↓reads_accept_bind, reads_bind, reads_expect, reads_pure, if_true]
    refine .inl ⟨o, u ++ c :: rest, by simp, ho, t, c :: rest, hi (ends_of_kind hc rfl), ?_⟩
    exact ⟨c, rest, ⟨rfl, hc⟩, rfl, rfl⟩
  | ofAtom h ih => exact chain_one (ih hd)
  | and hl ha hr ihl ihr =>
    simp only [List.length_append, List.length_cons] at hd
    exact chain_more (ihl (by omega)) ha rfl (ihr (by omega))
  | ofConjunction h ih => exact chain_one (chain_takes (ih hd))
  | or hl ho hr ihl ihr =>
    simp only [List.length_append, List.length_cons] at hd
    exact chain_more (ihl (by omega)) ho rfl (chain_takes (ihr (by omega)))

/-- **A predicate** is read whole. -/
theorem predicate_complete :
    Complete predicate (Spells.Predicate .disjunction) Kind.afterPredicate := by
  intro u t h rest hr
  exact predicateWithin_takes (predicate_readAt h (by simp)) hr

end Parser
end Grammar
end MiniSql
