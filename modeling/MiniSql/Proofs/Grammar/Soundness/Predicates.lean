/-
# What is read of a predicate is spelled

Every parser that reads a part of a statement takes tokens that spell it (`Parser.Sound`). The
proofs follow the parsers: a reading is taken apart into the readings of its steps, and each step
adds its tokens. A loop takes many rounds, and its invariant is that what it has read so far is
spelled by what it has taken.
-/

import MiniSql.Proofs.Grammar.Reads
import MiniSql.Proofs.Grammar.Spells

namespace MiniSql
namespace Grammar
namespace Parser

open Spells

variable {α β σ : Type}

/-- Whatever the parser reads, the tokens that it takes spell. -/
def Sound (p : Parser α) (G : List Token → α → Prop) : Prop :=
  ∀ {ahead a rest}, Reads p ahead a rest → ∃ u, ahead = u ++ rest ∧ G u a

/-- A name is read where the first token spells one. -/
theorem name_cons (t : Token) (rest : List Token) : name (t :: rest) =
    match t.name? with
    | some n => .ok ⟨n, rest, Nat.le_succ _⟩
    | none => .error ⟨.name, some t⟩ := by
  simp only [name, Token.name?]
  generalize t.kind = k
  cases k with
  | keyword k => by_cases hk : k.reserved = true <;> simp [hk]
  | _ => rfl

/-- A name is read from the one token that spells it. -/
@[simp] theorem reads_name {ahead rest : List Token} {n : String} :
    Reads name ahead n rest ↔ ∃ t, ahead = t :: rest ∧ t.name? = some n := by
  constructor
  · rintro ⟨_, e⟩
    cases ahead with
    | nil => cases e
    | cons t tail =>
      rw [name_cons] at e
      cases hname : t.name? with
      | none =>
        rw [hname] at e
        cases e
      | some m =>
        rw [hname] at e
        cases e
        exact ⟨t, rfl, hname⟩
  · rintro ⟨t, rfl, h⟩
    refine ⟨Nat.le_succ _, ?_⟩
    rw [name_cons, h]

/-- What is read as a name spells it, in any node. -/
theorem name_sound (node : String → Tree) : Sound (do return node (← name)) (Name node) := by
  intro ahead t rest h
  simp only [reads_bind, reads_name, reads_pure] at h
  obtain ⟨n, _, ⟨t, rfl, hn⟩, rfl, rfl⟩ := h
  exact ⟨[t], rfl, .mk hn⟩

/-- What is read as a table spells it. -/
theorem table_sound : Sound table Table := name_sound _

/-- What is read as a column spells it. -/
theorem column_sound : Sound column Column := by
  intro ahead c rest h
  unfold column at h
  simp only [reads_bind, ↓reads_accept_bind, reads_name, reads_pure, if_true,
    Bool.false_eq_true, if_false] at h
  obtain ⟨n, _, ⟨t, rfl, hn⟩, ⟨d, _, rfl, hd, m, _, ⟨c, rfl, hm⟩, rfl, rfl⟩ | ⟨-, rfl, rfl⟩⟩ := h
  · exact ⟨[t, d, c], rfl, .qualified hn hd hm⟩
  · exact ⟨[t], rfl, .plain hn⟩

/-- A leaf is read from one token of its kind. -/
theorem leafOf_sound {ahead rest : List Token} {k : Kind} {t : Tree}
    (h : Reads (leafOf k) ahead t rest) : ∃ x, ahead = x :: rest ∧ x.kind = k ∧ t = .ofToken x := by
  unfold leafOf at h
  simp only [reads_bind, reads_expect, reads_pure] at h
  obtain ⟨x, _, ⟨rfl, hk⟩, rfl, rfl⟩ := h
  exact ⟨x, rfl, hk, rfl⟩

/-- What is read as the current time spells it. -/
theorem currentTimestamp_sound : Sound currentTimestamp CurrentTime := by
  intro ahead t rest h
  unfold currentTimestamp at h
  simp only [reads_bind, ↓reads_acceptWord_bind, reads_expect, reads_expectWord,
    reads_pure, if_true, Bool.false_eq_true, if_false] at h
  obtain ⟨t, _, rfl, ht, o, _, ⟨rfl, ho⟩, c, _, ⟨rfl, hc⟩, rfl, rfl⟩ |
    ⟨-, t, _, ⟨rfl, ht⟩, rfl, rfl⟩ := h
  · exact ⟨[t, o, c], rfl, .now ht ho hc⟩
  · exact ⟨[t], rfl, .word ht⟩

/-- A minus and a number spell a value. -/
theorem negative_sound : Sound negative Value := by
  intro ahead t rest h
  unfold negative at h
  simp only [reads_bind, reads_expect, reads_pure] at h
  obtain ⟨m, _, ⟨rfl, hm⟩, n, _, ⟨rfl, hn⟩, rfl, rfl⟩ := h
  exact ⟨[m, n], rfl, .negative hm hn⟩

/-- A column is a value, unless a string begins it. -/
theorem column_sound_value {t : Token} {ahead rest : List Token} {c : Tree} (ht : t.kind ≠ .string)
    (h : Reads column (t :: ahead) c rest) : ∃ u, t :: ahead = u ++ rest ∧ Value u c := by
  obtain ⟨u, hu, hc⟩ := column_sound h
  cases hc with
  | plain hn =>
    cases hu
    exact ⟨_, rfl, .column (.plain hn) ht⟩
  | qualified hn hd hm =>
    cases hu
    exact ⟨_, rfl, .column (.qualified hn hd hm) ht⟩

/-- A literal is a value. -/
theorem leafOf_sound_literal {k : Kind} (hk : k.isLiteral = true) : Sound (leafOf k) Value := by
  intro ahead v rest h
  obtain ⟨t, rfl, rfl, rfl⟩ := leafOf_sound h
  refine ⟨[t], rfl, ?_⟩
  have ht : Tree.ofToken t = .leaf t.kind t.lexeme := by
    unfold Tree.ofToken
    split
    · simp_all [Kind.isLiteral]
    · rfl
  exact ht ▸ .literal hk

/-- A keyword that stands for a value is a value. -/
theorem leafOf_sound_word {k : Keyword} (hk : k.isValue = true) :
    Sound (leafOf (.keyword k)) Value := by
  intro ahead v rest h
  obtain ⟨t, rfl, ht, rfl⟩ := leafOf_sound h
  exact ⟨[t], rfl, by simpa [Tree.ofToken, ht] using Value.word ht hk⟩

/-- **What is read as a value spells it.** -/
theorem value_sound : Sound value Value := by
  intro ahead v rest h
  unfold value at h
  rw [reads_look_bind] at h
  split at h
  · exact absurd h not_reads_refuse
  · rename_i t tail
    generalize hk : t.kind = k at h
    split at h
    · exact negative_sound h
    · exact leafOf_sound_literal rfl h
    · exact leafOf_sound_literal rfl h
    · exact leafOf_sound_literal rfl h
    · exact leafOf_sound_word rfl h
    · exact leafOf_sound_word rfl h
    · exact leafOf_sound_word rfl h
    · exact leafOf_sound_word rfl h
    · obtain ⟨x, hx, ht, rfl⟩ := leafOf_sound h
      exact ⟨[x], hx, .now (by simpa [Tree.ofToken, ht] using CurrentTime.word ht)⟩
    · split at h
      · obtain ⟨u, hu, hc⟩ := currentTimestamp_sound h
        exact ⟨u, hu, .now hc⟩
      · exact column_sound_value (by simp [hk]) h
    · rename_i hs _ _ _ _ _ _ _
      exact column_sound_value (by simp_all) h

/-- Behind `IS` there stands `NULL` or `NOT NULL`. -/
theorem nullTest_sound {o : Tree} {ahead rest : List Token} {t : Tree}
    (h : Reads (nullTest o) ahead t rest) :
    (∃ n, ahead = n :: rest ∧ n.kind = .keyword .NULL ∧ t = .word .IS [o, .word .NULL []]) ∨
      ∃ m n, ahead = m :: n :: rest ∧ m.kind = .keyword .NOT ∧ n.kind = .keyword .NULL ∧
        t = .word .IS [o, .word .NOT [.word .NULL []]] := by
  unfold nullTest at h
  simp only [↓reads_acceptWord_bind, reads_bind, reads_expectWord, reads_pure, if_true,
    Bool.false_eq_true, if_false] at h
  obtain ⟨m, _, rfl, hm, n, _, ⟨rfl, hn⟩, rfl, rfl⟩ | ⟨-, n, _, ⟨rfl, hn⟩, rfl, rfl⟩ := h
  · exact .inr ⟨m, n, rfl, hm, hn, rfl⟩
  · exact .inl ⟨n, rfl, hn, rfl⟩

/-- A value and what is read behind it spell an atom. -/
theorem atomRest_sound {u ahead rest : List Token} {l t : Tree} (hl : Value u l)
    (h : Reads (atomRest l) ahead t rest) :
    ∃ v, ahead = v ++ rest ∧ Spells.Predicate .atom (u ++ v) t := by
  unfold atomRest at h
  rw [reads_look_bind] at h
  split at h
  · split at h
    · rename_i hs
      obtain ⟨rfl, rfl⟩ := reads_pure.1 h
      exact ⟨[], rfl, by simpa using Spells.Predicate.literal hl hs⟩
    · exact absurd h not_reads_refuse
  · split at h
    · rename_i hs
      simp only [reads_bind, reads_expect, List.cons.injEq, reads_pure] at h
      obtain ⟨s, _, ⟨⟨rfl, rfl⟩, -⟩, r, _, hr, rfl, rfl⟩ := h
      obtain ⟨v, rfl, hv⟩ := value_sound hr
      exact ⟨_ :: v, rfl, .comparison hl hs hv⟩
    · split at h
      · simp only [reads_bind, reads_expectWord, List.cons.injEq] at h
        obtain ⟨s, _, ⟨⟨rfl, rfl⟩, hs⟩, h⟩ := h
        rcases nullTest_sound h with ⟨n, rfl, hn, rfl⟩ | ⟨m, n, rfl, hm, hn, rfl⟩
        · exact ⟨[_, n], rfl, .isNull hl hs hn⟩
        · exact ⟨[_, m, n], rfl, .isNotNull hl hs hm hn⟩
      · split at h
        · rename_i hs
          obtain ⟨rfl, rfl⟩ := reads_pure.1 h
          exact ⟨[], rfl, by simpa using Spells.Predicate.literal hl hs⟩
        · exact absurd h not_reads_refuse

/-- What is read as an atom spells one, if what is read in parentheses spells a predicate. -/
theorem atom_sound {inner : Parser Tree} (hi : Sound inner (Spells.Predicate .disjunction)) :
    Sound (atom inner) (Spells.Predicate .atom) := by
  intro ahead t rest h
  unfold atom at h
  simp only [↓reads_accept_bind, reads_bind, reads_expect, reads_pure, if_true,
    Bool.false_eq_true, if_false] at h
  obtain ⟨o, _, rfl, ho, held, _, h, c, _, ⟨rfl, hc⟩, rfl, rfl⟩ | ⟨-, l, _, hl, h⟩ := h
  · obtain ⟨u, rfl, hu⟩ := hi h
    exact ⟨o :: u ++ [c], by simp, .parens ho hu hc⟩
  · obtain ⟨u, rfl, hu⟩ := value_sound hl
    obtain ⟨v, rfl, hv⟩ := atomRest_sound hu h
    exact ⟨u ++ v, by simp, hv⟩

/-- A chain spells what its operands and its connective spell together. -/
theorem chain_sound {k : Keyword} {operand : Parser Tree} {G H : List Token → Tree → Prop}
    (ho : Sound operand G) (one : ∀ {u t}, G u t → H u t)
    (more : ∀ {u c v l r}, H u l → c.kind = .keyword k → G v r → H (u ++ c :: v) (.word k [l, r])) :
    Sound (chain k operand) H := by
  intro ahead t rest h
  unfold chain at h
  obtain ⟨first, _, hf, hl⟩ := reads_bind.1 h
  obtain ⟨u, rfl, hu⟩ := ho hf
  obtain ⟨v, rfl, hv⟩ := hl.loop_invariant (I := H) (u := u) (by
    intro u l c f tail l' mid hl hround hr
    split at hround
    · rename_i hc
      cases hround
      simp only [reads_bind, reads_pure] at hr
      obtain ⟨r, _, hr, rfl, rfl⟩ := hr
      obtain ⟨v, rfl, hv⟩ := ho hr
      exact ⟨v, rfl, more hl hc hv⟩
    · cases hround) (one hu)
  exact ⟨u ++ v, by simp, hv⟩

/-- What is read as a predicate spells it, within any depth. -/
theorem predicateWithin_sound (depth : Nat) :
    Sound (predicateWithin depth) (Spells.Predicate .disjunction) := by
  induction depth with
  | zero => exact fun h => absurd h not_reads_refuse
  | succ depth ih =>
    exact chain_sound (chain_sound (atom_sound ih) .ofAtom .and) .ofConjunction .or

/-- **What is read as a predicate spells it.** -/
theorem predicate_sound : Sound predicate (Spells.Predicate .disjunction) :=
  fun h => predicateWithin_sound _ h

/-! ## Lists -/

/-- A list goes on with a comma and one more item. -/
theorem CommaList.append {G : List Token → α → Prop} {u v : List Token} {c : Token} {as : List α}
    {a : α} (hs : CommaList G u as) (hc : c.kind = .comma) (h : G v a) :
    CommaList G (u ++ c :: v) (as ++ [a]) := by
  induction hs with
  | one h' => exact .more h' hc (.one h)
  | @more u w d a as h' hd hs ih => simpa using CommaList.more h' hd ih

/-- What is read as a list spells it, if its items do. -/
theorem commaList_sound {item : Parser α} {G : List Token → α → Prop} (hi : Sound item G) :
    Sound (commaList item) (CommaList G) := by
  intro ahead as rest h
  unfold commaList at h
  obtain ⟨first, _, hf, hl⟩ := reads_bind.1 h
  obtain ⟨u, rfl, hu⟩ := hi hf
  obtain ⟨v, rfl, hv⟩ := hl.loop_invariant (I := CommaList G) (u := u) (by
    intro u as c f tail as' mid hs hround hr
    split at hround
    · rename_i hc
      cases hround
      simp only [reads_bind, reads_pure] at hr
      obtain ⟨a, _, ha, rfl, rfl⟩ := hr
      obtain ⟨v, rfl, hv⟩ := hi ha
      exact ⟨v, rfl, CommaList.append hs hc hv⟩
    · cases hround) (.one hu)
  exact ⟨u ++ v, by simp, hv⟩

/-- A loop that adds one thing in each round reads many. -/
theorem many_sound {G : List Token → α → Prop} {round : Token → Option (List α → Parser (List α))}
    (step : ∀ {t f read tail read' mid}, round t = some f → Reads (f read) tail read' mid →
      ∃ a v, tail = v ++ mid ∧ read' = read ++ [a] ∧ G (t :: v) a)
    {start read : List α} {ahead rest : List Token}
    (h : Reads (loop round start) ahead read rest) :
    ∃ u as, ahead = u ++ rest ∧ read = start ++ as ∧ Many G u as := by
  obtain ⟨u, rfl, as, rfl, hm⟩ := h.loop_invariant
    (I := fun u read => ∃ as, read = start ++ as ∧ Many G u as) (u := []) (by
      rintro u _ t f tail _ mid ⟨as, rfl, hm⟩ hround hr
      obtain ⟨a, v, rfl, rfl, ha⟩ := step hround hr
      exact ⟨v, rfl, as ++ [a], by simp, hm.more ha⟩) ⟨[], by simp, .none⟩
  exact ⟨u, as, rfl, rfl, hm⟩

end Parser
end Grammar
end MiniSql
