/-
# What is read of a query is spelled

The items, tables, joins and clauses of a `SELECT`. A `WHERE` may stand anywhere among the clauses,
so what they have been read to is carried along as a whole.
-/

import MiniSql.Proofs.Grammar.Soundness.Predicates

namespace MiniSql
namespace Grammar
namespace Parser

open Spells

/-! ## Queries -/

/-- What is read as a call of an aggregate spells an item. -/
theorem call_sound {k : Keyword} (hk : isAggregate k = true) : Sound (call k) Item := by
  intro ahead t rest h
  unfold call at h
  simp only [↓reads_accept_bind, reads_bind, reads_expect, reads_expectWord, if_true,
    Bool.false_eq_true, if_false] at h
  obtain ⟨t, _, ⟨rfl, ht⟩, o, _, ⟨rfl, ho⟩, ⟨s, _, rfl, hs, h⟩ | ⟨-, h⟩⟩ := h
  · split at h
    · rename_i hcount
      simp only [reads_bind, reads_expect, reads_pure] at h
      obtain ⟨a, _, ⟨rfl, rfl⟩, c, _, ⟨rfl, hc⟩, rfl, rfl⟩ := h
      exact ⟨[t, o, s, c], rfl, hcount ▸ .countAll (hcount ▸ ht) ho hs hc⟩
    · simp at h
  · simp only [reads_pure] at h
    obtain ⟨a, _, ha, c, _, ⟨rfl, hc⟩, rfl, rfl⟩ := h
    obtain ⟨u, rfl, hu⟩ := column_sound ha
    exact ⟨t :: (o :: u ++ [c]), by simp, .call ht hk (.mk ho hu hc)⟩

/-- What is read as the columns of a table spells an item. -/
theorem tableStar_sound : Sound tableStar Item := by
  intro ahead t rest h
  unfold tableStar at h
  simp only [reads_bind, reads_name, reads_expect, reads_pure] at h
  obtain ⟨n, _, ⟨t, rfl, hn⟩, d, _, ⟨rfl, hd⟩, s, _, ⟨rfl, hs⟩, rfl, rfl⟩ := h
  exact ⟨[t, d, s], rfl, by simpa [hs] using Item.starOf hn hd hs⟩

/-- What is read as an item spells it. -/
theorem selectItem_sound : Sound selectItem Item := by
  have column : Sound column Item := fun h =>
    (column_sound h).imp fun u hu => ⟨hu.1, .column hu.2⟩
  intro ahead t rest h
  unfold selectItem at h
  rw [reads_look_bind] at h
  split at h
  · exact column h
  · split at h
    · obtain ⟨s, hs, hk, rfl⟩ := leafOf_sound h
      exact ⟨[s], hs, by simpa [Tree.ofToken, hk] using Item.star hk⟩
    · split at h
      · rename_i hf _
        exact call_sound (Option.filter_eq_some_iff.1 hf).2 h
      · split at h
        · exact tableStar_sound h
        · exact column h

/-- What is read behind the opening of a join spells it. -/
theorem joined_sound {u ahead rest : List Token} {marks : List Tree} {t : Tree}
    (ho : Opening u marks) (h : Reads (joined marks) ahead t rest) :
    ∃ v, ahead = v ++ rest ∧ Join (u ++ v) t := by
  unfold joined at h
  simp only [reads_bind, reads_expectWord, reads_pure] at h
  obtain ⟨table, _, ht, w, _, ⟨rfl, hw⟩, p, _, hp, rfl, rfl⟩ := h
  obtain ⟨v, rfl, hv⟩ := table_sound ht
  obtain ⟨x, rfl, hx⟩ := predicate_sound hp
  exact ⟨v ++ w :: x, by simp, by simpa using Join.mk ho hv (.mk hw hx)⟩

/-- What is read as joins spells them in turn. -/
theorem joins_sound {ahead rest : List Token} {joins : List Tree}
    (h : Reads (loop joinRound []) ahead joins rest) :
    ∃ u, ahead = u ++ rest ∧ Many Join u joins := by
  obtain ⟨u, as, rfl, rfl, hm⟩ := many_sound (G := Join) (by
    intro t f read tail read' mid hround hr
    unfold joinRound at hround
    split at hround <;> rename_i hk
    · cases hround
      simp only [↓reads_acceptWord_bind, reads_bind, reads_expectWord, reads_pure] at hr
      obtain ⟨o, _, rfl, ho, j, _, ⟨rfl, hj⟩, a, _, ha, rfl, rfl⟩ |
        ⟨-, j, _, ⟨rfl, hj⟩, a, _, ha, rfl, rfl⟩ := hr
      · obtain ⟨v, rfl, hv⟩ := joined_sound (.leftOuter hk ho hj) ha
        exact ⟨a, o :: j :: v, rfl, rfl, hv⟩
      · obtain ⟨v, rfl, hv⟩ := joined_sound (.left hk hj) ha
        exact ⟨a, j :: v, rfl, rfl, hv⟩
    · cases hround
      simp only [reads_bind, reads_expectWord, reads_pure] at hr
      obtain ⟨j, _, ⟨rfl, hj⟩, a, _, ha, rfl, rfl⟩ := hr
      obtain ⟨v, rfl, hv⟩ := joined_sound (.inner hk hj) ha
      exact ⟨a, j :: v, rfl, rfl, hv⟩
    · cases hround
      simp only [reads_bind, reads_pure] at hr
      obtain ⟨a, _, ha, rfl, rfl⟩ := hr
      obtain ⟨v, rfl, hv⟩ := joined_sound (.plain hk) ha
      exact ⟨a, v, rfl, rfl, hv⟩
    · cases hround) h
  exact ⟨u, rfl, by simpa using hm⟩

/-- What is read as a sort key spells it. -/
theorem sortKey_sound : Sound sortKey SortKey := by
  intro ahead t rest h
  unfold sortKey at h
  obtain ⟨c, _, hc, h'⟩ := reads_bind.1 h
  obtain ⟨u, rfl, hu⟩ := column_sound hc
  simp only [↓reads_acceptWord_bind, reads_pure, if_true, Bool.false_eq_true, if_false] at h'
  obtain ⟨d, _, rfl, hd, rfl, rfl⟩ | ⟨-, ⟨a, _, rfl, ha, rfl, rfl⟩ | ⟨-, rfl, rfl⟩⟩ := h'
  · exact ⟨u ++ [d], by simp, .marked hu hd (.inr rfl)⟩
  · exact ⟨u ++ [a], by simp, .marked hu ha (.inl rfl)⟩
  · exact ⟨u, rfl, .unmarked hu⟩

/-- A count of rows is one number that can be read. -/
theorem countOf_sound {k : Keyword} {ahead rest : List Token} {t : Tree}
    (h : Reads (countOf k) ahead t rest) :
    ∃ n c, ahead = n :: rest ∧ n.kind = .number ∧ Number.readCount n.lexeme = .ok c ∧
      t = .word k [.leaf .number n.lexeme] := by
  unfold countOf at h
  simp only [reads_bind, reads_expect] at h
  obtain ⟨n, _, ⟨rfl, hn⟩, h⟩ := h
  split at h
  · rename_i c hc
    obtain ⟨rfl, rfl⟩ := reads_pure.1 h
    exact ⟨n, c, rfl, hn, hc, by simp [Tree.ofToken, hn]⟩
  · obtain ⟨_, e⟩ := h
    cases e

/-- What is read as clauses spells them in turn. -/
theorem clauses_sound {ahead rest : List Token} {clauses : Parser.Clauses}
    (h : Reads (loop clauseRound ⟨.implicitWhere, []⟩) ahead clauses rest) :
    ∃ u, ahead = u ++ rest ∧ Spells.Clauses u clauses := by
  refine h.loop_invariant (I := Spells.Clauses) (u := []) ?_ .none
  intro u c t f tail c' mid hc hround hr
  unfold clauseRound at hround
  split at hround <;> rename_i hk <;> cases hround
  · obtain ⟨p, _, hp, h'⟩ := reads_bind.1 hr
    obtain ⟨v, rfl, hv⟩ := predicate_sound hp
    split at h'
    · rename_i hf
      obtain ⟨rfl, rfl⟩ := reads_pure.1 h'
      exact ⟨v, rfl, hc.filter hf (.mk hk hv)⟩
    · exact absurd h' not_reads_refuse
  · simp only [reads_bind, reads_expectWord, reads_pure] at hr
    obtain ⟨b, _, ⟨rfl, hb⟩, keys, _, hkeys, rfl, rfl⟩ := hr
    obtain ⟨v, rfl, hv⟩ := commaList_sound sortKey_sound hkeys
    exact ⟨b :: v, rfl, hc.other (.order hk hb hv)⟩
  · simp only [reads_bind, reads_pure] at hr
    obtain ⟨a, _, ha, rfl, rfl⟩ := hr
    obtain ⟨n, c, rfl, hn, hcount, rfl⟩ := countOf_sound ha
    exact ⟨[n], rfl, hc.other (.count hk (.inl rfl) hn hcount)⟩
  · simp only [reads_bind, reads_pure] at hr
    obtain ⟨a, _, ha, rfl, rfl⟩ := hr
    obtain ⟨n, c, rfl, hn, hcount, rfl⟩ := countOf_sound ha
    exact ⟨[n], rfl, hc.other (.count hk (.inr rfl) hn hcount)⟩
  · simp only [reads_bind, reads_expectWord, reads_pure] at hr
    obtain ⟨w, _, ⟨rfl, hw⟩, rfl, rfl⟩ := hr
    exact ⟨[w], rfl, hc.other (.forUpdate hk hw)⟩

/-- **What is read as a selection spells it.** -/
theorem selectStatement_sound : Sound selectStatement Statement := by
  intro ahead t rest h
  unfold selectStatement at h
  simp only [reads_bind, reads_expectWord, reads_pure] at h
  obtain ⟨s, _, ⟨rfl, hs⟩, items, _, hi, f, _, ⟨rfl, hf⟩, tables, _, ht, joins, _, hj,
    clauses, _, hc, rfl, rfl⟩ := h
  obtain ⟨u, rfl, hu⟩ := commaList_sound selectItem_sound hi
  obtain ⟨v, rfl, hv⟩ := commaList_sound table_sound ht
  obtain ⟨w, rfl, hw⟩ := joins_sound hj
  obtain ⟨x, rfl, hx⟩ := clauses_sound hc
  exact ⟨s :: u ++ f :: v ++ w ++ x, by simp, by simpa using Statement.select hs hu hf hv hw hx⟩

end Parser
end Grammar
end MiniSql
