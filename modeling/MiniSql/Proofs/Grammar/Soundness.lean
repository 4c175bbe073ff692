/-
# What is read is spelled

The statements other than queries, and then all of them: the tokens of a text that is read as a tree
spell the tree, apart from a semicolon at the end (`spells_of_parse`).
-/

import MiniSql.Proofs.Grammar.Soundness.Queries

namespace MiniSql
namespace Grammar
namespace Parser

open Spells

/-! ## Other statements -/

/-- What is read behind the table of an insertion spells its columns. -/
theorem targetColumns_sound {t : Token} {n : String} {ahead rest : List Token}
    {columns : List Tree} (ht : t.name? = some n) (h : Reads targetColumns ahead columns rest) :
    ∃ u, ahead = u ++ rest ∧ Target (t :: u) (.table n columns) := by
  unfold targetColumns at h
  simp only [↓reads_accept_bind, if_true, Bool.false_eq_true, if_false, reads_pure] at h
  obtain ⟨o, _, rfl, ho, h⟩ | ⟨-, rfl, rfl⟩ := h
  · simp only [reads_bind, reads_expect, reads_pure] at h
    obtain ⟨columns, _, hcols, c, _, ⟨rfl, hc⟩, rfl, rfl⟩ := h
    obtain ⟨u, rfl, hu⟩ := commaList_sound (name_sound _) hcols
    exact ⟨o :: u ++ [c], by simp, .columns ht (.mk ho hu hc)⟩
  · exact ⟨[], rfl, .all ht⟩

/-- What is read as a row of values spells it. -/
theorem tuple_sound : Sound tuple Tuple := by
  intro ahead t rest h
  unfold tuple at h
  simp only [reads_bind, reads_expect, reads_pure] at h
  obtain ⟨o, _, ⟨rfl, ho⟩, values, _, hv, c, _, ⟨rfl, hc⟩, rfl, rfl⟩ := h
  obtain ⟨u, rfl, hu⟩ := commaList_sound value_sound hv
  exact ⟨o :: u ++ [c], by simp, .mk ho hu hc⟩

/-- What is read as an insertion spells it. -/
theorem insertStatement_sound : Sound insertStatement Statement := by
  intro ahead t rest h
  unfold insertStatement at h
  simp only [reads_bind, ↓reads_acceptWord_bind, reads_expectWord, reads_name, reads_pure, if_true,
    Bool.false_eq_true, if_false] at h
  obtain ⟨i, _, ⟨rfl, hi⟩, o, _, ⟨rfl, ho⟩, n, _, ⟨t, rfl, hn⟩, columns, _, hc, v, _, ⟨rfl, hv⟩,
    tuples, _, ht, hr⟩ := h
  obtain ⟨u, rfl, hu⟩ := targetColumns_sound hn hc
  obtain ⟨w, rfl, hw⟩ := commaList_sound tuple_sound ht
  obtain ⟨r, _, rfl, hr, c, _, hcol, rfl, rfl⟩ | ⟨-, rfl, rfl⟩ := hr
  · obtain ⟨x, rfl, hx⟩ := column_sound hcol
    exact ⟨i :: o :: (t :: u) ++ v :: w ++ (r :: x), by simp, .insert hi ho hu hv hw (.some hr hx)⟩
  · exact ⟨i :: o :: (t :: u) ++ v :: w ++ [], by simp, .insert hi ho hu hv hw .none⟩

/-- What is read as an assignment spells it. -/
theorem assignment_sound : Sound assignment Assignment := by
  intro ahead t rest h
  unfold assignment at h
  simp only [reads_bind, reads_name, reads_expect, reads_pure] at h
  obtain ⟨n, _, ⟨t, rfl, hn⟩, s, _, ⟨rfl, hs⟩, v, _, hv, rfl, rfl⟩ := h
  obtain ⟨u, rfl, hu⟩ := value_sound hv
  exact ⟨t :: s :: u, rfl, .mk hn hs hu⟩

/-- What is read as a `WHERE` spells it, or nothing where there is none. -/
theorem filter_sound : Sound filter Where := by
  intro ahead t rest h
  unfold filter at h
  simp only [↓reads_acceptWord_bind, reads_bind, reads_pure, if_true, Bool.false_eq_true,
    if_false] at h
  obtain ⟨w, _, rfl, hw, p, _, hp, rfl, rfl⟩ | ⟨-, rfl, rfl⟩ := h
  · obtain ⟨u, rfl, hu⟩ := predicate_sound hp
    exact ⟨w :: u, rfl, .some (.mk hw hu)⟩
  · exact ⟨[], rfl, .none⟩

/-- What is read as an update spells it. -/
theorem updateStatement_sound : Sound updateStatement Statement := by
  intro ahead t rest h
  unfold updateStatement at h
  simp only [reads_bind, reads_expectWord, reads_pure] at h
  obtain ⟨t, _, ⟨rfl, ht⟩, table, _, htable, s, _, ⟨rfl, hs⟩, assignments, _, ha, clause, _, hc,
    rfl, rfl⟩ := h
  obtain ⟨u, rfl, hu⟩ := table_sound htable
  obtain ⟨v, rfl, hv⟩ := commaList_sound assignment_sound ha
  obtain ⟨w, rfl, hw⟩ := filter_sound hc
  exact ⟨t :: u ++ s :: v ++ w, by simp, .update ht hu hs hv hw⟩

/-- What is read as a deletion spells it. -/
theorem deleteStatement_sound : Sound deleteStatement Statement := by
  intro ahead t rest h
  unfold deleteStatement at h
  simp only [reads_bind, reads_expectWord, reads_pure] at h
  obtain ⟨d, _, ⟨rfl, hd⟩, f, _, ⟨rfl, hf⟩, table, _, htable, clause, _, hc, rfl, rfl⟩ := h
  obtain ⟨u, rfl, hu⟩ := table_sound htable
  obtain ⟨w, rfl, hw⟩ := filter_sound hc
  exact ⟨d :: f :: u ++ w, by simp, .delete hd hf hu hw⟩

/-- What is read as a truncation spells it. -/
theorem truncateStatement_sound : Sound truncateStatement Statement := by
  intro ahead t rest h
  unfold truncateStatement at h
  simp only [reads_bind, ↓reads_acceptWord_bind, reads_expectWord, reads_pure] at h
  obtain ⟨t, _, ⟨rfl, ht⟩, ⟨s, _, rfl, hs, table, _, htable, rfl, rfl⟩ |
    ⟨-, table, _, htable, rfl, rfl⟩⟩ := h
  · obtain ⟨u, rfl, hu⟩ := table_sound htable
    exact ⟨t :: [s] ++ u, by simp, .truncate ht (.inr (by simp [hs])) hu⟩
  · obtain ⟨u, rfl, hu⟩ := table_sound htable
    exact ⟨t :: [] ++ u, by simp, .truncate ht (.inl rfl) hu⟩

/-- What is read as a drop of a table spells it. -/
theorem dropStatement_sound : Sound dropStatement Statement := by
  intro ahead t rest h
  unfold dropStatement at h
  simp only [reads_bind, ↓reads_acceptWord_bind, reads_expectWord, reads_pure, if_true,
    Bool.false_eq_true, if_false] at h
  obtain ⟨d, _, ⟨rfl, hd⟩, t, _, ⟨rfl, ht⟩, ⟨i, _, rfl, hi, e, _, ⟨rfl, he⟩, table, _, htable, rfl,
    rfl⟩ | ⟨-, table, _, htable, rfl, rfl⟩⟩ := h
  · obtain ⟨u, rfl, hu⟩ := table_sound htable
    exact ⟨d :: t :: [i, e] ++ u, by simp, .drop hd ht (.some (by simp [hi, he])) hu⟩
  · obtain ⟨u, rfl, hu⟩ := table_sound htable
    exact ⟨d :: t :: [] ++ u, by simp, .drop hd ht .none hu⟩

/-! ## Tables to create -/

/-- What is read as a size spells it. -/
theorem size_sound : Sound (leafOf .number) Size := by
  intro ahead t rest h
  obtain ⟨n, rfl, hn, rfl⟩ := leafOf_sound h
  exact ⟨[n], rfl, by simpa [Tree.ofToken, hn] using Size.mk hn⟩

/-- A type that takes sizes is spelt with those read behind it. -/
theorem sizes_sound {t : Token} {k : Keyword} {ahead rest : List Token} {sizes : List Tree}
    (ht : t.kind = .keyword k) (hk : isSizedType k = true)
    (h : Reads Parser.sizes ahead sizes rest) :
    ∃ u, ahead = u ++ rest ∧ ColumnType (t :: u) (.word k sizes) := by
  unfold Parser.sizes at h
  simp only [↓reads_accept_bind, reads_bind, reads_expect, reads_pure, if_true,
    Bool.false_eq_true, if_false] at h
  obtain ⟨o, _, rfl, ho, sizes, _, hs, c, _, ⟨rfl, hc⟩, rfl, rfl⟩ | ⟨-, rfl, rfl⟩ := h
  · obtain ⟨u, rfl, hu⟩ := commaList_sound size_sound hs
    exact ⟨o :: u ++ [c], by simp, .sized ht hk (.mk ho hu hc)⟩
  · exact ⟨[], rfl, .plain ht (.inl hk)⟩

/-- What is read as a type spells it. -/
theorem columnType_sound : Sound columnType ColumnType := by
  intro ahead t rest h
  unfold columnType at h
  rw [reads_look_bind] at h
  split at h
  · exact absurd h not_reads_refuse
  · split at h
    · simp only [reads_bind, ↓reads_acceptWord_bind, reads_expectWord, reads_pure, if_true,
        Bool.false_eq_true, if_false] at h
      obtain ⟨t, _, ⟨ht', ht⟩, ⟨w, _, rfl, hw, m, _, ⟨rfl, hm⟩, z, _, ⟨rfl, hz⟩, rfl, rfl⟩ |
        ⟨-, rfl, rfl⟩⟩ := h
      · exact ⟨[t, w, m, z], ht', .withZone ht hw hm hz⟩
      · exact ⟨[t], ht', .plain ht (.inr rfl)⟩
    · split at h
      · rename_i hk
        simp only [reads_bind, reads_expectWord, reads_pure] at h
        obtain ⟨t, _, ⟨ht', ht⟩, sizes, _, hs, rfl, rfl⟩ := h
        obtain ⟨u, rfl, hu⟩ := sizes_sound ht hk hs
        exact ⟨t :: u, ht', hu⟩
      · exact absurd h not_reads_refuse
    · exact absurd h not_reads_refuse

/-- The modifiers read in turn spell those that are added. -/
theorem modifiers_sound {start modifiers : List Tree} {ahead rest : List Token}
    (h : Reads (loop modifierRound start) ahead modifiers rest) :
    ∃ u as, ahead = u ++ rest ∧ modifiers = start ++ as ∧ Many Modifier u as := by
  refine many_sound ?_ h
  intro t f read tail read' mid hround hr
  unfold modifierRound at hround
  split at hround <;> rename_i hk <;> cases hround
  · obtain ⟨rfl, rfl⟩ := reads_pure.1 hr
    exact ⟨_, [], rfl, rfl, .flag hk rfl⟩
  · obtain ⟨rfl, rfl⟩ := reads_pure.1 hr
    exact ⟨_, [], rfl, rfl, .flag hk rfl⟩
  · obtain ⟨rfl, rfl⟩ := reads_pure.1 hr
    exact ⟨_, [], rfl, rfl, .flag hk rfl⟩
  · simp only [reads_bind, reads_expectWord, reads_pure] at hr
    obtain ⟨n, _, ⟨rfl, hn⟩, rfl, rfl⟩ := hr
    exact ⟨_, [n], rfl, rfl, .notNull hk hn⟩
  · simp only [reads_bind, reads_pure] at hr
    obtain ⟨v, _, hv, rfl, rfl⟩ := hr
    obtain ⟨u, rfl, hu⟩ := value_sound hv
    exact ⟨_, u, rfl, rfl, .default hk hu⟩
  · simp only [reads_bind, reads_expectWord, reads_pure] at hr
    obtain ⟨w, _, ⟨rfl, hw⟩, now, _, hn, rfl, rfl⟩ := hr
    obtain ⟨u, rfl, hu⟩ := currentTimestamp_sound hn
    exact ⟨_, w :: u, rfl, rfl, .onUpdate hk hw hu⟩
  · simp only [reads_bind, reads_expectWord, reads_pure] at hr
    obtain ⟨w, _, ⟨rfl, hw⟩, rfl, rfl⟩ := hr
    exact ⟨_, [w], rfl, rfl, .primaryKey hk hw⟩

/-- What is read as a column spells its definition. -/
theorem columnDefinition_sound : Sound columnDefinition ColumnDefinition := by
  intro ahead t rest h
  unfold columnDefinition at h
  simp only [reads_bind, reads_name, reads_pure] at h
  obtain ⟨n, _, ⟨t, rfl, hn⟩, type, _, ht, modifiers, _, hm, rfl, rfl⟩ := h
  obtain ⟨u, rfl, hu⟩ := columnType_sound ht
  obtain ⟨v, as, rfl, rfl, hv⟩ := modifiers_sound hm
  exact ⟨t :: u ++ v, by simp, .mk hn hu hv⟩

/-- What is read as a table spells its definition. -/
theorem tableDefinition_sound : Sound tableDefinition TableDefinition := by
  intro ahead t rest h
  unfold tableDefinition at h
  simp only [reads_bind, reads_name, reads_expect, reads_pure] at h
  obtain ⟨n, _, ⟨t, rfl, hn⟩, o, _, ⟨rfl, ho⟩, columns, _, hcols, c, _, ⟨rfl, hc⟩, rfl, rfl⟩ := h
  obtain ⟨u, rfl, hu⟩ := commaList_sound columnDefinition_sound hcols
  exact ⟨t :: (o :: u ++ [c]), by simp, .mk hn (.mk ho hu hc)⟩

/-- What is read as a creation of a table spells it. -/
theorem createStatement_sound : Sound createStatement Statement := by
  intro ahead t rest h
  unfold createStatement at h
  simp only [reads_bind, ↓reads_acceptWord_bind, reads_expectWord, reads_pure, if_true,
    Bool.false_eq_true, if_false] at h
  obtain ⟨c, _, ⟨rfl, hc⟩, t, _, ⟨rfl, ht⟩, ⟨i, _, rfl, hi, n, _, ⟨rfl, hn⟩, e, _, ⟨rfl, he⟩,
    table, _, htable, rfl, rfl⟩ | ⟨-, table, _, htable, rfl, rfl⟩⟩ := h
  · obtain ⟨u, rfl, hu⟩ := tableDefinition_sound htable
    exact ⟨c :: t :: [i, n, e] ++ u, by simp, .create hc ht (.some (by simp [hi, hn, he])) hu⟩
  · obtain ⟨u, rfl, hu⟩ := tableDefinition_sound htable
    exact ⟨c :: t :: [] ++ u, by simp, .create hc ht .none hu⟩

/-- **A statement that is read is spelled.** -/
theorem statement_sound : Sound statement Statement := by
  intro ahead t rest h
  unfold statement at h
  rw [reads_look_bind] at h
  split at h
  · exact selectStatement_sound h
  · exact insertStatement_sound h
  · exact updateStatement_sound h
  · exact deleteStatement_sound h
  · exact createStatement_sound h
  · exact dropStatement_sound h
  · exact truncateStatement_sound h
  · exact absurd h not_reads_refuse

/-- **What is read as a whole statement spells it**, with a semicolon behind it or none. -/
theorem wholeStatement_sound {ahead rest : List Token} {t : Tree}
    (h : Reads wholeStatement ahead t rest) :
    ∃ u v, ahead = u ++ v ∧ Statement u t ∧
      (v.map (·.kind) = [] ∨ v.map (·.kind) = [.semicolon]) := by
  unfold wholeStatement at h
  obtain ⟨t, _, ht, h'⟩ := reads_bind.1 h
  obtain ⟨u, rfl, hu⟩ := statement_sound ht
  simp only [↓reads_accept_bind, reads_look_bind] at h'
  obtain ⟨s, _, rfl, hs, h'⟩ | ⟨-, h'⟩ := h'
  · split at h'
    · obtain ⟨rfl, rfl⟩ := reads_pure.1 h'
      exact ⟨u, [s], rfl, hu, .inr (by simp [hs])⟩
    · exact absurd h' not_reads_refuse
  · split at h'
    · obtain ⟨rfl, rfl⟩ := reads_pure.1 h'
      exact ⟨u, [], rfl, hu, .inl rfl⟩
    · exact absurd h' not_reads_refuse

end Parser

/-- **The tokens of a text that is read as a statement spell it,** apart from a semicolon. -/
theorem spells_of_parse {text : String} {t : Tree} (h : parse text = .ok t) :
    ∃ u v, tokenize text = u ++ v ∧ Spells.Statement u t ∧
      (v.map (·.kind) = [] ∨ v.map (·.kind) = [.semicolon]) := by
  unfold parse at h
  split at h
  · rename_i r hr
    cases h
    exact Parser.wholeStatement_sound (Parser.reads_of_eq hr)
  · cases h

end Grammar
end MiniSql
