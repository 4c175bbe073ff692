/-
# What is spelled is read

The other direction of `MiniSql.Proofs.Grammar.Soundness`, for the statements other than queries and
then for all of them. Together the two say that the trees of a text are those that its tokens spell
(`parse_eq_ok_iff`).
-/

import MiniSql.Proofs.Grammar.Completeness.Queries

namespace MiniSql
namespace Grammar
namespace Parser

open Spells

/-! ## Other statements -/

/-- The table of an `INSERT` is read with its columns, or without if no bracket follows. -/
theorem target_complete {u rest : List Token} {target : Tree} (h : Target u target)
    (hr : NotAhead .openParen rest) :
    ∃ n columns mid, target = .table n columns ∧ Reads name (u ++ rest) n mid ∧
      Reads targetColumns mid columns rest := by
  unfold targetColumns
  simp only [↓reads_accept_bind, reads_bind, reads_name, reads_expect, reads_pure, if_true,
    Bool.false_eq_true, if_false]
  cases h with
  | all h => exact ⟨_, _, _, rfl, ⟨_, rfl, h⟩, .inr ⟨hr, by simp⟩⟩
  | columns h hc =>
    obtain ⟨o, mid, c, heq, ho, hcols, hclose⟩ :=
      Complete.parens (commaList_complete (name_complete _) rfl) rfl hc rest
    exact ⟨_, _, _, rfl, ⟨_, rfl, h⟩, .inl ⟨o, mid, heq, ho, _, _, hcols, c, rest, ⟨rfl, hclose⟩,
      by simp⟩⟩

/-- A tuple is read in its brackets, whatever follows. -/
theorem tuple_complete : Complete tuple Tuple nothing := by
  rintro u t ⟨ho, h, hc⟩ rest -
  have hvalues := commaList_complete value_complete rfl h (ends_of_kind hc rfl : Ends _ (_ :: rest))
  unfold tuple
  simp only [reads_bind, reads_expect, reads_pure]
  refine ⟨_, _, ⟨rfl, ho⟩, _, _, ?_, _, rest, ⟨rfl, hc⟩, rfl, rfl⟩
  simpa using hvalues

/-- **An `INSERT` is read** as it is spelled, if the statement ends behind it. -/
theorem insert_complete {i o v : Token} {u w x rest : List Token} {target : Tree}
    {tuples returning : List Tree} (hi : i.kind = .keyword .INSERT) (ho : o.kind = .keyword .INTO)
    (ht : Target u target) (hv : v.kind = .keyword .VALUES) (hw : CommaList Tuple w tuples)
    (hx : Returning x returning) (hr : AtEnd rest) :
    Reads insertStatement (i :: o :: u ++ v :: w ++ x ++ rest)
      (.word .INSERT (.word .INTO [target] :: .word .VALUES tuples :: returning)) rest := by
  obtain ⟨n, columns, mid, rfl, hname, hcolumns⟩ :=
    target_complete ht (by simp [hv] : NotAhead _ (v :: (w ++ (x ++ rest))))
  have hreturning : Ends (fun k => nothing k || k == .comma) (x ++ rest) := by
    cases hx with
    | none => exact hr.ends rfl
    | some hx _ => exact ends_of_kind hx rfl
  have htuples := commaList_complete tuple_complete rfl hw hreturning
  unfold insertStatement
  simp only [reads_bind, ↓reads_acceptWord_bind, reads_expectWord, reads_pure, if_true,
    Bool.false_eq_true, if_false]
  refine ⟨i, _, ⟨rfl, hi⟩, o, _, ⟨rfl, ho⟩, n, mid, ?_, columns, _, hcolumns, v, _, ⟨rfl, hv⟩,
    tuples, _, htuples, ?_⟩
  · simpa using hname
  · cases hx with
    | none => exact .inr ⟨hr.notAhead (by simp), rfl, rfl⟩
    | some hx hc => exact .inl ⟨_, _, rfl, hx, _, _, column_complete hc (hr.ends rfl), rfl, rfl⟩

/-- An assignment is read as far as its value goes. -/
theorem assignment_complete : Complete assignment Assignment Kind.afterValue := by
  rintro u t ⟨ht, hs, hv⟩ rest hr
  unfold assignment
  simp only [reads_bind, reads_name, reads_expect, reads_pure]
  exact ⟨_, _, ⟨_, rfl, ht⟩, _, _, ⟨rfl, hs⟩, _, _, value_complete hv hr, rfl, rfl⟩

/-- A `WHERE` is read, written or left out, if the statement ends behind it. -/
theorem filter_complete {u rest : List Token} {clause : Tree} (h : Where u clause)
    (hr : AtEnd rest) : Reads filter (u ++ rest) clause rest := by
  unfold filter
  simp only [↓reads_acceptWord_bind, reads_bind, reads_pure, if_true, Bool.false_eq_true,
    if_false]
  cases h with
  | none => exact .inr ⟨hr.notAhead (by simp), rfl, rfl⟩
  | some h =>
    obtain ⟨hw, hp⟩ := h
    exact .inl ⟨_, _, rfl, hw, _, _, predicate_complete hp (hr.ends rfl), rfl, rfl⟩

/-- **An `UPDATE` is read** as it is spelled. -/
theorem update_complete {t s : Token} {u v w rest : List Token} {table clause : Tree}
    {assignments : List Tree} (ht : t.kind = .keyword .UPDATE) (hu : Table u table)
    (hs : s.kind = .keyword .SET) (ha : CommaList Assignment v assignments) (hw : Where w clause)
    (hr : AtEnd rest) :
    Reads updateStatement (t :: u ++ s :: v ++ w ++ rest)
      (.word .UPDATE [table, .word .SET assignments, clause]) rest := by
  have hwhere : Ends (fun k => k.afterValue || k == .comma) (w ++ rest) := by
    cases hw with
    | none => exact hr.ends rfl
    | some h =>
      obtain ⟨hw, -⟩ := h
      exact ends_of_kind hw rfl
  have htable := table_complete hu (ends_nothing (s :: (v ++ (w ++ rest))))
  unfold updateStatement
  simp only [reads_bind, reads_expectWord, reads_pure]
  refine ⟨t, _, ⟨rfl, ht⟩, table, _, ?_, s, _, ⟨rfl, hs⟩, assignments, _,
    commaList_complete assignment_complete rfl ha hwhere, clause, _, filter_complete hw hr, rfl,
    rfl⟩
  simpa using htable

/-- **A `DELETE` is read** as it is spelled. -/
theorem delete_complete {d f : Token} {u w rest : List Token} {table clause : Tree}
    (hd : d.kind = .keyword .DELETE) (hf : f.kind = .keyword .FROM) (hu : Table u table)
    (hw : Where w clause) (hr : AtEnd rest) :
    Reads deleteStatement (d :: f :: u ++ w ++ rest) (.word .DELETE [.word .FROM [table], clause])
      rest := by
  have htable := table_complete hu (ends_nothing (w ++ rest))
  unfold deleteStatement
  simp only [reads_bind, reads_expectWord, reads_pure]
  refine ⟨d, _, ⟨rfl, hd⟩, f, _, ⟨rfl, hf⟩, table, _, ?_, clause, _, filter_complete hw hr, rfl,
    rfl⟩
  simpa using htable

/-- A table's name never starts with a reserved keyword. -/
theorem notAhead_of_table {u rest : List Token} {table : Tree} (h : Table u table) {k : Keyword}
    (hk : k.reserved = true) : NotAhead (.keyword k) (u ++ rest) := by
  obtain ⟨hn⟩ := h
  rcases Token.kind_of_name? hn with h | h | ⟨k', h, hr⟩
  · simp [h]
  · simp [h]
  · have : k' ≠ k := by
      rintro rfl
      rw [hk] at hr
      cases hr
    simpa [h] using this

/-- **A `TRUNCATE` is read** with the word `TABLE` or without. -/
theorem truncate_complete {t : Token} {s u rest : List Token} {table : Tree}
    (ht : t.kind = .keyword .TRUNCATE)
    (hs : s.map (·.kind) = [] ∨ s.map (·.kind) = [.keyword .TABLE]) (hu : Table u table) :
    Reads truncateStatement (t :: s ++ u ++ rest) (.word .TRUNCATE [table]) rest := by
  have htable := table_complete hu (ends_nothing rest)
  unfold truncateStatement
  simp only [reads_bind, ↓reads_acceptWord_bind, reads_expectWord, reads_pure]
  refine ⟨t, _, ⟨rfl, ht⟩, ?_⟩
  rcases hs with hs | hs
  · obtain rfl := List.map_eq_nil_iff.1 hs
    exact .inr ⟨notAhead_of_table hu rfl, table, _, htable, rfl, rfl⟩
  · obtain ⟨w, rfl, hw⟩ := List.map_eq_singleton_iff.1 hs
    exact .inl ⟨w, _, rfl, hw, table, _, htable, rfl, rfl⟩

/-- **A `DROP` is read** with its condition or without. -/
theorem drop_complete {d t : Token} {u v rest : List Token} {condition : List Tree} {table : Tree}
    (hd : d.kind = .keyword .DROP) (ht : t.kind = .keyword .TABLE)
    (hc : Condition [.IF, .EXISTS] "if exists" u condition) (hu : Table v table) :
    Reads dropStatement (d :: t :: u ++ v ++ rest) (.word .DROP (condition ++ [table])) rest := by
  have htable := table_complete hu (ends_nothing rest)
  unfold dropStatement
  simp only [reads_bind, ↓reads_acceptWord_bind, reads_expectWord, reads_pure, if_true,
    Bool.false_eq_true, if_false]
  refine ⟨d, _, ⟨rfl, hd⟩, t, _, ⟨rfl, ht⟩, ?_⟩
  cases hc with
  | none => exact .inr ⟨notAhead_of_table hu rfl, table, _, htable, rfl, rfl⟩
  | some h =>
    obtain ⟨i, _, rfl, hi, h⟩ := List.map_eq_cons_iff.1 h
    obtain ⟨e, rfl, he⟩ := List.map_eq_singleton_iff.1 h
    exact .inl ⟨i, _, rfl, hi, e, _, ⟨rfl, he⟩, table, _, htable, rfl, rfl⟩

/-! ## Tables to create -/

/-- A size is read as one token. -/
theorem size_complete : Complete (leafOf .number) Size nothing := by
  rintro u t ⟨h⟩ rest -
  simpa [Tree.ofToken, h] using leafOf_complete h

/-- A type that may have sizes is read with those behind it. -/
theorem sizedType_read {t : Token} {k : Keyword} {mid rest : List Token} {sizes : List Tree}
    (ht : t.kind = .keyword k) (hk : isSizedType k = true)
    (hs : Reads Parser.sizes mid sizes rest) :
    Reads columnType (t :: mid) (.word k sizes) rest := by
  unfold columnType
  rw [reads_look_bind]
  simp only [ht]
  split
  · simp_all [isSizedType]
  · rename_i _ heq
    cases heq
    rw [if_pos hk]
    simp only [reads_bind, reads_expectWord, reads_pure]
    exact ⟨_, _, ⟨rfl, ht⟩, _, _, hs, rfl, rfl⟩
  · simp_all

/-- The type of instants is read with the words behind it. -/
theorem timestamp_read {t : Token} {mid rest : List Token} {type : Tree}
    (ht : t.kind = .keyword .TIMESTAMP)
    (h : Reads (do
      if ← acceptWord .WITH then
        let _ ← expectWord .TIME
        let _ ← expectWord .ZONE
        return Tree.word .TIMESTAMP [.leaf (.keyword .WITH) "with time zone"]
      else return .word .TIMESTAMP []) mid type rest) :
    Reads columnType (t :: mid) type rest := by
  unfold columnType
  rw [reads_look_bind]
  simp only [ht]
  rw [reads_bind]
  exact ⟨t, mid, reads_expectWord.2 ⟨rfl, ht⟩, h⟩

/-- The type of a column is read in each of its forms. -/
theorem columnType_complete : Complete columnType ColumnType Kind.afterType := by
  intro u type h rest hr
  cases h with
  | plain h hk =>
    rcases hk with hk | rfl
    · refine sizedType_read h hk ?_
      unfold Parser.sizes
      simp only [↓reads_accept_bind, Bool.false_eq_true, if_false, reads_pure]
      exact .inr ⟨hr.notAhead rfl, by simp⟩
    · refine timestamp_read h ?_
      simp only [↓reads_acceptWord_bind, Bool.false_eq_true, if_false, reads_pure]
      exact .inr ⟨hr.notAhead rfl, by simp⟩
  | sized h hk hs =>
    obtain ⟨o, mid, c, heq, ho, hsizes, hc⟩ :=
      Complete.parens (commaList_complete size_complete rfl) rfl hs rest
    refine sizedType_read h hk ?_
    unfold Parser.sizes
    simp only [↓reads_accept_bind, reads_bind, reads_expect, if_true, reads_pure]
    exact .inl ⟨o, mid, heq, ho, _, _, hsizes, c, rest, ⟨rfl, hc⟩, rfl, rfl⟩
  | withZone ht hw hm hz =>
    refine timestamp_read ht ?_
    simp only [↓reads_acceptWord_bind, reads_bind, reads_expectWord, if_true, reads_pure]
    exact .inl ⟨_, _, rfl, hw, _, _, ⟨rfl, hm⟩, _, _, ⟨rfl, hz⟩, by simp⟩

/-- A modifier starts with a word that calls for a round, and the round reads the modifier. -/
theorem modifier_round {u : List Token} {modifier : Tree} (h : Modifier u modifier) :
    ∃ t v f, u = t :: v ∧ modifierRound t = some f ∧ Kind.afterModifier t.kind = false ∧
      ∀ read, Takes (f read) Kind.afterModifier v (read ++ [modifier]) := by
  cases h with
  | @flag t k h hk =>
    obtain ⟨f, hf, hr⟩ : ∃ f, modifierRound t = some f ∧
        ∀ read, f read = pure (read ++ [.word k []]) := by
      rw [modifierRound, h]
      cases k <;> first | exact ⟨_, rfl, fun _ => rfl⟩ | cases hk
    refine ⟨_, _, f, rfl, hf, ?_, fun read rest _ => ?_⟩
    · rw [h]
      cases k <;> first | rfl | cases hk
    · rw [hr]
      exact reads_pure.2 ⟨rfl, rfl⟩
  | notNull ht hn =>
    refine ⟨_, _, _, rfl, by rw [modifierRound, ht], by rw [ht]; rfl, fun read rest _ => ?_⟩
    simp only [reads_bind, reads_expectWord, reads_pure]
    exact ⟨_, _, ⟨rfl, hn⟩, by simp⟩
  | default hd hv =>
    refine ⟨_, _, _, rfl, by rw [modifierRound, hd], by rw [hd]; rfl, fun read rest hr => ?_⟩
    have hvalue := value_complete hv (hr.mono (by simp +contextual [Kind.afterModifier]))
    simp only [reads_bind, reads_pure]
    exact ⟨_, _, hvalue, rfl, rfl⟩
  | onUpdate ho ht hn =>
    refine ⟨_, _, _, rfl, by rw [modifierRound, ho], by rw [ho]; rfl, fun read rest hr => ?_⟩
    simp only [reads_bind, reads_expectWord, reads_pure]
    exact ⟨_, _, ⟨rfl, ht⟩, _, _, currentTimestamp_complete hn (ends_nothing _), rfl, rfl⟩
  | primaryKey hp hk =>
    refine ⟨_, _, _, rfl, by rw [modifierRound, hp], by rw [hp]; rfl, fun read rest _ => ?_⟩
    simp only [reads_bind, reads_expectWord, reads_pure]
    exact ⟨_, _, ⟨rfl, hk⟩, by simp⟩

/-- What ends the modifiers of a column ends what stands before them too. -/
theorem ends_modifiers {u rest : List Token} {modifiers : List Tree}
    (h : Many Modifier u modifiers) (hr : Ends Kind.afterModifier rest) :
    Ends Kind.afterModifier (u ++ rest) := by
  induction h generalizing rest with
  | none => exact hr
  | more h ht ih =>
    obtain ⟨t, v, f, rfl, hf, hk, -⟩ := modifier_round ht
    simpa using ih (ends_cons.2 hk)

/-- What ends a column carries no modifier on, and opens none. -/
theorem Ends.ofColumn {rest : List Token} (h : Ends Kind.endsNoColumn rest) :
    Ends Kind.afterModifier rest ∧ ∀ t ∈ rest.head?, modifierRound t = none := by
  have kinds (t) (ht : t ∈ rest.head?) : t.kind = .comma ∨ t.kind = .closeParen := by
    have := h t ht
    simp only [Kind.endsNoColumn, bne_eq_false_iff_eq, Bool.and_eq_false_iff] at this
    exact this
  refine ⟨fun t ht => ?_, fun t ht => ?_⟩
  · rcases kinds t ht with hk | hk <;> rw [hk] <;> rfl
  · rcases kinds t ht with hk | hk <;> rw [modifierRound, hk]

/-- The definition of a column is read as far as its modifiers go. -/
theorem columnDefinition_complete :
    Complete columnDefinition ColumnDefinition Kind.endsNoColumn := by
  rintro _ _ ⟨ht, hu, hm⟩ rest hr
  obtain ⟨hmod, hstop⟩ := hr.ofColumn
  have htype := columnType_complete hu
    ((ends_modifiers hm hmod).mono (by simp +contextual [Kind.afterModifier]))
  unfold columnDefinition
  simp only [reads_bind, reads_name, reads_pure]
  refine ⟨_, _, ⟨_, rfl, ht⟩, _, _, ?_, _, _,
    (many_leadsTo modifier_round hm [_]).stop hmod hstop, rfl, rfl⟩
  simpa using htype

/-- The definition of a table is read in its brackets, whatever follows. -/
theorem tableDefinition_complete : Complete tableDefinition TableDefinition nothing := by
  rintro _ _ ⟨ht, hc⟩ rest -
  obtain ⟨o, mid, c, heq, ho, hcols, hclose⟩ :=
    Complete.parens (commaList_complete columnDefinition_complete rfl) rfl hc rest
  unfold tableDefinition
  simp only [reads_bind, reads_name, reads_expect, reads_pure]
  exact ⟨_, _, ⟨_, rfl, ht⟩, o, mid, ⟨heq, ho⟩, _, _, hcols, c, rest, ⟨rfl, hclose⟩, rfl, rfl⟩

/-- **A `CREATE` is read** with its condition or without. -/
theorem create_complete {c t : Token} {u v rest : List Token} {condition : List Tree}
    {table : Tree} (hc : c.kind = .keyword .CREATE) (ht : t.kind = .keyword .TABLE)
    (hi : Condition [.IF, .NOT, .EXISTS] "if not exists" u condition)
    (hu : TableDefinition v table) :
    Reads createStatement (c :: t :: u ++ v ++ rest) (.word .CREATE (condition ++ [table]))
      rest := by
  have htable := tableDefinition_complete hu (ends_nothing rest)
  have hif : NotAhead (.keyword .IF) (v ++ rest) := by
    obtain ⟨hn, -⟩ := hu
    exact notAhead_of_table (.mk hn) rfl
  unfold createStatement
  simp only [reads_bind, ↓reads_acceptWord_bind, reads_expectWord, reads_pure, if_true,
    Bool.false_eq_true, if_false]
  refine ⟨c, _, ⟨rfl, hc⟩, t, _, ⟨rfl, ht⟩, ?_⟩
  cases hi with
  | none => exact .inr ⟨hif, table, _, htable, rfl, rfl⟩
  | some h =>
    obtain ⟨i, _, rfl, hi, h⟩ := List.map_eq_cons_iff.1 h
    obtain ⟨n, _, rfl, hn, h⟩ := List.map_eq_cons_iff.1 h
    obtain ⟨e, rfl, he⟩ := List.map_eq_singleton_iff.1 h
    exact .inl ⟨i, _, rfl, hi, n, _, ⟨rfl, hn⟩, e, _, ⟨rfl, he⟩, table, _, htable, rfl, rfl⟩

/-! ## Whole statements -/

/-- **A statement that is spelled is read.** -/
theorem statement_complete {u rest : List Token} {t : Tree} (h : Statement u t)
    (hr : AtEnd rest) : Reads statement (u ++ rest) t rest := by
  unfold statement
  rw [reads_look_bind]
  cases h with
  | select hs hi hf ht hj hc =>
    simpa [Token.keyword?, hs] using select_complete hs hi hf ht hj hc hr
  | insert hi ho ht hv hw hx =>
    simpa [Token.keyword?, hi] using insert_complete hi ho ht hv hw hx hr
  | update ht hu hs ha hw => simpa [Token.keyword?, ht] using update_complete ht hu hs ha hw hr
  | delete hd hf hu hw => simpa [Token.keyword?, hd] using delete_complete hd hf hu hw hr
  | truncate ht hs hu => simpa [Token.keyword?, ht] using truncate_complete ht hs hu
  | drop hd ht hc hu => simpa [Token.keyword?, hd] using drop_complete hd ht hc hu
  | create hc ht hi hu => simpa [Token.keyword?, hc] using create_complete hc ht hi hu

/-- **A statement is read** to the end of the text, with a semicolon there or not. -/
theorem wholeStatement_complete {u v : List Token} {t : Tree} (h : Statement u t)
    (hv : v.map (·.kind) = [] ∨ v.map (·.kind) = [.semicolon]) :
    Reads wholeStatement (u ++ v) t [] := by
  unfold wholeStatement
  rw [reads_bind]
  simp only [↓reads_accept_bind, reads_look_bind]
  rcases hv with hv | hv
  · obtain rfl := List.map_eq_nil_iff.1 hv
    exact ⟨t, [], statement_complete h (by simp [AtEnd]), .inr ⟨by simp, by simp⟩⟩
  · obtain ⟨s, rfl, hs⟩ := List.map_eq_singleton_iff.1 hv
    exact ⟨t, [s], statement_complete h (by simp [AtEnd, hs]), .inl ⟨s, [], rfl, hs, by simp⟩⟩

end Parser

/-- What is read from the tokens of a text is its tree. -/
theorem parse_of_reads {text : String} {t : Tree} {rest : List Token}
    (h : Parser.Reads Parser.wholeStatement (tokenize text) t rest) : parse text = .ok t := by
  obtain ⟨_, h⟩ := h
  unfold parse
  rw [h]

/-- **A text is read as the tree that its tokens spell,** apart from a semicolon behind them, and
as no other. -/
theorem parse_eq_ok_iff {text : String} {t : Tree} :
    parse text = .ok t ↔ ∃ u v, tokenize text = u ++ v ∧ Spells.Statement u t ∧
      (v.map (·.kind) = [] ∨ v.map (·.kind) = [.semicolon]) := by
  refine ⟨spells_of_parse, ?_⟩
  rintro ⟨u, v, htokens, hu, hv⟩
  exact parse_of_reads (htokens ▸ Parser.wholeStatement_complete hu hv)

end Grammar
end MiniSql
