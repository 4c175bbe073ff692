/-
# What is spelled of a query is read

The items, tables, joins and clauses of a `SELECT`. Joins and clauses are loops, and each ends where
the next token opens none of its rounds.
-/

import MiniSql.Proofs.Grammar.Completeness.Predicates

namespace MiniSql
namespace Grammar
namespace Parser

open Spells

/-! ## Queries -/

/-- A count of rows is read as a star in brackets. -/
theorem call_star {t o s c : Token} {rest : List Token} (ht : t.kind = .keyword .COUNT)
    (ho : o.kind = .openParen) (hs : s.kind = .asterisk) (hc : c.kind = .closeParen) :
    Reads (call .COUNT) (t :: o :: s :: c :: rest) (.word .COUNT [.leaf .asterisk "*"]) rest := by
  unfold call
  simp only [↓reads_accept_bind, reads_bind, reads_expect, reads_expectWord, reads_pure, if_true]
  exact ⟨_, _, ⟨rfl, ht⟩, _, _, ⟨rfl, ho⟩, .inl ⟨_, _, rfl, hs, _, _, ⟨rfl, rfl⟩, _, _, ⟨rfl, hc⟩,
    rfl, rfl⟩⟩

/-- A column never starts with a star. -/
theorem notAhead_of_column {u rest : List Token} {c : Tree} (h : Column u c) :
    NotAhead .asterisk (u ++ rest) := by
  have name {t : Token} {n : String} (hn : t.name? = some n) : t.kind ≠ .asterisk := by
    rcases Token.kind_of_name? hn with h | h | ⟨k, h, -⟩ <;> simp [h]
  cases h with
  | plain h => simpa using name h
  | qualified h _ _ => simpa using name h

/-- An aggregate of a column is read as the column in brackets. -/
theorem call_column {k : Keyword} {t : Token} {u : List Token} {c : Tree}
    (ht : t.kind = .keyword k) (hc : Parens Column u c) (rest : List Token) :
    Reads (call k) (t :: u ++ rest) (.word k [c]) rest := by
  obtain ⟨ho, hc, hclose⟩ := hc
  unfold call
  simp only [↓reads_accept_bind, reads_bind, reads_expect, reads_expectWord, reads_pure,
    Bool.false_eq_true, if_false]
  refine ⟨_, _, ⟨rfl, ht⟩, _, _, ⟨rfl, ho⟩, .inr ⟨?_, _, _, ?_, _, rest, ⟨rfl, hclose⟩, rfl, rfl⟩⟩
  · simpa using notAhead_of_column hc
  · simpa using column_complete hc (ends_of_kind hclose rfl)

/-- What a `SELECT` lists starts with a name, unless it is a star or a call. -/
theorem selectItem_of_name {t : Token} {n : String} {tail rest : List Token} {item : Tree}
    (h : t.name? = some n) (ho : NotAhead .openParen tail)
    (hr : Reads (if aheadIs .period tail && aheadIs .asterisk tail.tail then tableStar else column)
      (t :: tail) item rest) : Reads selectItem (t :: tail) item rest := by
  have ht : t.kind ≠ .asterisk := by
    rcases Token.kind_of_name? h with h | h | ⟨k, h, -⟩ <;> simp [h]
  unfold selectItem
  rw [reads_look_bind]
  simpa [ht, aheadIs_eq_false ho] using hr

/-- The word of an aggregate with a bracket behind it begins a call. -/
theorem selectItem_call {t o : Token} {k : Keyword} {tail rest : List Token} {item : Tree}
    (ht : t.kind = .keyword k) (hk : isAggregate k = true) (ho : o.kind = .openParen)
    (hr : Reads (call k) (t :: o :: tail) item rest) :
    Reads selectItem (t :: o :: tail) item rest := by
  unfold selectItem
  rw [reads_look_bind]
  simpa [ht, Token.keyword?, Option.filter, hk, aheadIs_eq_true ho] using hr

/-- The star of a table is read as its three tokens. -/
theorem tableStar_complete {t d s : Token} {n : String} {rest : List Token} (ht : t.name? = some n)
    (hd : d.kind = .period) (hs : s.kind = .asterisk) :
    Reads tableStar (t :: d :: s :: rest) ⟨.asterisk, s.lexeme, [.table n []]⟩ rest := by
  unfold tableStar
  simp only [reads_bind, reads_name, reads_expect, reads_pure]
  exact ⟨_, _, ⟨_, rfl, ht⟩, _, _, ⟨rfl, hd⟩, _, _, ⟨rfl, hs⟩, rfl, rfl⟩

/-- What is selected is read in each of its forms. -/
theorem selectItem_complete : Complete selectItem Item Kind.afterValue := by
  intro u item h rest hr
  have hcol : Ends Kind.afterColumn rest := hr.mono (by simp +contextual [Kind.afterValue])
  cases h with
  | @star s h =>
    have ht : Tree.leaf .asterisk s.lexeme = .ofToken s := by simp [Tree.ofToken, h]
    unfold selectItem
    rw [reads_look_bind, ht]
    simpa [h] using leafOf_complete h
  | starOf ht hd hs =>
    refine selectItem_of_name ht (by simp [hd]) ?_
    simpa [aheadIs_eq_true hd, aheadIs_eq_true hs] using tableStar_complete ht hd hs
  | countAll ht ho hs hc => exact selectItem_call ht rfl ho (call_star ht ho hs hc)
  | call ht hk ha =>
    have hcall := call_column ht ha rest
    cases ha with
    | mk ho _ _ => exact selectItem_call ht hk ho hcall
  | column h =>
    have hc := column_complete h hcol
    cases h with
    | plain hn =>
      refine selectItem_of_name hn (hr.notAhead rfl) ?_
      simpa [aheadIs_eq_false (hcol.notAhead (k := .period) rfl)] using hc
    | @qualified t d m _ _ hn hd hm =>
      have hstar : m.kind ≠ .asterisk := by
        rcases Token.kind_of_name? hm with h | h | ⟨k, h, -⟩ <;> simp [h]
      refine selectItem_of_name hn (by simp [hd]) ?_
      simpa [aheadIs_eq_false (notAhead_cons.2 hstar)] using hc

/-- What a join opens with is followed by its table and its condition. -/
theorem joined_complete (marks : List Tree) {u v : List Token} {table on : Tree}
    (ht : Table u table) (hp : Filter .ON v on) :
    Takes (joined marks) Kind.afterPredicate (u ++ v) (.word .JOIN (marks ++ [table, on])) := by
  obtain ⟨hw, hp⟩ := hp
  intro rest hr
  unfold joined
  simp only [reads_bind, reads_expectWord, reads_pure]
  refine ⟨_, _, ?_, _, _, ⟨rfl, hw⟩, _, _, predicate_complete hp hr, rfl, rfl⟩
  simpa using table_complete ht (ends_nothing _)

/-- A join starts with a word that calls for a round, and the round reads the join. -/
theorem join_round {u : List Token} {join : Tree} (h : Join u join) :
    ∃ t v f, u = t :: v ∧ joinRound t = some f ∧ Kind.afterPredicate t.kind = false ∧
      ∀ read, Takes (f read) Kind.afterPredicate v (read ++ [join]) := by
  obtain ⟨ho, ht, hp⟩ := h
  have body (marks : List Tree) {rest : List Token} (hr : Ends Kind.afterPredicate rest) :=
    joined_complete marks ht hp hr
  cases ho with
  | left hl hj =>
    refine ⟨_, _, _, rfl, by rw [joinRound, hl], by rw [hl]; rfl, fun read rest hr => ?_⟩
    simp only [↓reads_acceptWord_bind, reads_bind, reads_expectWord, reads_pure]
    exact .inr ⟨by simp [hj], _, _, ⟨rfl, hj⟩, _, _, body _ hr, rfl, rfl⟩
  | leftOuter hl ho hj =>
    refine ⟨_, _, _, rfl, by rw [joinRound, hl], by rw [hl]; rfl, fun read rest hr => ?_⟩
    simp only [↓reads_acceptWord_bind, reads_bind, reads_expectWord, reads_pure]
    exact .inl ⟨_, _, rfl, ho, _, _, ⟨rfl, hj⟩, _, _, body _ hr, rfl, rfl⟩
  | inner hi hj =>
    refine ⟨_, _, _, rfl, by rw [joinRound, hi], by rw [hi]; rfl, fun read rest hr => ?_⟩
    simp only [reads_bind, reads_expectWord, reads_pure]
    exact ⟨_, _, ⟨rfl, hj⟩, _, _, body _ hr, rfl, rfl⟩
  | plain hj =>
    refine ⟨_, _, _, rfl, by rw [joinRound, hj], by rw [hj]; rfl, fun read rest hr => ?_⟩
    simp only [reads_bind, reads_pure]
    exact ⟨_, _, body _ hr, rfl, rfl⟩

/-- A sort key is read with its direction or without. -/
theorem sortKey_complete : Complete sortKey SortKey Kind.afterSortKey := by
  intro u key h rest hr
  have hcol : Ends Kind.afterColumn rest := hr.mono (by simp +contextual [Kind.afterSortKey])
  unfold sortKey
  rw [reads_bind]
  cases h with
  | unmarked h =>
    refine ⟨_, _, column_complete h hcol, ?_⟩
    simp only [↓reads_acceptWord_bind, reads_pure, Bool.false_eq_true, if_false]
    exact .inr ⟨hr.notAhead rfl, .inr ⟨hr.notAhead rfl, by simp⟩⟩
  | @marked u d k c h hd hk =>
    refine ⟨c, d :: rest, ?_, ?_⟩
    · simpa using column_complete h (ends_of_kind hd (by rcases hk with rfl | rfl <;> rfl))
    simp only [↓reads_acceptWord_bind, reads_pure, if_true, Bool.false_eq_true, if_false]
    rcases hk with rfl | rfl
    · exact .inr ⟨by simp [hd], .inl ⟨_, _, rfl, hd, rfl, rfl⟩⟩
    · exact .inl ⟨_, _, rfl, hd, rfl, rfl⟩

/-- A number that fits is read behind `LIMIT` and `OFFSET`. -/
theorem countOf_complete {k : Keyword} {n : Token} {c : Nat} {rest : List Token}
    (hn : n.kind = .number) (hc : Number.readCount n.lexeme = .ok c) :
    Reads (countOf k) (n :: rest) (.word k [.leaf .number n.lexeme]) rest := by
  have ht : Tree.leaf .number n.lexeme = .ofToken n := by simp [Tree.ofToken, hn]
  unfold countOf
  simp only [reads_bind, reads_expect]
  refine ⟨_, _, ⟨rfl, hn⟩, ?_⟩
  rw [hc, ht]
  exact reads_pure.2 ⟨rfl, rfl⟩

/-- A clause starts with a word that calls for a round, and the round reads the clause. -/
theorem clause_round {u : List Token} {clause : Tree} (h : Clause u clause) :
    ∃ t v f, u = t :: v ∧ clauseRound t = some f ∧ Kind.afterClause t.kind = false ∧
      ∀ read, Takes (f read) Kind.afterClause v (read.add clause) := by
  cases h with
  | order ho hb hk =>
    refine ⟨_, _, _, rfl, by rw [clauseRound, ho], by rw [ho]; rfl, fun read rest hr => ?_⟩
    have hkeys := commaList_complete sortKey_complete rfl hk
      (hr.mono (by grind [Kind.afterClause]))
    simp only [reads_bind, reads_expectWord, reads_pure]
    exact ⟨_, _, ⟨rfl, hb⟩, _, _, hkeys, rfl, rfl⟩
  | count ht hk hn hc =>
    rcases hk with rfl | rfl <;>
    · refine ⟨_, _, _, rfl, by rw [clauseRound, ht], by rw [ht]; rfl, fun read rest hr => ?_⟩
      simp only [reads_bind, reads_pure]
      exact ⟨_, _, countOf_complete hn hc, by simp⟩
  | forUpdate hf hu =>
    refine ⟨_, _, _, rfl, by rw [clauseRound, hf], by rw [hf]; rfl, fun read rest hr => ?_⟩
    simp only [reads_bind, reads_expectWord, reads_pure]
    exact ⟨_, _, ⟨rfl, hu⟩, by simp⟩

/-- **Clauses are read one after the other,** by induction on how they are spelled. -/
theorem clauses_leadsTo {u : List Token} {clauses : Parser.Clauses} (h : Spells.Clauses u clauses) :
    LeadsTo (loop clauseRound ⟨.implicitWhere, []⟩) clauseRound Kind.afterClause u clauses := by
  induction h with
  | none => exact fun _ _ _ _ hl => hl
  | filter h hf ht ih =>
    obtain ⟨hw, hp⟩ := ht
    refine ih.step (by rw [clauseRound, hw]) (by rw [hw]; rfl) fun rest hr => ?_
    have hpred := predicate_complete hp (hr.mono (by simp +contextual [Kind.afterClause]))
    simp only [reads_bind]
    refine ⟨_, _, hpred, ?_⟩
    rw [if_pos hf]
    exact reads_pure.2 ⟨rfl, rfl⟩
  | other h ht ih =>
    obtain ⟨t, v, f, rfl, hf, hk, hr⟩ := clause_round ht
    exact ih.step hf hk (hr _)

/-- A statement ends with the text, or at a semicolon. -/
def AtEnd (rest : List Token) : Prop := ∀ t ∈ rest.head?, t.kind = .semicolon

/-- The end of a statement ends every phrase that no semicolon carries on. -/
theorem AtEnd.ends {rest : List Token} (h : AtEnd rest) {after : Kind → Bool}
    (hk : after .semicolon = false) : Ends after rest := by
  intro t ht
  rw [h t ht, hk]

/-- At the end of a statement no other token than a semicolon stands ahead. -/
theorem AtEnd.notAhead {rest : List Token} (h : AtEnd rest) {k : Kind} (hk : k ≠ .semicolon) :
    NotAhead k rest := by
  intro t ht
  rw [h t ht]
  exact hk.symm

/-- The clauses of a query are read if the statement ends behind them. -/
theorem clauses_complete {u rest : List Token} {clauses : Parser.Clauses}
    (h : Spells.Clauses u clauses) (hr : AtEnd rest) :
    Reads (loop clauseRound ⟨.implicitWhere, []⟩) (u ++ rest) clauses rest := by
  refine (clauses_leadsTo h).stop (hr.ends rfl) fun t ht => ?_
  rw [clauseRound, hr t ht]

/-- A round of the loop over clauses is begun by a word that opens one. -/
theorem opensClause_of_round {t : Token} {f : Parser.Clauses → Parser Parser.Clauses}
    (h : clauseRound t = some f) : t.kind.opensNoClause = false := by
  unfold clauseRound at h
  split at h <;> simp_all [Kind.opensNoClause]

/-- A round of the loop over joins is begun by a word that opens one. -/
theorem opensJoin_of_round {t : Token} {f : List Tree → Parser (List Tree)}
    (h : joinRound t = some f) : t.kind.opensNoJoin = false := by
  unfold joinRound at h
  split at h <;> simp_all [Kind.opensNoJoin]

/-- Clauses end what stands before them, or there are none. -/
theorem ends_clauses {u rest : List Token} {clauses : Parser.Clauses}
    (h : Spells.Clauses u clauses) (hr : Ends Kind.opensNoClause rest) :
    Ends Kind.opensNoClause (u ++ rest) := by
  induction h generalizing rest with
  | none => exact hr
  | filter h hf ht ih =>
    obtain ⟨hw, hp⟩ := ht
    simpa using ih (ends_of_kind hw rfl)
  | other h ht ih =>
    obtain ⟨t, v, f, rfl, hf, -⟩ := clause_round ht
    simpa using ih (ends_cons.2 (opensClause_of_round hf))

/-- Joins end what stands before them, or there are none. -/
theorem ends_joins {u rest : List Token} {joins : List Tree} (h : Many Join u joins)
    (hr : Ends Kind.opensNoJoin rest) : Ends Kind.opensNoJoin (u ++ rest) := by
  induction h generalizing rest with
  | none => exact hr
  | more h ht ih =>
    obtain ⟨t, v, f, rfl, hf, -⟩ := join_round ht
    simpa using ih (ends_cons.2 (opensJoin_of_round hf))

/-- A word that opens a clause opens no join. -/
theorem joinRound_of_clause {t : Token} (h : t.kind.opensNoClause = false) :
    joinRound t = none := by
  unfold joinRound
  split <;> first | rfl | simp_all [Kind.opensNoClause]

/-- The joins of a query are read if a clause or the end follows. -/
theorem joins_complete {u rest : List Token} {joins : List Tree} (h : Many Join u joins)
    (hr : Ends Kind.opensNoClause rest) : Reads (loop joinRound []) (u ++ rest) joins rest :=
  (many_leadsTo join_round h []).stop (hr.mono fun _ => Kind.opensNoClause_of_afterPredicate)
    fun t ht => joinRound_of_clause (hr t ht)

/-- **A `SELECT` is read** as it is spelled, if the statement ends behind it. -/
theorem select_complete {s f : Token} {u v w x rest : List Token} {items tables joins : List Tree}
    {clauses : Parser.Clauses} (hs : s.kind = .keyword .SELECT) (hi : CommaList Item u items)
    (hf : f.kind = .keyword .FROM) (ht : CommaList Table v tables) (hj : Many Join w joins)
    (hc : Spells.Clauses x clauses) (hr : AtEnd rest) :
    Reads selectStatement (s :: u ++ f :: v ++ w ++ x ++ rest)
      (.word .SELECT (items ++ .word .FROM tables :: joins ++ clauses.filter :: clauses.others))
      rest := by
  have hclauses : Ends Kind.opensNoClause (x ++ rest) := ends_clauses hc (hr.ends rfl)
  have hjoins : Ends Kind.opensNoJoin (w ++ (x ++ rest)) :=
    ends_joins hj (hclauses.mono fun _ => Kind.opensNoClause_of_opensNoJoin)
  have hitems := commaList_complete selectItem_complete rfl hi
    (ends_of_kind hf rfl : Ends _ (f :: (v ++ (w ++ (x ++ rest)))))
  have htables := commaList_complete table_complete rfl ht (hjoins.mono (by simp [nothing]; rfl))
  unfold selectStatement
  simp only [reads_bind, reads_expectWord, reads_pure]
  refine ⟨s, _, ⟨rfl, hs⟩, items, _, ?_, f, _, ⟨rfl, hf⟩, tables, _, htables, joins, _,
    joins_complete hj hclauses, clauses, _, clauses_complete hc hr, rfl, rfl⟩
  simpa using hitems

end Parser
end Grammar
end MiniSql
