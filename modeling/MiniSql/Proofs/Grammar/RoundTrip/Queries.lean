/-
# What is written of a query is read back

The items, tables, joins and clauses of a `SELECT`. The predicate of a query stands before its other
clauses in the tree and is written there, also where the text has it later or has none: the
implicit `WHERE` is written out, and reads as the implicit one again.
-/

import MiniSql.Proofs.Grammar.RoundTrip.Predicates

namespace MiniSql
namespace Grammar

open Spells

/-! ## Queries -/

/-- A rendered item is read as the item. -/
theorem lexes_item {u : List Token} {t : Tree} (h : Item u t) (hg : Genuine u) :
    Lexes t.renderItem (Item · t) := by
  cases h with
  | @star s h =>
    have hs : s.lexeme = "*" := by simpa [h, Kind.Carries] using hg
    rw [hs]
    refine lexes_star.mono ?_
    rintro _ ⟨s, rfl, hk, hl⟩
    rw [← hl]
    exact .star hk
  | @starOf t d s n ht hd hs =>
    have hlex : s.lexeme = "*" := by
      simp only [genuine_cons, hs] at hg
      exact hg.2.2.1
    have htext : Tree.renderItem ⟨.asterisk, "*", [.table n []]⟩ = renderName n ++ "." ++ "*" := by
      simp [Tree.renderItem, Tree.qualifier, Tree.part?, Tree.isWord, Tree.table]
    rw [hlex, htext]
    refine (lexes_star.qualified n).mono ?_
    rintro _ ⟨_, _, rfl, hn, _, _, rfl, ⟨d, rfl, hd, -⟩, ⟨s, rfl, hk, hl⟩⟩
    obtain ⟨t, rfl, -, hn⟩ := name_of_is hn
    rw [← hl]
    exact .starOf hn hd hk
  | countAll ht ho hs hc =>
    refine (lexes_star.call .COUNT).mono ?_
    rintro _ ⟨_, _, rfl, ⟨t, rfl, ht, -⟩, _, _, rfl, ⟨o, rfl, ho, -⟩, _, _, rfl, ⟨s, rfl, hs, -⟩,
      ⟨c, rfl, hc, -⟩⟩
    exact .countAll ht ho hs hc
  | @call t k u a ht hk ha =>
    obtain ⟨ho, ha, hc⟩ := ha
    have htext : (Tree.word k [a]).renderItem = k.text ++ "(" ++ a.renderItem ++ ")" := by
      simp [Tree.word, Tree.renderItem, Tree.renderItems]
    rw [htext]
    refine (((lexes_column ha).mono (·.1)).call k).mono ?_
    rintro _ ⟨_, _, rfl, ⟨t, rfl, ht, -⟩, hu⟩
    exact .call ht hk (parens_of_enclosed hu)
  | column h => exact (lexes_column h).mono fun hc => .column hc.1

/-- A rendered table is read as the table. -/
theorem lexes_table {u : List Token} {t : Tree} (h : Table u t) :
    Lexes t.renderClause (Table · t) := by
  obtain ⟨h⟩ := h
  exact lexes_node _ _

/-- A rendered `FROM` is read with its tables. -/
theorem lexes_from {u : List Token} {tables : List Tree} (h : CommaList Table u tables)
    (hg : Genuine u) :
    Lexes (Tree.word .FROM tables).renderClause fun u =>
      ∃ f v, u = f :: v ∧ f.kind = .keyword .FROM ∧ CommaList Table v tables := by
  have htables := lexes_commaList (fun h _ => lexes_table h) h hg
  have htext : (Tree.word .FROM tables).renderClause =
      "FROM " ++ commas (tables.map Tree.renderClause) := by
    rw [← renderClauses_eq_map]
    rfl
  rw [htext]
  exact htables.afterWord .FROM rfl

/-- A rendered `ON` or `WHERE` is read with its condition. -/
theorem lexes_filter {k : Keyword} (hk : k = .ON ∨ k = .WHERE) {u : List Token} {t : Tree}
    (h : Filter k u t) (hg : Genuine u) : Lexes t.renderClause (Filter k · t) := by
  obtain ⟨hw, hp⟩ := h
  have hpred := lexes_predicate hp (genuine_cons.1 hg).2 0
  rcases hk with rfl | rfl
  · refine (hpred.afterWord .ON rfl).mono ?_
    rintro _ ⟨w, v, rfl, hw, hv⟩
    exact .mk hw hv
  · refine (hpred.afterWord .WHERE rfl).mono ?_
    rintro _ ⟨w, v, rfl, hw, hv⟩
    exact .mk hw hv

/-- The table of a join is read behind its word. -/
theorem lexes_joinTable (n : String) : Lexes ("JOIN " ++ renderName n) fun u =>
    ∃ j v, u = j :: v ∧ j.kind = .keyword .JOIN ∧ Table v (.table n []) :=
  (lexes_node (fun n => .table n []) n).afterWord .JOIN rfl

/-- A rendered join is read as the join. -/
theorem lexes_join {u : List Token} {t : Tree} (h : Join u t) (hg : Genuine u) :
    Lexes t.renderClause (Join · t) := by
  obtain ⟨ho, @⟨_, n, ht⟩, hp⟩ := h
  simp only [genuine_append] at hg
  have hjoin := lexes_joinTable n
  have hon := lexes_filter (.inl rfl) hp hg.2
  obtain ⟨hw, hp⟩ := hp
  have plain := (hjoin.trailed (.one hon)).mono (Q := (Join · _)) <| by
    rintro _ ⟨_, w, rfl, ⟨j, v, rfl, hj, hv⟩, hw⟩
    exact .mk (.plain hj) hv hw
  have left := ((lexes_keyword .LEFT).trailed (.cons hjoin (.one hon))).mono (Q := (Join · _)) <| by
    rintro _ ⟨_, _, rfl, ⟨l, rfl, hl, -⟩, _, w, rfl, ⟨j, v, rfl, hj, hv⟩, hw⟩
    exact .mk (.left hl hj) hv hw
  cases ho with
  | left | leftOuter => exact left
  | inner | plain => exact plain

/-- A rendered sort key is read as the key. -/
theorem lexes_sortKey {u : List Token} {t : Tree} (h : SortKey u t) (hg : Genuine u) :
    Lexes t.renderClause (SortKey · t) := by
  have key {k : Keyword} {suffix : String} (hk : k = .ASC ∨ k = .DESC) {u : List Token} {c : Tree}
      (h : Column u c) (hs : suffix = " " ++ " ".intercalate ([k].map Keyword.text)) :
      Lexes (c.renderItem ++ suffix) (SortKey · (.word k [c])) := by
    refine ((lexes_column h).words k [] hs).mono ?_
    rintro _ ⟨u, v, rfl, ⟨hu, -⟩, hv⟩
    obtain ⟨d, rfl, hd⟩ := List.map_eq_singleton_iff.1 hv
    exact .marked hu hd hk
  cases h with
  | unmarked h =>
    exact key (.inl rfl) h rfl
  | marked h hd hk =>
    rcases hk with rfl | rfl
    · exact key (.inl rfl) h rfl
    · exact key (.inr rfl) h rfl

/-- A rendered clause that is no `WHERE` is read as the clause. -/
theorem lexes_clause {u : List Token} {t : Tree} (h : Clause u t) (hg : Genuine u) :
    Lexes t.renderClause (Clause · t) := by
  cases h with
  | @order o b u keys ho hb hk =>
    simp only [genuine_cons] at hg
    have hkeys := lexes_commaList (G := SortKey) lexes_sortKey hk hg.2.2
    have htext : Tree.renderClause ⟨.keyword .ORDER, "order by", keys⟩ =
        "ORDER BY " ++ commas (keys.map Tree.renderClause) := by
      rw [← renderClauses_eq_map]
      rfl
    rw [htext]
    refine (hkeys.after .ORDER [.BY] rfl).mono ?_
    rintro _ ⟨u, v, rfl, hu, hv⟩
    obtain ⟨o, _, rfl, ho, hu⟩ := List.map_eq_cons_iff.1 hu
    obtain ⟨b, rfl, hb⟩ := List.map_eq_singleton_iff.1 hu
    exact .order ho hb hv
  | @count t n k c ht hk hn hc =>
    simp only [genuine_cons, hn] at hg
    have hcount {k : Keyword} {text : String} (hk : k = .LIMIT ∨ k = .OFFSET)
        (htext : text = k.text ++ " " ++ n.lexeme) :
        Lexes text (Clause · (.word k [.leaf .number n.lexeme])) := by
      rw [htext]
      refine ((lexes_keyword k).spaced (lexes_number hg.2.1)).mono ?_
      rintro _ ⟨_, _, rfl, ⟨t, rfl, ht, -⟩, ⟨n', rfl, hn', hl⟩⟩
      rw [← hl]
      exact .count ht hk hn' (hl ▸ hc)
    rcases hk with rfl | rfl
    · exact hcount (.inl rfl) rfl
    · exact hcount (.inr rfl) rfl
  | forUpdate hf hu =>
    refine (lexes_words .FOR [.UPDATE]).mono fun hu => ?_
    obtain ⟨f, _, rfl, hf, hu⟩ := List.map_eq_cons_iff.1 hu
    obtain ⟨u, rfl, hu'⟩ := List.map_eq_singleton_iff.1 hu
    exact .forUpdate hf hu'

/-- The implicit `WHERE` is read as one that was written. -/
theorem lexes_implicitWhere :
    Lexes Tree.implicitWhere.renderClause (Filter .WHERE · .implicitWhere) := by
  have hone : Lexes "1" (Is .number "1") := lexes_number ⟨'1', [], rfl, rfl, .inl rfl⟩
  refine (hone.afterWord .WHERE rfl).mono ?_
  rintro _ ⟨w, _, rfl, hw, ⟨n, rfl, hn, hl⟩⟩
  have hvalue : Value [n] (.leaf .number "1") := by
    rw [← hl, ← hn]
    exact .literal (by rw [hn]; rfl)
  exact .mk hw (.ofConjunction (.ofAtom (.literal hvalue rfl)))

/-- The `WHERE` of a query is the implicit one or spelled, and its other clauses are spelled. -/
theorem forall_of_clauses {u : List Token} {c : Parser.Clauses} (h : Clauses u c)
    (hg : Genuine u) :
    (c.filter = .implicitWhere ∨ ∃ v, Filter .WHERE v c.filter ∧ Genuine v) ∧
      ∀ t ∈ c.others, ∃ v, Clause v t ∧ Genuine v := by
  induction h with
  | none => exact ⟨.inl rfl, by simp⟩
  | filter h hf ht ih =>
    simp only [genuine_append] at hg
    exact ⟨.inr ⟨_, ht, hg.2⟩, (ih hg.1).2⟩
  | other h ht ih =>
    simp only [genuine_append] at hg
    refine ⟨(ih hg.1).1, fun t hmem => ?_⟩
    rcases List.mem_append.1 hmem with hmem | hmem
    · exact (ih hg.1).2 t hmem
    · obtain rfl := List.mem_singleton.1 hmem
      exact ⟨_, ht, hg.2⟩

/-- Clauses that are no `WHERE` go on with those before them. -/
theorem clauses_of_many {u v : List Token} {c : Parser.Clauses} {ts : List Tree}
    (h : Clauses u c) (hm : Many Clause v ts) :
    Clauses (u ++ v) { c with others := c.others ++ ts } := by
  induction hm with
  | none => simpa using h
  | more hs ht ih => simpa [Parser.Clauses.add] using ih.other ht

/-- The clauses of a query are written with its `WHERE` first, and the implicit one is written
out. -/
theorem trails_clauses {u : List Token} {c : Parser.Clauses} (h : Clauses u c) (hg : Genuine u) :
    Trails ((c.filter :: c.others).map Tree.renderClause) (Clauses · c) := by
  obtain ⟨hf, ho⟩ := forall_of_clauses h hg
  have hfilter : Lexes c.filter.renderClause (Filter .WHERE · c.filter) := by
    rcases hf with hf | ⟨v, hf, hv⟩
    · exact hf ▸ lexes_implicitWhere
    · exact lexes_filter (.inr rfl) hf hv
  have hothers : Trails (c.others.map Tree.renderClause) (Many Clause · c.others) :=
    Trails.many fun t ht => by
      obtain ⟨v, hv, hgv⟩ := ho t ht
      exact lexes_clause hv hgv
  refine (Trails.cons hfilter hothers).mono ?_
  rintro _ ⟨v, w, rfl, hv, hw⟩
  exact clauses_of_many (.filter .none rfl hv) hw

/-- What a `SELECT` lists is no word but the name of an aggregate. -/
theorem isWord_of_item {u : List Token} {t : Tree} {k : Keyword} (h : Item u t)
    (hk : Parser.isAggregate k = false) : t.isWord k = false := by
  cases h with
  | @countAll =>
    cases k <;> first | rfl | cases hk
  | @call _ k' _ _ ht hk' ha =>
    have hne : k' ≠ k := by
      rintro rfl
      rw [hk] at hk'
      cases hk'
    simp [Tree.isWord, Tree.word, hne]
  | column h => cases h <;> rfl
  | _ => rfl

/-- A selection is rendered as its items, its tables and its clauses, with blanks between them. -/
theorem renderStatement_select {items tables clauses : List Tree}
    (hi : ∀ t ∈ items, t.isWord .FROM = false) :
    (Tree.word .SELECT (items ++ .word .FROM tables :: clauses)).renderStatement =
      " ".intercalate ("SELECT" :: commas (items.map Tree.renderItem) ::
        (Tree.word .FROM tables).renderClause :: clauses.map Tree.renderClause) := by
  have hitems : ∀ t ∈ items, (!t.isWord .FROM) = true := by simpa using hi
  obtain ⟨htake, hdrop⟩ := takeWhile_append_stop hitems
    (by simp [Tree.isWord, Tree.word] : ∀ t ∈ (Tree.word .FROM tables :: clauses).head?, _)
  simp only [Tree.renderStatement, Tree.word]
  simp only [Tree.word] at htake hdrop
  rw [htake, hdrop, renderItems_eq_map, renderClauses_eq_map]
  rfl

/-- **A rendered selection** is read as the selection. -/
theorem lexes_select {u v w x : List Token} {items tables joins : List Tree}
    {clauses : Parser.Clauses} (hi : CommaList Item u items) (ht : CommaList Table v tables)
    (hj : Many Join w joins) (hc : Clauses x clauses) (hu : Genuine u) (hv : Genuine v)
    (hw : Genuine w) (hx : Genuine x) {t : Tree}
    (htree : t = .word .SELECT
      (items ++ .word .FROM tables :: joins ++ clauses.filter :: clauses.others)) :
    Lexes t.renderStatement (Statement · t) := by
  have hitems := lexes_commaList (G := Item) lexes_item hi hu
  have hjoins := trails_many (G := Join) lexes_join hj hw
  have hparts := Trails.cons hitems
    (.cons (lexes_from ht hv) (hjoins.append (trails_clauses hc hx)))
  have hfrom : ∀ t ∈ items, t.isWord .FROM = false := by
    intro t hmem
    obtain ⟨v, hv, -⟩ := (forall_of_commaList hi hu).2 t hmem
    exact isWord_of_item hv rfl
  rw [htree, List.append_assoc, List.cons_append, renderStatement_select hfrom, List.map_append]
  refine ((lexes_keyword .SELECT).trailed hparts).mono ?_
  rintro _ ⟨_, _, rfl, ⟨s, rfl, hs, -⟩, u, _, rfl, hu, _, _, rfl, ⟨f, v, rfl, hf, hv⟩, w, x, rfl,
    hw, hx⟩
  simpa using Statement.select hs hu hf hv hw hx

end Grammar
end MiniSql
