/-
# What is written is read back

The statements other than queries, and then all of them: the tree of any text is written as a text
that has this tree (`parse_render`).
-/

import MiniSql.Proofs.Grammar.RoundTrip.Queries

namespace MiniSql
namespace Grammar

open Spells

/-! ## Other statements -/

/-- The columns of an `INSERT` are written in brackets behind its table. -/
theorem renderTarget_columns (n : String) (c : Tree) (cs : List Tree) :
    (Tree.table n (c :: cs)).renderTarget = renderName n ++ " " ++
      ("(" ++ commas ((c :: cs).map fun c => renderName c.lexeme) ++ ")") := by
  show renderName n ++ (" " ++ "(") ++ _ ++ ")" = _
  simp only [String.append_assoc]
  rfl

/-- A column of an `INSERT` is written as a name. -/
theorem lexes_targetColumn {u : List Token} {t : Tree} (h : Name (.leaf .ident) u t) :
    Lexes (renderName t.lexeme) (Name (.leaf .ident) · t) := by
  obtain ⟨h⟩ := h
  exact lexes_node _ _

/-- The table of an `INSERT` is written with its columns or without. -/
theorem lexes_target {u : List Token} {t : Tree} (h : Target u t) (hg : Genuine u) :
    Lexes t.renderTarget (Target · t) := by
  cases h with
  | @all t n h =>
    refine (lexes_name n).mono fun hu => ?_
    obtain ⟨t, rfl, -, hn⟩ := name_of_is hu
    exact .all hn
  | @columns t n u columns h hc =>
    obtain ⟨ho, hc, hclose⟩ := hc
    simp only [List.cons_append, genuine_cons, genuine_append] at hg
    have hcolumns := lexes_commaList (fun h _ => lexes_targetColumn h) hc hg.2.2.1
    obtain ⟨c, cs, rfl⟩ := List.exists_cons_of_ne_nil (forall_of_commaList hc hg.2.2.1).1
    rw [renderTarget_columns]
    refine ((lexes_name n).spaced hcolumns.enclosed).mono ?_
    rintro _ ⟨_, _, rfl, hu, hv⟩
    obtain ⟨t, rfl, -, hn⟩ := name_of_is hu
    exact .columns hn (parens_of_enclosed hv)

/-- A tuple is written as its values in brackets. -/
theorem lexes_tuple {u : List Token} {t : Tree} (h : Tuple u t) (hg : Genuine u) :
    Lexes ("(" ++ commas (Tree.renderItems t.children) ++ ")") (Tuple · t) := by
  cases h with
  | @mk o c u values ho hv hc =>
    simp only [List.cons_append, genuine_cons, genuine_append, ho] at hg
    have hlex : o.lexeme = "(" := hg.1
    have hvalues := lexes_commaList (G := Value) lexes_value hv hg.2.1
    rw [renderItems_eq_map, hlex]
    refine hvalues.enclosed.mono ?_
    rintro _ ⟨_, _, rfl, ⟨o, rfl, ho, hl⟩, u, _, rfl, hu, ⟨c, rfl, hc, -⟩⟩
    rw [← hl]
    simpa using Tuple.mk ho hu hc

/-- An assignment is written with its sign between name and value. -/
theorem lexes_assignment {u : List Token} {t : Tree} (h : Assignment u t) (hg : Genuine u) :
    Lexes t.renderAssignment (Assignment · t) := by
  cases h with
  | @mk t s n u v ht hs hv =>
    simp only [genuine_cons, hs] at hg
    have hlex : s.lexeme = "=" := hg.2.1
    have hsign : Kind.equal.Carries "=" := rfl
    have htext : Tree.renderAssignment ⟨.equal, "=", [.leaf .ident n, v]⟩ =
        renderName n ++ " " ++ "=" ++ " " ++ v.renderItem := by
      show renderName n ++ (" " ++ "=" ++ " ") ++ v.renderItem = _
      simp only [String.append_assoc]
    rw [hlex, htext]
    refine ((lexes_name n).compared (lexes_value hv hg.2.2) rfl hsign).mono ?_
    rintro _ ⟨_, _, rfl, hu, _, v, rfl, ⟨s, rfl, hs, hl⟩, hv⟩
    obtain ⟨t, rfl, -, hn⟩ := name_of_is hu
    rw [← hl]
    exact .mk hn hs hv

/-- A statement without a `WHERE` is written with the implicit one. -/
theorem lexes_where {u : List Token} {t : Tree} (h : Where u t) (hg : Genuine u) :
    Lexes t.renderClause (Where · t) := by
  cases h with
  | none => exact lexes_implicitWhere.mono .some
  | some h => exact (lexes_filter (.inr rfl) h hg).mono .some

/-- What an `INSERT` returns is written behind its tuples, or nothing is. -/
theorem trails_returning {u : List Token} {ts : List Tree} (h : Returning u ts) (hg : Genuine u) :
    Trails (ts.map Tree.renderClause) (Returning · ts) := by
  cases h with
  | none => exact Trails.nil.mono fun hu => hu ▸ .none
  | some hr hc =>
    refine Trails.one (((lexes_column hc).afterWord .RETURNING rfl).mono ?_)
    rintro _ ⟨r, v, rfl, hr, ⟨hv, -⟩⟩
    exact .some hr hv

/-- **An `INSERT`** is written as its parts in turn. -/
theorem lexes_insert {u w x : List Token} {target : Tree} {tuples returning : List Tree}
    (ht : Target u target) (hw : CommaList Tuple w tuples) (hx : Returning x returning)
    (hgu : Genuine u) (hgw : Genuine w) (hgx : Genuine x) {t : Tree}
    (htree : t = .word .INSERT (.word .INTO [target] :: .word .VALUES tuples :: returning)) :
    Lexes t.renderStatement (Statement · t) := by
  have hinto : Lexes (Tree.word .INTO [target]).renderClause _ :=
    (lexes_target ht hgu).afterWord .INTO rfl
  have hvalues : Lexes (Tree.word .VALUES tuples).renderClause _ :=
    (lexes_commaList (G := Tuple) lexes_tuple hw hgw).afterWord .VALUES rfl
  have htext : t.renderStatement = " ".intercalate ("INSERT" ::
      (Tree.word .INTO [target]).renderClause :: (Tree.word .VALUES tuples).renderClause ::
      returning.map Tree.renderClause) := by
    rw [htree, ← renderClauses_eq_map]
    rfl
  rw [htext, htree]
  refine ((lexes_keyword .INSERT).trailed
    (.cons hinto (.cons hvalues (trails_returning hx hgx)))).mono ?_
  rintro _ ⟨_, _, rfl, ⟨i, rfl, hi, -⟩, _, _, rfl, ⟨o, u, rfl, ho, hu⟩, _, x, rfl,
    ⟨v, w, rfl, hv, hw⟩, hx⟩
  simpa using Statement.insert hi ho hu hv hw hx

/-- **An `UPDATE`** is written as its parts, with its filter if that is not implicit. -/
theorem lexes_update {u v w : List Token} {table clause : Tree} {assignments : List Tree}
    (hu : Table u table) (ha : CommaList Assignment v assignments) (hw : Where w clause)
    (hgv : Genuine v) (hgw : Genuine w) {t : Tree}
    (htree : t = .word .UPDATE [table, .word .SET assignments, clause]) :
    Lexes t.renderStatement (Statement · t) := by
  have hset : Lexes (Tree.word .SET assignments).renderClause _ :=
    (lexes_commaList (G := Assignment) lexes_assignment ha hgv).afterWord .SET rfl
  rw [htree]
  refine ((lexes_keyword .UPDATE).trailed
    (.cons (lexes_table hu) (.cons hset (.one (lexes_where hw hgw))))).mono ?_
  rintro _ ⟨_, _, rfl, ⟨t, rfl, ht, -⟩, u, _, rfl, hu, _, w, rfl, ⟨s, v, rfl, hs, hv⟩, hw⟩
  simpa using Statement.update ht hu hs hv hw

/-- **A `DELETE`** is written as its parts, with its filter if that is not implicit. -/
theorem lexes_delete {u w : List Token} {table clause : Tree} (hu : Table u table)
    (hw : Where w clause) (hgw : Genuine w) {t : Tree}
    (htree : t = .word .DELETE [.word .FROM [table], clause]) :
    Lexes t.renderStatement (Statement · t) := by
  have hfrom : Lexes (Tree.word .FROM [table]).renderClause _ :=
    (lexes_table hu).afterWord .FROM rfl
  rw [htree]
  refine ((lexes_keyword .DELETE).trailed (.cons hfrom (.one (lexes_where hw hgw)))).mono ?_
  rintro _ ⟨_, _, rfl, ⟨d, rfl, hd, -⟩, _, w, rfl, ⟨f, u, rfl, hf, hu⟩, hw⟩
  simpa using Statement.delete hd hf hu hw

/-- **A `TRUNCATE`** is written with its table. -/
theorem lexes_truncate {u : List Token} {table : Tree} (hu : Table u table) {t : Tree}
    (htree : t = .word .TRUNCATE [table]) : Lexes t.renderStatement (Statement · t) := by
  rw [htree]
  refine ((lexes_keyword .TRUNCATE).trailed (.one (lexes_table hu))).mono ?_
  rintro _ ⟨_, u, rfl, ⟨t, rfl, ht, -⟩, hu⟩
  exact .truncate ht (.inl rfl) hu

/-- A condition on whether a table is there is written as its words. -/
theorem trails_condition {words : List Keyword} {lexeme : String} {u : List Token} {ts : List Tree}
    (h : Condition words lexeme u ts) {k : Keyword} {ks : List Keyword} (hk : words = k :: ks)
    (hs : Text.upper lexeme = " ".intercalate ((k :: ks).map Keyword.text)) :
    Trails (ts.map Tree.renderClause) (Condition words lexeme · ts) := by
  cases h with
  | none => exact Trails.nil.mono fun hu => hu ▸ .none
  | some h =>
    refine Trails.one ?_
    show Lexes (Text.upper lexeme) _
    rw [hs]
    exact (lexes_words k ks).mono fun hu => .some (hk ▸ hu)

/-- **A `DROP`** is written with its table, with its condition or without. -/
theorem lexes_drop {u v : List Token} {condition : List Tree} {table : Tree}
    (hc : Condition [.IF, .EXISTS] "if exists" u condition) (hu : Table v table) {t : Tree}
    (htree : t = .word .DROP (condition ++ [table])) : Lexes t.renderStatement (Statement · t) := by
  have hcondition := trails_condition hc rfl rfl
  have htext : t.renderStatement =
      " ".intercalate ("DROP TABLE" :: (condition ++ [table]).map Tree.renderClause) := by
    rw [htree, ← renderClauses_eq_map]
    rfl
  rw [htext, htree, List.map_append]
  refine (Lexes.trailed (lexes_words .DROP [.TABLE])
    (hcondition.append (.one (lexes_table hu)))).mono ?_
  rintro _ ⟨y, _, rfl, hy, u, v, rfl, hu, hv⟩
  obtain ⟨d, _, rfl, hd, hy⟩ := List.map_eq_cons_iff.1 hy
  obtain ⟨t, rfl, ht⟩ := List.map_eq_singleton_iff.1 hy
  simpa using Statement.drop hd ht hu hv

/-! ## Tables to create -/

/-- A size is written as its number. -/
theorem lexes_size {u : List Token} {t : Tree} (h : Size u t) (hg : Genuine u) :
    Lexes t.lexeme (Size · t) := by
  cases h with
  | @mk n h =>
    simp only [genuine_cons, h] at hg
    refine (lexes_number hg.1).mono ?_
    rintro _ ⟨n', rfl, hn, hl⟩
    rw [← hl]
    exact .mk hn

/-- Sizes are numbers, and there is at least one. -/
theorem kind_of_sizes {u : List Token} {sizes : List Tree} (h : CommaList Size u sizes) :
    sizes ≠ [] ∧ ∀ s ∈ sizes, s.kind = .number := by
  induction h with
  | one h =>
    obtain ⟨h⟩ := h
    simp [Tree.leaf]
  | more h hc hs ih =>
    obtain ⟨h⟩ := h
    exact ⟨by simp, List.forall_mem_cons.2 ⟨rfl, ih.2⟩⟩

/-- A type or a flag is written as its word. -/
theorem renderModifier_plain {k : Keyword}
    (hk : k.isFlag = true ∨ Parser.isSizedType k = true ∨ k = .TIMESTAMP) :
    (Tree.word k []).renderModifier = k.text := by
  rcases hk with hk | hk | rfl
  · cases k <;> first | rfl | cases hk
  · cases k <;> first | rfl | cases hk
  · rfl

/-- A type with sizes is written with these in brackets. -/
theorem renderModifier_sized {k : Keyword} (hk : Parser.isSizedType k = true) {sizes : List Tree}
    (hne : sizes ≠ []) (hs : ∀ s ∈ sizes, s.kind = .number) :
    (Tree.word k sizes).renderModifier = k.text ++ "(" ++ commas (sizes.map (·.lexeme)) ++ ")" := by
  have hfilter : sizes.filter (fun c => c.kind == .number) = sizes :=
    List.filter_eq_self.2 fun s h => by simp [hs s h]
  have hwith : (Tree.word k sizes).part? .WITH = none :=
    List.find?_eq_none.2 fun s h => by simp [Tree.isWord, hs s h]
  have hempty : (sizes.map (·.lexeme)).isEmpty = false := by simpa using hne
  unfold Tree.renderModifier
  split <;> rename_i hkind
  · cases hkind
    cases hk
  · cases hkind
    cases hk
  · cases hkind
    cases hk
  · cases hkind
    cases hk
  · cases hkind
    simp only [hwith]
    simp only [Tree.word, hfilter, hempty]
    rfl
  · exact absurd rfl (hkind k)

/-- The type of a column is read back in each of its forms. -/
theorem lexes_columnType {u : List Token} {t : Tree} (h : ColumnType u t) (hg : Genuine u) :
    Lexes t.renderModifier (ColumnType · t) := by
  cases h with
  | @plain t k h hk =>
    rw [renderModifier_plain (.inr hk)]
    refine (lexes_keyword k).mono ?_
    rintro _ ⟨t, rfl, ht, -⟩
    exact .plain ht hk
  | @sized t k u sizes h hk hs =>
    obtain ⟨ho, hs, hc⟩ := hs
    simp only [List.cons_append, genuine_cons, genuine_append] at hg
    have hsizes := lexes_commaList (G := Size) lexes_size hs hg.2.2.1
    obtain ⟨hne, hkind⟩ := kind_of_sizes hs
    rw [renderModifier_sized hk hne hkind]
    refine (hsizes.call k).mono ?_
    rintro _ ⟨_, _, rfl, ⟨t, rfl, ht, -⟩, hu⟩
    exact .sized ht hk (parens_of_enclosed hu)
  | withZone ht hw hm hz =>
    refine (lexes_words .TIMESTAMP [.WITH, .TIME, .ZONE]).mono fun hu => ?_
    obtain ⟨t, _, rfl, ht, hu⟩ := List.map_eq_cons_iff.1 hu
    obtain ⟨w, _, rfl, hw, hu⟩ := List.map_eq_cons_iff.1 hu
    obtain ⟨m, _, rfl, hm, hu⟩ := List.map_eq_cons_iff.1 hu
    obtain ⟨z, rfl, hz⟩ := List.map_eq_singleton_iff.1 hu
    exact .withZone ht hw hm hz

/-- A modifier of a column is read back in each of its forms. -/
theorem lexes_modifier {u : List Token} {t : Tree} (h : Modifier u t) (hg : Genuine u) :
    Lexes t.renderModifier (Modifier · t) := by
  cases h with
  | @flag t k h hk =>
    rw [renderModifier_plain (.inl hk)]
    refine (lexes_keyword k).mono ?_
    rintro _ ⟨t, rfl, ht, -⟩
    exact .flag ht hk
  | notNull ht hn =>
    refine (lexes_words .NOT [.NULL]).mono fun hu => ?_
    obtain ⟨t, _, rfl, ht, hu⟩ := List.map_eq_cons_iff.1 hu
    obtain ⟨n, rfl, hn'⟩ := List.map_eq_singleton_iff.1 hu
    exact .notNull ht hn'
  | @default d u v hd hv =>
    have htext : (Tree.word .DEFAULT [v]).renderModifier = "DEFAULT " ++ v.renderItem := by
      simp [Tree.renderModifier, Tree.word, Tree.renderItems]
    rw [htext]
    refine ((lexes_value hv (genuine_cons.1 hg).2).afterWord .DEFAULT rfl).mono ?_
    rintro _ ⟨d, v, rfl, hd, hv⟩
    exact .default hd hv
  | @onUpdate o t u now ho ht hn =>
    have hnow : now = .word .CURRENT_TIMESTAMP [] := by cases hn <;> rfl
    rw [hnow]
    refine (lexes_words .ON [.UPDATE, .CURRENT_TIMESTAMP]).mono fun hu => ?_
    obtain ⟨o, _, rfl, ho, hu⟩ := List.map_eq_cons_iff.1 hu
    obtain ⟨t, _, rfl, ht, hu⟩ := List.map_eq_cons_iff.1 hu
    obtain ⟨n, rfl, hn⟩ := List.map_eq_singleton_iff.1 hu
    exact .onUpdate ho ht (.word hn)
  | primaryKey hp hk =>
    refine (lexes_words .PRIMARY [.KEY]).mono fun hu => ?_
    obtain ⟨p, _, rfl, hp, hu⟩ := List.map_eq_cons_iff.1 hu
    obtain ⟨k, rfl, hk'⟩ := List.map_eq_singleton_iff.1 hu
    exact .primaryKey hp hk'

/-- A column is written as its name, its type and its modifiers. -/
theorem lexes_columnDefinition {u : List Token} {t : Tree} (h : ColumnDefinition u t)
    (hg : Genuine u) : Lexes t.renderColumn (ColumnDefinition · t) := by
  cases h with
  | @mk t n u v type modifiers ht hu hm =>
    simp only [List.cons_append, genuine_cons, genuine_append] at hg
    have hmodifiers := trails_many (G := Modifier) lexes_modifier hm hg.2.2
    refine ((lexes_name n).trailed (.cons (lexes_columnType hu hg.2.1) hmodifiers)).mono ?_
    rintro _ ⟨_, _, rfl, hw, u, v, rfl, hu, hv⟩
    obtain ⟨t, rfl, -, hn⟩ := name_of_is hw
    simpa using ColumnDefinition.mk hn hu hv

/-- A table is written as its columns in brackets. -/
theorem lexes_tableDefinition {u : List Token} {t : Tree} (h : TableDefinition u t)
    (hg : Genuine u) : Lexes t.renderDefinition (TableDefinition · t) := by
  cases h with
  | @mk t n u columns ht hc =>
    obtain ⟨ho, hc, hclose⟩ := hc
    simp only [List.cons_append, genuine_cons, genuine_append] at hg
    have hcolumns := lexes_commaList (G := ColumnDefinition) lexes_columnDefinition hc hg.2.2.1
    have htext : (Tree.table n columns).renderDefinition =
        renderName n ++ " " ++ ("(" ++ commas (columns.map Tree.renderColumn) ++ ")") := by
      show renderName n ++ (" " ++ "(") ++ _ ++ ")" = _
      simp only [String.append_assoc]
      rfl
    rw [htext]
    refine ((lexes_name n).spaced hcolumns.enclosed).mono ?_
    rintro _ ⟨_, _, rfl, hu, hv⟩
    obtain ⟨t, rfl, -, hn⟩ := name_of_is hu
    exact .mk hn (parens_of_enclosed hv)

/-- **A `CREATE`** is written as its condition and its table. -/
theorem lexes_create {u v : List Token} {condition : List Tree} {table : Tree}
    (hc : Condition [.IF, .NOT, .EXISTS] "if not exists" u condition)
    (hu : TableDefinition v table) (hg : Genuine v) {t : Tree}
    (htree : t = .word .CREATE (condition ++ [table])) :
    Lexes t.renderStatement (Statement · t) := by
  have hcondition := trails_condition hc rfl rfl
  have hsame : condition.map Tree.renderDefinition = condition.map Tree.renderClause := by
    cases hc <;> rfl
  have htext : t.renderStatement = " ".intercalate
      ("CREATE TABLE" :: (condition.map Tree.renderClause ++ [table.renderDefinition])) := by
    rw [htree, ← hsame]
    show " ".intercalate ("CREATE TABLE" :: (condition ++ [table]).map Tree.renderDefinition) = _
    rw [List.map_append]
    rfl
  rw [htext, htree]
  refine (Lexes.trailed (lexes_words .CREATE [.TABLE])
    (hcondition.append (.one (lexes_tableDefinition hu hg)))).mono ?_
  rintro _ ⟨y, _, rfl, hy, u, v, rfl, hu, hv⟩
  obtain ⟨c, _, rfl, hc, hy⟩ := List.map_eq_cons_iff.1 hy
  obtain ⟨t, rfl, ht⟩ := List.map_eq_singleton_iff.1 hy
  simpa using Statement.create hc ht hu hv

/-! ## Whole statements -/

/-- **A statement is written as a text whose tokens spell it.** -/
theorem lexes_statement {u : List Token} {t : Tree} (h : Statement u t) (hg : Genuine u) :
    Lexes t.renderStatement (Statement · t) := by
  cases h with
  | select hs hi hf ht hj hc =>
    simp only [List.cons_append, genuine_cons, genuine_append] at hg
    exact lexes_select hi ht hj hc hg.2.1.1.1 hg.2.1.1.2.2 hg.2.1.2 hg.2.2 rfl
  | insert hi ho ht hv hw hx =>
    simp only [List.cons_append, genuine_cons, genuine_append] at hg
    exact lexes_insert ht hw hx hg.2.2.1.1 hg.2.2.1.2.2 hg.2.2.2 rfl
  | update ht hu hs ha hw =>
    simp only [List.cons_append, genuine_cons, genuine_append] at hg
    exact lexes_update hu ha hw hg.2.1.2.2 hg.2.2 rfl
  | delete hd hf hu hw =>
    simp only [List.cons_append, genuine_cons, genuine_append] at hg
    exact lexes_delete hu hw hg.2.2.2 rfl
  | truncate ht hs hu => exact lexes_truncate hu rfl
  | drop hd ht hc hu => exact lexes_drop hc hu rfl
  | create hc ht hi hu =>
    simp only [List.cons_append, genuine_cons, genuine_append] at hg
    exact lexes_create hi hu hg.2.2.2 rfl

/-- The tokens of a text carry what their kinds say. -/
theorem genuine_tokenize (text : String) : Genuine (tokenize text) :=
  fun _ ht => carries_of_mem_scan ht

/-- **Round trip.** A tree that was read off a text is written as a text that reads as the same
tree: the same kinds, lexemes and parts at every node. -/
theorem parse_render {text : String} {t : Tree} (h : parse text = .ok t) :
    parse (Tree.render [t]) = .ok t := by
  obtain ⟨u, v, htokens, hu, -⟩ := spells_of_parse h
  have hg : Genuine (u ++ v) := htokens ▸ genuine_tokenize text
  have hrender : Tree.render [t] = t.renderStatement := by simp [Tree.render]
  have hspelled := (lexes_statement hu (genuine_append.1 hg).1).alone
  rw [hrender]
  exact parse_eq_ok_iff.2 ⟨_, [], (List.append_nil _).symm, hspelled, .inl rfl⟩

/-- A quoted name, a negative number, a doubled quote and a nested `OR` come back. -/
theorem parse_render_nested :
    ∃ t, parse "delete from \"Key\" where (x = -1 or y <> 'it''s') and TRUE" = .ok t ∧
      parse (Tree.render [t]) = .ok t := by
  have h : parse "delete from \"Key\" where (x = -1 or y <> 'it''s') and TRUE" = .ok
      (.word .DELETE [.word .FROM [.table "Key" []], .word .WHERE [.word .AND [
        .word .OR [
          ⟨.equal, "=", [.leaf .ident "x", .leaf .number "-1"]⟩,
          ⟨.notEqual, "<>", [.leaf .ident "y", .leaf .string "it's"]⟩],
        .word .TRUE []]]]) := by decide +kernel
  exact ⟨_, h, parse_render h⟩

end Grammar
end MiniSql
