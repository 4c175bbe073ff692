/-
# One `WHERE`

The tree of a query, an update or a deletion has one `WHERE`: the last one of the text, or the
implicit one. The parser takes a `WHERE` for the implicit one when their trees are equal, wherever
it came from, so one that is not the last goes three ways:

| it stands in | and says | the text |
| --- | --- | --- |
| a `SELECT` | `1`, in parentheses or not | is read as if it were not there |
| a `SELECT` | anything else | is refused |
| any other statement | anything | is refused |

`parse_wheres` says so of every text.
-/

import MiniSql.Proofs.Grammar.Clauses
import MiniSql.Proofs.Grammar.RoundTrip.Queries

namespace MiniSql
namespace Grammar

open Spells

/-! ## Statements without clauses -/

section Inner

variable {u : List Token} {t : Tree} {ts : List Tree}

/-- Tokens open no clause if their kinds do not. -/
theorem inner_of_kinds {ks : List Kind} (h : u.map (·.kind) = ks)
    (hks : ∀ k ∈ ks, k.opensNoClause = true) : Inner u :=
  fun _ ht => hks _ (h ▸ List.mem_map_of_mem ht)

/-- A tuple opens no clause. -/
theorem inner_tuple (h : Tuple u t) : Inner u := by
  obtain ⟨ho, h, hc⟩ := h
  have hvalues := inner_commaList inner_value h
  exact inner_kind ho rfl (inner_append.2 ⟨hvalues, inner_kind hc rfl inner_nil⟩)

/-- The table of an `INSERT` opens no clause. -/
theorem inner_target (h : Target u t) : Inner u := by
  cases h with
  | all h => exact inner_name h inner_nil
  | columns h hc => exact inner_name h (inner_parens (inner_commaList inner_nameOf) hc)

/-- What an `INSERT` returns opens no clause. -/
theorem inner_returning (h : Returning u ts) : Inner u := by
  cases h with
  | none => exact inner_nil
  | some hr h => exact inner_kind hr rfl (inner_column h)

/-- An assignment opens no clause. -/
theorem inner_assignment (h : Assignment u t) : Inner u := by
  obtain ⟨ht, hs, hv⟩ := h
  exact inner_name ht (inner_kind hs rfl (inner_value hv))

/-- The type of a column opens no clause. -/
theorem inner_columnType (h : ColumnType u t) : Inner u := by
  have hsize {u : List Token} {t : Tree} (h : Size u t) : Inner u := by
    obtain ⟨h⟩ := h
    exact inner_kind h rfl inner_nil
  cases h with
  | @plain t k h hk =>
    refine inner_kind h ?_ inner_nil
    rcases hk with hk | rfl
    · cases k <;> first | rfl | cases hk
    · rfl
  | @sized t k u sizes h hk hs =>
    refine inner_kind h ?_ (inner_parens (inner_commaList hsize) hs)
    cases k <;> first | rfl | cases hk
  | withZone ht hw hm hz =>
    exact inner_kind ht rfl (inner_kind hw rfl (inner_kind hm rfl (inner_kind hz rfl inner_nil)))

/-- A modifier of a column opens no clause. -/
theorem inner_modifier (h : Modifier u t) : Inner u := by
  cases h with
  | @flag t k h hk => exact inner_kind h (by cases k <;> first | rfl | cases hk) inner_nil
  | notNull ht hn => exact inner_kind ht rfl (inner_kind hn rfl inner_nil)
  | default hd hv => exact inner_kind hd rfl (inner_value hv)
  | onUpdate ho ht hn => exact inner_kind ho rfl (inner_kind ht rfl (inner_value (.now hn)))
  | primaryKey hp hk => exact inner_kind hp rfl (inner_kind hk rfl inner_nil)

/-- The definition of a column opens no clause. -/
theorem inner_columnDefinition (h : ColumnDefinition u t) : Inner u := by
  obtain ⟨ht, hu, hm⟩ := h
  exact inner_append.2
    ⟨inner_name ht (inner_columnType hu), inner_many inner_modifier hm⟩

/-- The definition of a table opens no clause. -/
theorem inner_tableDefinition (h : TableDefinition u t) : Inner u := by
  obtain ⟨ht, hc⟩ := h
  exact inner_name ht (inner_parens (inner_commaList inner_columnDefinition) hc)

/-- Words open no clause if none of them does. -/
theorem inner_condition {words : List Keyword} {lexeme : String}
    (hwords : ∀ k ∈ words.map Kind.keyword, k.opensNoClause = true)
    (h : Condition words lexeme u ts) : Inner u := by
  cases h with
  | none => exact inner_nil
  | some h => exact inner_of_kinds h hwords

end Inner

/-! ## Statements by their pieces -/

/-- The kinds of statements that have a `WHERE`. -/
def Kind.isFiltered : Kind → Bool
  | .keyword .SELECT | .keyword .UPDATE | .keyword .DELETE => true
  | _ => false

/-- How a statement comes of the trees of its pieces. -/
inductive Composed (v : List Token) (cs : List Tree) : Tree → Prop
  | select {ts : List Tree} (hv : Head v ts) (hone : OneWhere cs) : Composed v cs (.selectOf ts cs)
  | filtered {t : Tree} (hk : t.kind = .keyword .UPDATE ∨ t.kind = .keyword .DELETE)
      (hcs : cs.length ≤ 1) (hw : wheres t.children = [(Parser.Clauses.ofParts cs).filter]) :
      Composed v cs t
  | bare {t : Tree} (hk : t.kind.isFiltered = false) (hcs : cs = []) : Composed v cs t

section Composed

variable {u v x tail tokens : List Token} {Cs : List (List Token)} {cs ts : List Tree}
  {t c : Tree}

/-- The `WHERE` of a statement without other clauses is one piece or none. -/
theorem where_cut (h : Where x c) : ∃ Cs cs, x = List.flatten Cs ∧ List.Forall₂ Part Cs cs ∧
    cs.length ≤ 1 ∧ wheres [c] = [(Parser.Clauses.ofParts cs).filter] := by
  cases h with
  | none => exact ⟨[], [], rfl, .nil, by simp, rfl⟩
  | some h =>
    have hword := isWord_of_filter h
    refine ⟨[x], [c], by simp, .cons (.inl h) .nil, by simp, ?_⟩
    simp [Parser.Clauses.ofParts, wheres, hword]

/-- Every statement is cut into pieces. -/
theorem statement_cut (h : Statement u t) : ∃ v Cs cs, u = v ++ List.flatten Cs ∧ Inner v ∧
    List.Forall₂ Part Cs cs ∧ Composed v cs t := by
  have hbare (hu : Inner u) (hk : t.kind.isFiltered = false) : ∃ v Cs cs,
      u = v ++ List.flatten Cs ∧ Inner v ∧ List.Forall₂ Part Cs cs ∧ Composed v cs t :=
    ⟨u, [], [], by simp, hu, .nil, .bare hk rfl⟩
  cases h with
  | select hs hi hf ht hj hc =>
    have hselect := statement_select_iff.1 ⟨.select hs hi hf ht hj hc, rfl⟩
    obtain ⟨v, ts, Cs, cs, htokens, hv, hCs, hone, htree⟩ := hselect
    exact ⟨v, Cs, cs, htokens, inner_head hv, hCs, htree ▸ .select hv hone⟩
  | update ht hu hs ha hw =>
    obtain ⟨Cs, cs, rfl, hCs, hlen, hone⟩ := where_cut hw
    refine ⟨_, Cs, cs, rfl, ?_, hCs, .filtered (.inl rfl) hlen ?_⟩
    · exact inner_append.2 ⟨inner_kind ht rfl (inner_nameOf hu),
        inner_kind hs rfl (inner_commaList inner_assignment ha)⟩
    · obtain ⟨hn⟩ := hu
      exact hone
  | delete hd hf hu hw =>
    obtain ⟨Cs, cs, rfl, hCs, hlen, hone⟩ := where_cut hw
    refine ⟨_, Cs, cs, rfl, ?_, hCs, .filtered (.inr rfl) hlen ?_⟩
    · exact inner_kind hd rfl (inner_kind hf rfl (inner_nameOf hu))
    · exact hone
  | insert hi ho ht hv hw hr =>
    refine hbare (inner_append.2 ⟨inner_append.2 ⟨?_, ?_⟩, inner_returning hr⟩) rfl
    · exact inner_kind hi rfl (inner_kind ho rfl (inner_target ht))
    · exact inner_kind hv rfl (inner_commaList inner_tuple hw)
  | truncate ht hs hu =>
    refine hbare (inner_append.2 ⟨inner_kind ht rfl ?_, inner_nameOf hu⟩) rfl
    rcases hs with hs | hs <;> exact inner_of_kinds hs (by decide)
  | drop hd ht hc hu =>
    refine hbare (inner_append.2 ⟨?_, inner_nameOf hu⟩) rfl
    exact inner_kind hd rfl (inner_kind ht rfl (inner_condition (by decide) hc))
  | create hc ht hi hu =>
    refine hbare (inner_append.2 ⟨?_, inner_tableDefinition hu⟩) rfl
    exact inner_kind hc rfl (inner_kind ht rfl (inner_condition (by decide) hi))

/-- A whole text is cut into pieces, and what may end it. -/
theorem whole_cut (h : Whole tokens t) : ∃ v Cs cs tail, tokens = v ++ (List.flatten Cs ++ tail) ∧
    Closing tail ∧ Inner v ∧ List.Forall₂ Part Cs cs ∧ Composed v cs t := by
  obtain ⟨u, tail, rfl, hu, htail⟩ := h
  obtain ⟨v, Cs, cs, rfl, hv, hCs, hcut⟩ := statement_cut hu
  exact ⟨v, Cs, cs, tail, List.append_assoc _ _ _, htail, hv, hCs, hcut⟩

/-- **A query is spelled** by its head and its clauses in any order, if all `WHERE`s but the last
are implicit. -/
theorem whole_selectOf (hv : Head v ts) (hCs : List.Forall₂ Part Cs cs) (hone : OneWhere cs)
    (htail : Closing tail) : Whole (v ++ (Cs.flatten ++ tail)) (.selectOf ts cs) := by
  obtain ⟨hstatement, -⟩ := statement_select_iff.2 ⟨v, ts, Cs, cs, rfl, hv, hCs, hone, rfl⟩
  exact ⟨_, tail, (List.append_assoc _ _ _).symm, hstatement, htail⟩

/-- A query has one `WHERE`. -/
theorem wheres_selectOf (hv : Head v ts) :
    wheres (Tree.selectOf ts cs).children = [(Parser.Clauses.ofParts cs).filter] := by
  have hhead : wheres ts = [] := by
    obtain ⟨hs, hi, hf, ht, hj⟩ := hv
    refine List.filter_eq_nil_iff.2 fun t hmem => ?_
    rw [Bool.not_eq_true]
    rcases List.mem_append.1 hmem with hmem | hmem
    · obtain ⟨_, hitem⟩ := hi.exists_spelled t hmem
      exact isWord_of_item hitem rfl
    · rcases List.mem_cons.1 hmem with rfl | hmem
      · rfl
      · obtain ⟨_, ⟨ho, hn, hp⟩⟩ := hj.exists_spelled t hmem
        rfl
  have hfilter := isWord_ofParts cs
  have hothers : wheres (Parser.Clauses.ofParts cs).others = [] := by
    simp [wheres, Parser.Clauses.ofParts]
  simp only [wheres] at hhead hothers
  simp only [Tree.selectOf, Tree.word, wheres, List.filter_append, List.filter_cons, hhead,
    hfilter, hothers, if_true, List.nil_append]

end Composed

/-! ## The last `WHERE` of a text -/

/-- No token is a `WHERE`. -/
def NoWhere (u : List Token) : Prop := ∀ t ∈ u, t.kind ≠ .keyword .WHERE

/-- The clause is the last `WHERE` of the tokens, or there is none and it is the implicit one. -/
inductive LastWhere : List Token → Tree → Prop
  | implicit {u : List Token} (h : NoWhere u) : LastWhere u .implicitWhere
  | written {before u after : List Token} {w : Token} {p : Tree} (hw : w.kind = .keyword .WHERE)
      (hp : Predicate .disjunction u p) (hends : Parser.Ends Kind.opensNoClause after)
      (hafter : NoWhere after) : LastWhere (before ++ w :: (u ++ after)) (.word .WHERE [p])

section NoWhere

variable {u v tail : List Token} {Cs : List (List Token)} {cs : List Tree} {t c : Tree}

/-- No tokens have no `WHERE`. -/
@[simp] theorem noWhere_nil : NoWhere [] := by simp [NoWhere]

/-- Tokens have no `WHERE` if the first is none and the others have none. -/
@[simp] theorem noWhere_cons {t : Token} :
    NoWhere (t :: u) ↔ t.kind ≠ .keyword .WHERE ∧ NoWhere u := List.forall_mem_cons

/-- Two parts in a row have no `WHERE` if neither part has one. -/
@[simp] theorem noWhere_append : NoWhere (u ++ v) ↔ NoWhere u ∧ NoWhere v :=
  List.forall_mem_append

/-- Tokens that open no clause have no `WHERE`. -/
theorem Inner.noWhere (h : Inner u) : NoWhere u := by
  intro t ht hk
  have hopens := h t ht
  rw [hk] at hopens
  cases hopens

/-- The end of a statement has no `WHERE`. -/
theorem Closing.noWhere (h : Closing tail) : NoWhere tail := by
  intro t ht hk
  have hmem : Kind.keyword .WHERE ∈ tail.map (·.kind) := hk ▸ List.mem_map_of_mem ht
  rcases h with h | h <;> rw [h] at hmem <;> simp at hmem

/-- The end of a statement ends what stands before it. -/
theorem Closing.ends (h : Closing tail) : Parser.Ends Kind.opensNoClause tail := by
  rcases h with h | h
  · rw [List.map_eq_nil_iff.1 h]
    simp [Parser.Ends]
  · obtain ⟨s, rfl, hs⟩ := List.map_eq_singleton_iff.1 h
    exact Parser.ends_of_kind hs rfl

/-- Two parts in a row end what stands before them if each part does. -/
theorem Parser.Ends.append {after : Kind → Bool} (hu : Parser.Ends after u)
    (hv : Parser.Ends after v) : Parser.Ends after (u ++ v) := by
  cases u with
  | nil => exact hv
  | cons t u => exact Parser.ends_cons.2 (Parser.ends_cons.1 hu)

/-- A part is a `WHERE` if and only if one of its tokens is. -/
theorem noWhere_of_part {C : List Token} (h : Part C c) :
    NoWhere C ↔ c.isWord .WHERE = false := by
  obtain ⟨w, v, rfl, hkind, hpiece⟩ := piece_of_part h
  obtain ⟨-, -, hv⟩ := piece_cons.1 hpiece
  rw [noWhere_cons, hkind, and_iff_left hv.noWhere]
  simp [Tree.isWord]

/-- Pieces have no `WHERE` where none of their trees is one. -/
theorem noWhere_flatten (h : List.Forall₂ Part Cs cs) :
    NoWhere Cs.flatten ↔ wheres cs = [] := by
  induction h with
  | nil => simp [wheres]
  | @cons C c Cs cs hC _ ih =>
    rw [List.flatten_cons, noWhere_append, noWhere_of_part hC, ih]
    cases hword : c.isWord .WHERE <;> simp [wheres, hword]

/-- The last `WHERE` is the same with other tokens in front. -/
theorem LastWhere.behind (h : LastWhere u c) (hv : NoWhere v) : LastWhere (v ++ u) c := by
  cases h with
  | implicit h => exact .implicit (noWhere_append.2 ⟨hv, h⟩)
  | written hw hp hends hafter =>
    rw [← List.append_assoc]
    exact .written hw hp hends hafter

/-- The last `WHERE` is the same with other tokens behind, if these end its predicate. -/
theorem LastWhere.more (h : LastWhere u c) (hv : NoWhere v)
    (hends : Parser.Ends Kind.opensNoClause v) : LastWhere (u ++ v) c := by
  cases h with
  | implicit h => exact .implicit (noWhere_append.2 ⟨h, hv⟩)
  | written hw hp hends' hafter =>
    simpa using LastWhere.written hw hp (hends'.append hends) (noWhere_append.2 ⟨hafter, hv⟩)

/-- The clauses of a query are read for the last `WHERE` among them. -/
theorem lastWhere_of_many (h : Many Part u cs) :
    LastWhere u (Parser.Clauses.ofParts cs).filter := by
  induction h with
  | none => exact .implicit noWhere_nil
  | @more u v cs t hs ht ih =>
    rcases ht with ht | ht
    · have hlast : (Parser.Clauses.ofParts (cs ++ [t])).filter = t := by
        simp [Parser.Clauses.ofParts, wheres, isWord_of_filter ht]
      obtain ⟨hw, hp⟩ := ht
      rw [hlast]
      simpa using LastWhere.written hw hp (Closing.ends (.inl rfl)) noWhere_nil
    · have hword := isWord_of_clause ht
      have hsame : (Parser.Clauses.ofParts (cs ++ [t])).filter =
          (Parser.Clauses.ofParts cs).filter := by
        simp [Parser.Clauses.ofParts, wheres, hword]
      obtain ⟨w, x, rfl, -, hpiece⟩ := piece_of_part (.inr ht)
      rw [hsame]
      exact ih.more ((noWhere_of_part (.inr ht)).2 hword)
        (Parser.ends_cons.2 (piece_cons.1 hpiece).1)

end NoWhere

/-! ## A `WHERE` before the last -/

section Before

variable {u v before rest tail : List Token} {Cs Cs₁ Cs₂ : List (List Token)}
  {cs cs₁ cs₂ : List Tree} {c : Tree}

/-- A word that opens a clause stands behind all tokens that open none. -/
theorem split_inner (hv : Inner v) (hends : Parser.Ends Kind.opensNoClause rest) (hrest : rest ≠ [])
    (h : v ++ u = before ++ rest) : ∃ x, before = v ++ x ∧ u = x ++ rest := by
  obtain ⟨r, rest, rfl⟩ := List.exists_cons_of_ne_nil hrest
  rcases List.append_eq_append_iff.1 h with ⟨x, hbefore, hu⟩ | ⟨x, rfl, hx⟩
  · exact ⟨x, hbefore, hu⟩
  · cases x with
    | nil => exact ⟨[], by simp, hx.symm⟩
    | cons s x =>
      obtain ⟨rfl, -⟩ := List.cons.inj hx
      have hopens := hv r (by simp)
      rw [Parser.ends_cons.1 hends] at hopens
      cases hopens

/-- What may stand behind a statement is never cut in two. -/
theorem Closing.eq_nil_of_append (h : Closing tail) (hrest : rest ≠ [])
    (htail : tail = before ++ rest) : before = [] := by
  rcases h with h | h
  · rw [List.map_eq_nil_iff.1 h] at htail
    exact (List.append_eq_nil_iff.1 htail.symm).1
  · obtain ⟨s, rfl, -⟩ := List.map_eq_singleton_iff.1 h
    rcases List.append_eq_singleton_iff.1 htail.symm with ⟨hnil, -⟩ | ⟨-, hnil⟩
    · exact hnil
    · exact absurd hnil hrest

/-- Pieces behind one another are cut in two at any word that opens one. -/
theorem split_flatten (hCs : ∀ C ∈ Cs, Piece C) (htail : Closing tail)
    (hends : Parser.Ends Kind.opensNoClause rest) (hrest : rest ≠ [])
    (h : Cs.flatten ++ tail = before ++ rest) : ∃ Cs₁ Cs₂, Cs = Cs₁ ++ Cs₂ ∧
      before = Cs₁.flatten ∧ rest = Cs₂.flatten ++ tail := by
  induction Cs generalizing before with
  | nil =>
    obtain rfl := htail.eq_nil_of_append hrest h
    exact ⟨[], [], rfl, rfl, h.symm⟩
  | cons C Cs ih =>
    obtain ⟨hC, hCs'⟩ := List.forall_mem_cons.1 hCs
    cases before with
    | nil => exact ⟨[], C :: Cs, rfl, rfl, h.symm⟩
    | cons s before =>
      obtain ⟨hw, hs, hi⟩ := hC
      rw [List.flatten_cons, List.append_assoc] at h
      obtain ⟨rfl, htokens⟩ := List.cons.inj h
      obtain ⟨x, rfl, hx⟩ := split_inner hi hends hrest htokens
      obtain ⟨Cs₁, Cs₂, rfl, rfl, rfl⟩ := ih hCs' hx
      exact ⟨_ :: Cs₁, Cs₂, rfl, rfl, rfl⟩

/-- A text that has been cut into pieces is cut in two at any word that opens one. -/
theorem split_cut (hv : Inner v) (hCs : ∀ C ∈ Cs, Piece C) (htail : Closing tail)
    (hends : Parser.Ends Kind.opensNoClause rest) (hrest : rest ≠ [])
    (h : v ++ (Cs.flatten ++ tail) = before ++ rest) : ∃ Cs₁ Cs₂, Cs = Cs₁ ++ Cs₂ ∧
      before = v ++ Cs₁.flatten ∧ rest = Cs₂.flatten ++ tail := by
  obtain ⟨x, rfl, hx⟩ := split_inner hv hends hrest h
  obtain ⟨Cs₁, Cs₂, rfl, rfl, hrest⟩ := split_flatten hCs htail hends hrest hx
  exact ⟨Cs₁, Cs₂, rfl, rfl, hrest⟩

/-- A cut of the pieces is a cut of their trees. -/
theorem parts_append (h : List.Forall₂ Part (Cs₁ ++ Cs₂) cs) : ∃ cs₁ cs₂, cs = cs₁ ++ cs₂ ∧
    List.Forall₂ Part Cs₁ cs₁ ∧ List.Forall₂ Part Cs₂ cs₂ := by
  induction Cs₁ generalizing cs with
  | nil => exact ⟨[], cs, rfl, .nil, h⟩
  | cons C Cs₁ ih =>
    cases h with
    | cons hC h =>
      obtain ⟨cs₁, cs₂, rfl, h₁, h₂⟩ := ih h
      exact ⟨_ :: cs₁, cs₂, rfl, .cons hC h₁, h₂⟩

/-- A `WHERE` before another one says what the implicit one says. -/
theorem oneWhere_insert (hc : c.isWord .WHERE = true) (hcs : wheres cs₂ ≠ []) :
    OneWhere (cs₁ ++ c :: cs₂) ↔ c = .implicitWhere ∧ OneWhere (cs₁ ++ cs₂) := by
  have hinsert : wheres (cs₁ ++ c :: cs₂) = wheres cs₁ ++ c :: wheres cs₂ := by
    simp [wheres, hc]
  have hwithout : wheres (cs₁ ++ cs₂) = wheres cs₁ ++ wheres cs₂ := List.filter_append _ _
  rw [OneWhere, OneWhere, hinsert, hwithout, List.dropLast_append_of_ne_nil (by simp),
    List.dropLast_append_of_ne_nil hcs, List.dropLast_cons_of_ne_nil hcs, List.forall_mem_append,
    List.forall_mem_cons, List.forall_mem_append]
  exact and_left_comm

/-- A `WHERE` before another one leaves nothing in the tree. -/
theorem selectOf_insert {ts : List Tree} (hc : c.isWord .WHERE = true) (hcs : wheres cs₂ ≠ []) :
    Tree.selectOf ts (cs₁ ++ c :: cs₂) = .selectOf ts (cs₁ ++ cs₂) := by
  have hsame : Parser.Clauses.ofParts (cs₁ ++ c :: cs₂) = .ofParts (cs₁ ++ cs₂) := by
    obtain ⟨c', cs', hcs'⟩ := List.exists_cons_of_ne_nil hcs
    simp only [wheres] at hcs'
    simp [Parser.Clauses.ofParts, wheres, hc, hcs']
  rw [Tree.selectOf, hsame]
  rfl

end Before

section Law

variable {before after u rest tokens : List Token} {w : Token} {t c : Tree}

/-- **A statement that takes a `WHERE` has one, the last one of the text.** -/
theorem whole_one (h : Whole tokens t) (hk : t.kind.isFiltered = true) :
    ∃ c, wheres t.children = [c] ∧ LastWhere tokens c := by
  obtain ⟨v, Cs, cs, tail, rfl, htail, hv, hCs, hcomposed⟩ := whole_cut h
  have hone : wheres t.children = [(Parser.Clauses.ofParts cs).filter] := by
    cases hcomposed with
    | select hv hone => exact wheres_selectOf hv
    | filtered hkind hcs hw => exact hw
    | bare hkind hcs => rw [hk] at hkind; cases hkind
  have hlast := lastWhere_of_many (many_iff_flatten.2 ⟨Cs, rfl, hCs⟩)
  exact ⟨_, hone, (hlast.more htail.noWhere htail.ends).behind hv.noWhere⟩

/-- **Any other statement has none.** -/
theorem whole_bare (h : Whole tokens t) (hk : t.kind.isFiltered = false) : NoWhere tokens := by
  obtain ⟨v, Cs, cs, tail, rfl, htail, hv, hCs, hcomposed⟩ := whole_cut h
  have hnil : wheres cs = [] := by
    cases hcomposed with
    | select hv hone => cases hk
    | filtered hkind hcs hw => rcases hkind with hkind | hkind <;> rw [hkind] at hk <;> cases hk
    | bare hkind hcs => rw [hcs]; rfl
  exact noWhere_append.2
    ⟨hv.noWhere, noWhere_append.2 ⟨(noWhere_flatten hCs).2 hnil, htail.noWhere⟩⟩

/-- A `WHERE` of a text is one of its pieces. -/
theorem whole_cut_at (hw : w.kind = .keyword .WHERE) (h : Whole (before ++ w :: after) t) :
    ∃ v u tail Cs₁ Cs₂ cs₁ cs₂ c, before = v ++ List.flatten Cs₁ ∧
      after = u ++ (List.flatten Cs₂ ++ tail) ∧ Closing tail ∧ Inner v ∧
        Filter .WHERE (w :: u) c ∧ List.Forall₂ Part Cs₁ cs₁ ∧ List.Forall₂ Part Cs₂ cs₂ ∧
          Composed v (cs₁ ++ c :: cs₂) t := by
  obtain ⟨v, Cs, cs, tail, htokens, htail, hv, hCs, hcomposed⟩ := whole_cut h
  obtain ⟨Cs₁, Ds, rfl, rfl, hrest⟩ := split_cut hv (pieces_of_parts hCs) htail
    (Parser.ends_of_kind hw rfl) (List.cons_ne_nil w after) htokens.symm
  obtain ⟨cs₁, ds, rfl, h₁, hDs⟩ := parts_append hCs
  cases hDs with
  | nil =>
    rw [List.flatten_nil, List.nil_append] at hrest
    exact absurd hw (htail.noWhere w (hrest ▸ List.mem_cons_self))
  | @cons C c Cs₂ cs₂ hC h₂ =>
    obtain ⟨w', u, rfl, hkind, -⟩ := piece_of_part hC
    rw [List.flatten_cons, List.append_assoc] at hrest
    obtain ⟨rfl, rfl⟩ := List.cons.inj hrest
    have hfilter : Filter .WHERE (w :: u) c := by
      refine hC.resolve_right fun hclause => ?_
      have hword := isWord_of_clause hclause
      simp [Tree.isWord, ← hkind, hw] at hword
    exact ⟨v, u, tail, Cs₁, Cs₂, cs₁, cs₂, c, rfl, rfl, htail, hv, hfilter, h₁, h₂, hcomposed⟩

/-- A text is read without a `WHERE` that another one follows, if it says what the implicit one
says. -/
theorem whole_without (hw : w.kind = .keyword .WHERE) (hafter : ¬ NoWhere after)
    (h : Whole (before ++ w :: after) t) : t.kind = .keyword .SELECT ∧ ∃ u rest,
      after = u ++ rest ∧ Predicate .disjunction u (.leaf .number "1") ∧
        Parser.Ends Kind.opensNoClause rest ∧ Whole (before ++ rest) t := by
  obtain ⟨v, u, tail, Cs₁, Cs₂, cs₁, cs₂, c, rfl, rfl, htail, -, hfilter, h₁, h₂, hcomposed⟩ :=
    whole_cut_at hw h
  have hword := isWord_of_filter hfilter
  obtain ⟨-, hp⟩ := hfilter
  -- the predicate and the end of the text have no `WHERE`, so the other one is a later piece
  have hwheres : wheres cs₂ ≠ [] := by
    rw [ne_eq, ← noWhere_flatten h₂]
    exact fun hnone => hafter (noWhere_append.2
      ⟨(inner_predicate hp).noWhere, noWhere_append.2 ⟨hnone, htail.noWhere⟩⟩)
  cases hcomposed with
  | select hv hone =>
    obtain ⟨hsame, hothers⟩ := (oneWhere_insert hword hwheres).1 hone
    obtain rfl := List.singleton_inj.1 (congrArg Tree.children hsame)
    have hends := (ends_flatten (pieces_of_parts h₂)).append htail.ends
    refine ⟨rfl, u, _, rfl, hp, hends, ?_⟩
    rw [selectOf_insert hword hwheres, List.append_assoc, ← List.append_assoc Cs₁.flatten,
      ← List.flatten_append]
    exact whole_selectOf hv (List.rel_append h₁ h₂) hothers htail
  | filtered hkind hcs _ =>
    have hlength := List.length_pos_of_ne_nil fun hnil : cs₂ = [] => hwheres (by rw [hnil]; rfl)
    simp at hcs
    omega
  | bare _ hcs => simp at hcs

/-- A `WHERE` that says what the implicit one says may be written before another one. -/
theorem whole_with (hw : w.kind = .keyword .WHERE) (hafter : ¬ NoWhere (u ++ rest))
    (hu : Predicate .disjunction u (.leaf .number "1"))
    (hends : Parser.Ends Kind.opensNoClause rest) (hk : t.kind = .keyword .SELECT)
    (h : Whole (before ++ rest) t) : Whole (before ++ w :: (u ++ rest)) t := by
  have hone : ¬ NoWhere rest := fun hrest =>
    hafter (noWhere_append.2 ⟨(inner_predicate hu).noWhere, hrest⟩)
  have hnil : rest ≠ [] := by
    rintro rfl
    exact hone noWhere_nil
  obtain ⟨v, Cs, cs, tail, htokens, htail, hv, hCs, hcomposed⟩ := whole_cut h
  obtain ⟨Cs₁, Cs₂, rfl, rfl, rfl⟩ := split_cut hv (pieces_of_parts hCs) htail hends hnil
    htokens.symm
  obtain ⟨cs₁, cs₂, rfl, h₁, h₂⟩ := parts_append hCs
  have hwheres : wheres cs₂ ≠ [] := by
    rw [ne_eq, ← noWhere_flatten h₂]
    exact fun hnone => hone (noWhere_append.2 ⟨hnone, htail.noWhere⟩)
  cases hcomposed with
  | select hv hothers =>
    have hspelled : List.Forall₂ Part (Cs₁ ++ (w :: u) :: Cs₂) (cs₁ ++ .implicitWhere :: cs₂) :=
      List.rel_append h₁ (.cons (.inl (.mk hw hu)) h₂)
    have hwhole := whole_selectOf hv hspelled
      ((oneWhere_insert rfl hwheres).2 ⟨rfl, hothers⟩) htail
    rw [selectOf_insert rfl hwheres] at hwhole
    simpa using hwhole
  | filtered hkind _ _ => rcases hkind with hkind | hkind <;> rw [hkind] at hk <;> cases hk
  | bare hkind _ => rw [hk] at hkind; cases hkind

end Law

/-- How the `WHERE`s of a text are read. -/
structure WhereLaw (text : String) : Prop where
  /-- A query, an update and a deletion have one, the last one of the text, or the implicit one. -/
  one : ∀ t, parse text = .ok t → t.kind.isFiltered = true →
    ∃ c, wheres t.children = [c] ∧ LastWhere (tokenize text) c
  /-- No other statement has one. -/
  bare : ∀ t, parse text = .ok t → t.kind.isFiltered = false → NoWhere (tokenize text)
  /-- Where one follows another, the text is refused, unless it is a query and the former says what
  the implicit one says; then it is read as if the former were not there. -/
  several : ∀ before w after, tokenize text = before ++ w :: after → w.kind = .keyword .WHERE →
    (∃ w' ∈ after, w'.kind = .keyword .WHERE) →
      ∀ t, parse text = .ok t ↔ t.kind = .keyword .SELECT ∧ ∃ u rest,
        after = u ++ rest ∧ Predicate .disjunction u (.leaf .number "1") ∧
          Parser.Ends Kind.opensNoClause rest ∧ Whole (before ++ rest) t

/-- **The `WHERE`s of every text**, written once, twice or not at all. -/
theorem parse_wheres (text : String) : WhereLaw text where
  one t ht hk := whole_one (parse_eq_ok_iff_whole.1 ht) hk
  bare t ht hk := whole_bare (parse_eq_ok_iff_whole.1 ht) hk
  several before w after htokens hw hmore t := by
    obtain ⟨w', hmem, hw'⟩ := hmore
    have hafter : ¬ NoWhere after := fun hnone => hnone w' hmem hw'
    rw [parse_eq_ok_iff_whole, htokens]
    constructor
    · exact whole_without hw hafter
    · rintro ⟨hk, u, rest, rfl, hu, hends, h⟩
      exact whole_with hw hafter hu hends hk h

/-- A query with two `WHERE`s. -/
def twoWheres : String := "SELECT * FROM t WHERE 1 WHERE a = 2"

/-- The second is read in the place of the first. -/
theorem parse_wheres_dropped : ∃ t, parse twoWheres = .ok t ∧
    wheres t.children = [.word .WHERE [⟨.equal, "=", [.leaf .ident "a", .leaf .number "2"]⟩]] ∧
      ∀ c ∈ wheres t.children, LastWhere (tokenize twoWheres) c := by
  have hparse : parse twoWheres = .ok (.word .SELECT
      [.leaf .asterisk "*", .word .FROM [.table "t" []],
        .word .WHERE [⟨.equal, "=", [.leaf .ident "a", .leaf .number "2"]⟩]]) := by
    decide +kernel
  obtain ⟨c, hc, hlast⟩ := (parse_wheres twoWheres).one _ hparse rfl
  exact ⟨_, hparse, rfl, by simpa [hc] using hlast⟩

/-- A `WHERE` that says anything else is not dropped. -/
example : parse "SELECT * FROM t WHERE a = 1 WHERE a = 2" =
    .error ⟨⟨.oneWhere, none⟩, 39⟩ := by decide +kernel

end Grammar
end MiniSql
