/-
# Planning `ORDER BY`

A query is planned with its `ORDER BY` as it is without, but that its rows are sorted before they are
skipped and cut (`Plan.ofText_sorted`). The parts of the tree behind it are read alike, as the keys
are added to the draft and nothing else looks at them (`Planning.Draft.addAll_unsorted`):

| | without | with |
| --- | --- | --- |
| planned | `project (page source)` | `project (page (order source keys))` |
| refused | why | for the same reason |
-/

import MiniSql.Proofs.Plan.Select

namespace MiniSql

open Grammar (Tree Keyword)

/-- The tree without its `ORDER BY`. -/
def Grammar.Tree.unsorted (t : Tree) : Tree :=
  { t with children := t.children.filter fun c => !c.isWord .ORDER }

/-- The query without the rows that are skipped and those that are cut off. -/
def Query.paged (offset limit : Option Nat) (q : Query) : Query :=
  let skipped :=
    match offset with
    | some n => .offset q n
    | none => q
  match limit with
  | some n => .limit skipped n
  | none => skipped

namespace Planning

/-- The keys that a part of a `SELECT` sorts by. -/
def keysOf (t : Tree) : List (ColumnRef × Direction) :=
  if t.isWord .ORDER then t.children.filterMap fun key => (sortKey key).toOption else []

/-- Sort keys with a column are planned. -/
theorem mapM_sortKey {keys : List Tree} (h : ∀ key ∈ keys, key.children ≠ []) :
    keys.mapM sortKey = .ok (keys.filterMap fun key => (sortKey key).toOption) := by
  induction keys with
  | nil => rfl
  | cons key keys ih =>
    obtain ⟨hkey, hkeys⟩ := List.forall_mem_cons.1 h
    obtain ⟨column, others, hcolumn⟩ := List.exists_cons_of_ne_nil hkey
    have hok : ∃ k, sortKey key = .ok k := by
      unfold sortKey
      rw [hcolumn]
      exact ⟨_, rfl⟩
    obtain ⟨k, hk⟩ := hok
    rw [List.mapM_cons, hk, ih hkeys, List.filterMap_cons_some (by rw [hk]; rfl)]
    rfl

namespace Draft

variable {arguments : List Value} {d d' : Draft} {t : Tree} {ts : List Tree}

/-- The draft with other keys to sort by. -/
def withKeys (d : Draft) (keys : List (ColumnRef × Direction)) : Draft := { d with keys := keys }

/-! ## Keys -/

/-- Tables may be added before or after the keys. -/
theorem addTables_withKeys (d : Draft) (keys : List (ColumnRef × Direction))
    (names : List String) :
    names.foldl addTable (d.withKeys keys) = (names.foldl addTable d).withKeys keys := by
  induction names generalizing d with
  | nil => rfl
  | cons name names ih =>
    have hone : (d.withKeys keys).addTable name = (d.addTable name).withKeys keys := by
      unfold addTable withKeys
      cases d.source <;> rfl
    rw [List.foldl_cons, List.foldl_cons, hone, ih]

/-- No other part looks at the keys. -/
theorem add_withKeys (keys : List (ColumnRef × Direction)) (ht : t.isWord .ORDER = false) :
    (d.withKeys keys).add arguments t = (·.withKeys keys) <$> d.add arguments t := by
  unfold add
  split
  · cases t.part? .TABLE <;> rfl
  · rfl
  · exact congrArg Except.ok (addTables_withKeys d keys _)
  · have hsource : (d.withKeys keys).source = d.source := rfl
    rw [hsource]
    cases d.source with
    | none => rfl
    | some left =>
      simp only [map_bind, map_pure]
      rfl
  · simp only [map_bind, map_pure]
    rfl
  · rename_i hkind
    rw [Tree.isWord, hkind] at ht
    cases ht
  · simp only [map_bind, map_pure]
    rfl
  · simp only [map_bind, map_pure]
    rfl
  · rfl
  · rename_i k _ _ _ _ _ _ _ _
    cases aggregate? k with
    | none => rfl
    | some function =>
      simp only [map_bind, map_pure]
      rfl
  · rfl

/-- A draft has the keys it has. -/
theorem withKeys_self (d : Draft) : d.withKeys d.keys = d := rfl

/-- No other part has keys. -/
theorem keys_add (ht : t.isWord .ORDER = false) (h : d.add arguments t = .ok d') :
    d'.keys = d.keys := by
  have hsame : d.add arguments t = (·.withKeys d.keys) <$> d.add arguments t :=
    add_withKeys d.keys ht
  rw [h] at hsame
  have hkept : d' = d'.withKeys d.keys := Except.ok.inj hsame
  rw [hkept]
  rfl

/-- An `ORDER BY` adds its keys. -/
theorem add_order (ht : t.isWord .ORDER = true) (hkeys : ∀ key ∈ t.children, key.children ≠ []) :
    d.add arguments t = .ok (d.withKeys (d.keys ++ keysOf t)) := by
  have hkind : t.kind = .keyword .ORDER := by simpa [Tree.isWord] using ht
  unfold add
  simp only [hkind, mapM_sortKey hkeys, keysOf, ht, if_true]
  rfl

/-- Clauses other than `ORDER BY` may be added before or after the keys. -/
theorem addAll_withKeys (keys : List (ColumnRef × Direction))
    (hts : ∀ t ∈ ts, t.isWord .ORDER = false) :
    ts.foldlM (Draft.add arguments) (d.withKeys keys) =
      (·.withKeys keys) <$> ts.foldlM (Draft.add arguments) d := by
  induction ts generalizing d with
  | nil => rfl
  | cons t ts ih =>
    obtain ⟨ht, hts⟩ := List.forall_mem_cons.1 hts
    rw [List.foldlM_cons, List.foldlM_cons, add_withKeys keys ht]
    cases d.add arguments t with
    | error e => rfl
    | ok d' => exact ih hts

/-- Clauses other than `ORDER BY` leave the keys. -/
theorem keys_addAll (hts : ∀ t ∈ ts, t.isWord .ORDER = false)
    (h : ts.foldlM (Draft.add arguments) d = .ok d') : d'.keys = d.keys := by
  have hsame : ts.foldlM (Draft.add arguments) d =
      (·.withKeys d.keys) <$> ts.foldlM (Draft.add arguments) d := addAll_withKeys d.keys hts
  rw [h] at hsame
  have hkept : d' = d'.withKeys d.keys := Except.ok.inj hsame
  rw [hkept]
  rfl

/-- **The keys are added to what is read without them.** -/
theorem addAll_unsorted
    (hts : ∀ t ∈ ts, t.isWord .ORDER = true → ∀ key ∈ t.children, key.children ≠ []) :
    ts.foldlM (Draft.add arguments) d = (·.withKeys (d.keys ++ ts.flatMap keysOf)) <$>
      (ts.filter fun t => !t.isWord .ORDER).foldlM (Draft.add arguments) d := by
  induction ts generalizing d with
  | nil =>
    show Except.ok d = Except.ok (d.withKeys (d.keys ++ []))
    rw [List.append_nil, withKeys_self]
  | cons t ts ih =>
    obtain ⟨ht, hts⟩ := List.forall_mem_cons.1 hts
    rw [List.foldlM_cons]
    cases hword : t.isWord .ORDER with
    | false =>
      have hnone : keysOf t = [] := by simp [keysOf, hword]
      rw [List.filter_cons_of_pos (by simp [hword]), List.foldlM_cons, List.flatMap_cons, hnone,
        List.nil_append]
      cases hadd : d.add arguments t with
      | error e => rfl
      | ok d' =>
        have hkept := keys_add hword hadd
        show ts.foldlM (Draft.add arguments) d' = _
        rw [ih hts, hkept]
        rfl
    | true =>
      have hplain : ∀ t ∈ ts.filter fun t => !t.isWord .ORDER, t.isWord .ORDER = false := by
        simp
      rw [List.filter_cons_of_neg (by simp [hword]), add_order hword (ht hword)]
      show ts.foldlM (Draft.add arguments) (d.withKeys (d.keys ++ keysOf t)) = _
      rw [ih hts, addAll_withKeys _ hplain, List.flatMap_cons, Functor.map_map, ← List.append_assoc]
      rfl

/-! ## Pages -/

/-- Tables leave the offset and the limit. -/
theorem addTables_pages (d : Draft) (names : List String) :
    (names.foldl addTable d).offset = d.offset ∧ (names.foldl addTable d).limit = d.limit := by
  induction names generalizing d with
  | nil => exact ⟨rfl, rfl⟩
  | cons name names ih =>
    have hone : (d.addTable name).offset = d.offset ∧ (d.addTable name).limit = d.limit := by
      unfold addTable
      cases d.source <;> exact ⟨rfl, rfl⟩
    rw [List.foldl_cons, ← hone.1, ← hone.2]
    exact ih (d.addTable name)

/-- Rows are skipped for an `OFFSET` and cut off for a `LIMIT`. -/
theorem pages_add (h : d.add arguments t = .ok d') :
    (t.isWord .OFFSET = false → d'.offset = d.offset) ∧
      (t.isWord .LIMIT = false → d'.limit = d.limit) := by
  have other (hsame : d'.offset = d.offset ∧ d'.limit = d.limit) :
      (t.isWord .OFFSET = false → d'.offset = d.offset) ∧
        (t.isWord .LIMIT = false → d'.limit = d.limit) := ⟨fun _ => hsame.1, fun _ => hsame.2⟩
  unfold add at h
  split at h <;> rename_i hkind
  · split at h <;> cases h <;> exact other ⟨rfl, rfl⟩
  · cases h
    exact other ⟨rfl, rfl⟩
  · cases h
    exact other (addTables_pages d _)
  · split at h
    · cases h
    · obtain ⟨_, -, h⟩ := Except.bind_eq_ok.1 h
      cases h
      exact other ⟨rfl, rfl⟩
  · obtain ⟨_, -, h⟩ := Except.bind_eq_ok.1 h
    cases h
    exact other ⟨rfl, rfl⟩
  · obtain ⟨_, -, h⟩ := Except.bind_eq_ok.1 h
    cases h
    exact other ⟨rfl, rfl⟩
  · obtain ⟨_, -, h⟩ := Except.bind_eq_ok.1 h
    obtain ⟨_, -, h⟩ := Except.bind_eq_ok.1 h
    cases h
    refine ⟨fun _ => rfl, fun hlimit => ?_⟩
    rw [Tree.isWord, hkind] at hlimit
    cases hlimit
  · obtain ⟨_, -, h⟩ := Except.bind_eq_ok.1 h
    obtain ⟨_, -, h⟩ := Except.bind_eq_ok.1 h
    cases h
    refine ⟨fun hoffset => ?_, fun _ => rfl⟩
    rw [Tree.isWord, hkind] at hoffset
    cases hoffset
  · cases h
    exact other ⟨rfl, rfl⟩
  · split at h
    · obtain ⟨_, -, h⟩ := Except.bind_eq_ok.1 h
      cases h
      exact other ⟨rfl, rfl⟩
    · cases h
  · cases h

/-- Clauses leave the offset and the limit unless they set them. -/
theorem pages_addAll (h : ts.foldlM (Draft.add arguments) d = .ok d') :
    ((∀ t ∈ ts, t.isWord .OFFSET = false) → d'.offset = d.offset) ∧
      ((∀ t ∈ ts, t.isWord .LIMIT = false) → d'.limit = d.limit) := by
  induction ts generalizing d with
  | nil =>
    cases h
    exact ⟨fun _ => rfl, fun _ => rfl⟩
  | cons t ts ih =>
    rw [List.foldlM_cons] at h
    obtain ⟨mid, hmid, h⟩ := Except.bind_eq_ok.1 h
    obtain ⟨hoffset, hlimit⟩ := pages_add hmid
    refine ⟨fun hnone => ?_, fun hnone => ?_⟩
    · obtain ⟨ht, hts⟩ := List.forall_mem_cons.1 hnone
      exact ((ih h).1 hts).trans (hoffset ht)
    · obtain ⟨ht, hts⟩ := List.forall_mem_cons.1 hnone
      exact ((ih h).2 hts).trans (hlimit ht)

/-! ## Steps -/

/-- The rows are sorted before they are skipped and cut off. Whether there is a query does not
depend on the keys. -/
theorem query_withKeys (hitems : d.items ≠ []) :
    (∃ e, ∀ keys, (d.withKeys keys).query = .error e) ∨
      ∃ source : Query, (d.Tabular → source.Tabular) ∧ source.tables = d.tables ∧
        ∀ keys, (d.withKeys keys).query = .ok (.projection
          (.paged d.offset d.limit (if keys.isEmpty then source else .order source keys))
          d.items) := by
  have hempty : d.items.isEmpty = false := by simpa using hitems
  cases hsource : d.source with
  | none =>
    refine .inl ⟨.internal .selectWithoutFrom, fun keys => ?_⟩
    simp only [query, withKeys, hsource]
  | some source =>
    have htables : d.tables = source.tables := by simp [Draft.tables, hsource]
    cases hcalls : d.calls with
    | nil =>
      refine .inr ?_
      cases hpredicate : d.predicate with
      | none =>
        refine ⟨source, fun hd => hd source hsource, htables.symm, fun keys => ?_⟩
        simp only [query, withKeys, hsource, hcalls, hpredicate]
        rfl
      | some p =>
        refine ⟨.filter source p, fun hd => .filter (hd source hsource) p, htables.symm,
          fun keys => ?_⟩
        simp only [query, withKeys, hsource, hcalls, hpredicate]
        rfl
    | cons call calls =>
      refine .inl ⟨.schema .mixedAggregates, fun keys => ?_⟩
      simp only [query, withKeys, hsource, hcalls, hempty]
      rfl

end Draft

/-- How a query is planned with its `ORDER BY` and without: refused for the same reason, or as
showing the items of the rows of the same source, once sorted by the keys. -/
def PlannedSorted (t : Tree) (plain sorting : Except Error Plan) : Prop :=
  (∃ e, plain = .error e ∧ sorting = .error e) ∨
    ∃ (source : Query) (offset limit : Option Nat), source.Tabular ∧
      source.tables = t.children.flatMap tablesOf ∧
      ((∀ c ∈ t.children, c.isWord .OFFSET = false) → offset = none) ∧
      ((∀ c ∈ t.children, c.isWord .LIMIT = false) → limit = none) ∧
      plain = .ok (.query (.projection (source.paged offset limit)
        (t.children.flatMap itemsOf))) ∧
      sorting = .ok (.query (.projection
        ((Query.order source (t.children.flatMap keysOf)).paged offset limit)
        (t.children.flatMap itemsOf)))

/-- An `ORDER BY` with columns changes nothing else of the plan. -/
theorem select_sorted {arguments : List Value} {t : Tree}
    (hitems : t.children.flatMap itemsOf ≠ []) (hkeys : t.children.flatMap keysOf ≠ [])
    (hcolumns : ∀ c ∈ t.children, c.isWord .ORDER = true → ∀ key ∈ c.children, key.children ≠ []) :
    PlannedSorted t (select arguments t.unsorted) (select arguments t) := by
  have hread : t.children.foldlM (Draft.add arguments) {} =
      (·.withKeys (t.children.flatMap keysOf)) <$>
        t.unsorted.children.foldlM (Draft.add arguments) {} := Draft.addAll_unsorted hcolumns
  unfold select
  rw [hread]
  cases hplain : t.unsorted.children.foldlM (Draft.add arguments) {} with
  | error e => exact .inl ⟨e, rfl, rfl⟩
  | ok d =>
    rw [hplain] at hread
    have hnone : d.keys = [] := Draft.keys_addAll (by simp [Tree.unsorted]) hplain
    have hgrows := Draft.grows_addAll hread
    have hlisted : d.items = t.children.flatMap itemsOf := hgrows.items
    have hnamed : d.tables = t.children.flatMap tablesOf := hgrows.tables
    have htabular : d.Tabular := hgrows.tabular fun _ h => nomatch h
    obtain ⟨hoffset, hlimit⟩ := Draft.pages_addAll hread
    rw [← hlisted] at hitems
    rcases Draft.query_withKeys hitems with ⟨e, hrefused⟩ | ⟨source, hsource, htables, hquery⟩
    · have hrefusedPlain : d.query = .error e := hrefused d.keys
      refine .inl ⟨e, ?_, ?_⟩
      · show (do return Plan.query (← d.query)) = _
        rw [hrefusedPlain]
        rfl
      · show (do return Plan.query (← (d.withKeys (t.children.flatMap keysOf)).query)) = _
        rw [hrefused]
        rfl
    · have hqueryPlain : d.query = _ := hquery d.keys
      refine .inr ⟨source, d.offset, d.limit, hsource htabular, htables.trans hnamed, hoffset,
        hlimit, ?_, ?_⟩
      · show (do return Plan.query (← d.query)) = _
        rw [hqueryPlain, hnone, hlisted]
        rfl
      · show (do return Plan.query (← (d.withKeys (t.children.flatMap keysOf)).query)) = _
        rw [hquery, if_neg (by simpa using hkeys), hlisted]
        rfl

end Planning

/-! ## Texts -/

namespace Grammar

open Spells

/-- An `ORDER BY` has columns behind it and no placeholder. -/
theorem order_of_select {u : List Token} {t : Tree} (h : Statement u t)
    (hkind : t.kind = .keyword .SELECT) : ∀ c ∈ t.children, c.isWord .ORDER = true →
      (∀ key ∈ c.children, key.children ≠ []) ∧ Arguments.placeholders c = [] := by
  have other {c : Tree} {k : Kind} (hc : c.kind = k) (hk : (k == .keyword .ORDER) = false) :
      c.isWord .ORDER = true → (∀ key ∈ c.children, key.children ≠ []) ∧
        Arguments.placeholders c = [] := by
    intro hword
    rw [Tree.isWord, hc, hk] at hword
    cases hword
  cases h with
  | select hs hi hf ht hj hc =>
    intro c hmem
    simp only [Tree.word, List.append_assoc, List.cons_append, List.mem_append, List.mem_cons] at hmem
    rcases hmem with hmem | rfl | hmem | hmem | hmem
    · obtain ⟨_, hitem⟩ := hi.exists_spelled c hmem
      cases hitem with
      | star => exact other rfl rfl
      | starOf => exact other rfl rfl
      | countAll => exact other rfl rfl
      | @call t k u a ht hk ha =>
        refine other rfl ?_
        cases k <;> first | rfl | cases hk
      | column h => cases h <;> exact other rfl rfl
    · exact other rfl rfl
    · obtain ⟨_, hjoin⟩ := hj.exists_spelled c hmem
      cases hjoin
      exact other rfl rfl
    · obtain ⟨⟨_, hwhere⟩, -⟩ := hc.exists_spelled
      rw [← hmem] at hwhere
      cases hwhere with
      | none => exact other rfl rfl
      | some hfilter =>
        cases hfilter
        exact other rfl rfl
    · obtain ⟨-, hothers⟩ := hc.exists_spelled
      obtain ⟨_, hclause⟩ := hothers c hmem
      have hplaceholders := Arguments.placeholders_clause hclause
      cases hclause with
      | order ho hb hk =>
        refine fun _ => ⟨fun key hkey => ?_, hplaceholders⟩
        obtain ⟨_, hspelled⟩ := hk.exists_spelled key hkey
        cases hspelled <;> exact List.cons_ne_nil _ _
      | count _ hk => rcases hk with rfl | rfl <;> exact other rfl rfl
      | forUpdate => exact other rfl rfl
  | _ => cases hkind

end Grammar

/-- What a test leaves out adds nothing to the whole. -/
theorem flatMap_filter {α β : Type} {p : α → Bool} {f : α → List β} {l : List α}
    (h : ∀ a ∈ l, p a = false → f a = []) : (l.filter p).flatMap f = l.flatMap f := by
  induction l with
  | nil => rfl
  | cons a l ih =>
    obtain ⟨ha, hl⟩ := List.forall_mem_cons.1 h
    cases hp : p a with
    | true => rw [List.filter_cons_of_pos hp, List.flatMap_cons, List.flatMap_cons, ih hl]
    | false =>
      rw [List.filter_cons_of_neg (by simp [hp]), List.flatMap_cons, ha hp, ih hl, List.nil_append]

/-- **A text with `ORDER BY` is planned as its tree without,** with its rows sorted in between. -/
theorem Plan.ofText_sorted {sql : String} {arguments : List Value} {strict : Bool} {t : Tree}
    (hparse : Grammar.parse sql = .ok t) (hkind : t.kind = .keyword .SELECT)
    (hitems : t.children.flatMap Planning.itemsOf ≠ [])
    (hkeys : t.children.flatMap Planning.keysOf ≠ []) :
    Planning.PlannedSorted t (ofTrees [t.unsorted] arguments strict)
      (ofText sql arguments strict) := by
  obtain ⟨u, _, _, hspelled, -⟩ := Grammar.spells_of_parse hparse
  have horder := Grammar.order_of_select hspelled hkind
  have hplaceholders : Arguments.placeholders t.unsorted = Arguments.placeholders t := by
    obtain ⟨kind, lexeme, children⟩ := t
    rw [Tree.unsorted, Arguments.placeholders_mk, Arguments.placeholders_mk]
    refine congrArg _ (flatMap_filter fun c hc hword => ?_)
    exact (horder c hc (by simpa using hword)).2
  have hcheck := Arguments.check_congr hplaceholders arguments.length strict
  have hselect : ∀ t : Tree, t.kind = .keyword .SELECT →
      Planning.statement arguments t = Planning.select arguments t := by
    intro t ht
    unfold Planning.statement
    rw [ht]
  have hplanned : Planning.PlannedSorted t (Planning.select arguments t.unsorted)
      (Planning.select arguments t) :=
    Planning.select_sorted hitems hkeys fun c hc hword => (horder c hc hword).1
  rw [ofText, hparse]
  show Planning.PlannedSorted t (do
    Arguments.check t.unsorted arguments.length strict
    Planning.statement arguments t.unsorted) (do
    Arguments.check t arguments.length strict
    Planning.statement arguments t)
  rw [hcheck, hselect t hkind, hselect t.unsorted hkind]
  cases Arguments.check t arguments.length strict with
  | error e => exact .inl ⟨e, rfl, rfl⟩
  | ok _ => exact hplanned

end MiniSql
