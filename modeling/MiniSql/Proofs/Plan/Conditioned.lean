/-
# Planning what is shown of the same rows

What a query shows and what it reads are planned apart: its tables and joins are read into its
source, whatever item stands before them (`Planning.Draft.addAll_withSource`), and its `WHERE`
filters them. So queries with the same tables, joins and `WHERE` are refused for one reason, or have
plans over one filtered source (`Planning.conditioned_or_refused`):

| item | plan |
| --- | --- |
| `*` | all columns of these rows |
| `c`, with `ORDER BY c` or without | one column of these rows, sorted or not |
| `f(c)`, `f(*)` | the value of `f` for these rows |

A query with a call anywhere in its list, whatever else it has, calls its functions after everything
but skipping and cutting (`Planning.select_calls`).
-/

import MiniSql.Proofs.Session.AllRows

namespace MiniSql

/-! ## Texts -/

namespace Grammar

open Spells (Predicate)

/-- A column, with its table where it has one. -/
def Tree.column (c : ColumnRef) : Tree :=
  ⟨.ident, c.name, (c.table.map fun name => .table name []).toList⟩

/-- `t IS NULL` -/
def Tree.isNull (t : Tree) : Tree := .word .IS [t, .word .NULL []]

/-- `ORDER BY c` -/
def Tree.orderBy (c : ColumnRef) : Tree := ⟨.keyword .ORDER, "order by", [.word .ASC [.column c]]⟩

/-- `SELECT item FROM tables joins WHERE p`, with other clauses behind it. -/
def Tree.selectWhere (item : Tree) (tables joins : List Tree) (p : Tree) (others : List Tree) :
    Tree :=
  .word .SELECT (item :: .word .FROM tables :: (joins ++ .word .WHERE [p] :: others))

/-- A column that was rendered refers to itself. -/
@[simp] theorem columnRef_column (c : ColumnRef) : Planning.columnRef (.column c) = c := by
  obtain ⟨table, name⟩ := c
  cases table <;> rfl

/-- Every column is spelled by some tokens. -/
theorem exists_column (c : ColumnRef) : ∃ u, Spells.Column u (.column c) := by
  obtain ⟨table, name⟩ := c
  cases table with
  | none => exact ⟨[⟨.ident, name, 0⟩], .plain rfl⟩
  | some table =>
    exact ⟨[⟨.ident, table, 0⟩, ⟨.period, ".", 0⟩, ⟨.ident, name, 0⟩], .qualified rfl rfl rfl⟩

/-- Every column can be ordered by. -/
theorem exists_orderBy (c : ColumnRef) : ∃ u, Spells.Clause u (.orderBy c) := by
  obtain ⟨u, hu⟩ := exists_column c
  exact ⟨⟨.keyword .ORDER, "ORDER", 0⟩ :: ⟨.keyword .BY, "BY", 0⟩ :: u,
    .order rfl rfl (.one (.unmarked hu))⟩

/-- **`(p) AND c IS NULL`** is read as the conjunction of both. -/
theorem spelled_and_isNull {u v : List Token} {o close a is null : Token} {p : Tree}
    {c : ColumnRef} (hp : Predicate .disjunction u p) (hc : Spells.Value v (.column c))
    (ho : o.kind = .openParen) (hclose : close.kind = .closeParen) (ha : a.kind = .keyword .AND)
    (his : is.kind = .keyword .IS) (hnull : null.kind = .keyword .NULL) :
    Predicate .disjunction ((o :: u ++ [close]) ++ a :: (v ++ [is, null]))
      (.word .AND [p, .isNull (.column c)]) :=
  .ofConjunction (.and (.ofAtom (.parens ho hp hclose)) ha (.isNull hc his hnull))

end Grammar

namespace Planning

open Grammar (Tree Keyword)

variable {arguments : List Value} {d d' : Draft} {item p t : Tree} {ts tables joins : List Tree}
  {source : Query} {e : Expression} {plan : Plan}

/-! ## Tables and joins -/

namespace Draft

/-- The draft with another source. -/
def withSource (d : Draft) (source : Option Query) : Draft := { d with source := source }

/-- Further tables are joined to those that are there. -/
theorem addTables_withSource (d : Draft) (source : Option Query) (names : List String) :
    names.foldl addTable (d.withSource source) =
      d.withSource (names.foldl addTable (({} : Draft).withSource source)).source := by
  induction names generalizing source with
  | nil => rfl
  | cons name names ih => cases source <;> exact ih _

/-- A `FROM` or a `JOIN` changes the source and looks at nothing else. -/
theorem add_withSource (ht : t.isWord .FROM = true ∨ t.isWord .JOIN = true) (d : Draft)
    (source : Option Query) : (d.withSource source).add arguments t =
      (fun read => d.withSource read.source) <$>
        (({} : Draft).withSource source).add arguments t := by
  rcases ht with ht | ht
  · have hkind : t.kind = .keyword .FROM := by simpa [Tree.isWord] using ht
    unfold add
    rw [hkind]
    exact congrArg Except.ok (addTables_withSource d source _)
  · have hkind : t.kind = .keyword .JOIN := by simpa [Tree.isWord] using ht
    cases source with
    | none =>
      unfold add
      rw [hkind]
      rfl
    | some left =>
      have hadd (d : Draft) : (d.withSource (some left)).add arguments t =
          (do return { d with source := some (← join arguments left t) }) := by
        unfold add
        rw [hkind]
        rfl
      rw [hadd, hadd, map_bind]
      rfl

/-- **Tables and joins are read alike** behind whatever has been read before them. -/
theorem addAll_withSource (hts : ∀ t ∈ ts, t.isWord .FROM = true ∨ t.isWord .JOIN = true)
    (d : Draft) (source : Option Query) :
    ts.foldlM (Draft.add arguments) (d.withSource source) =
      (fun read => d.withSource read.source) <$>
        ts.foldlM (Draft.add arguments) (({} : Draft).withSource source) := by
  induction ts generalizing source with
  | nil => rfl
  | cons t ts ih =>
    obtain ⟨ht, hts⟩ := List.forall_mem_cons.1 hts
    have hsame : (({} : Draft).withSource source).add arguments t = _ := add_withSource ht {} source
    rw [List.foldlM_cons, List.foldlM_cons, add_withSource ht d source]
    cases hread : (({} : Draft).withSource source).add arguments t with
    | error x => rfl
    | ok read =>
      rw [hread] at hsame
      have hread' : read = ({} : Draft).withSource read.source := Except.ok.inj hsame
      show ts.foldlM (Draft.add arguments) (d.withSource read.source) = _ <$> ts.foldlM _ read
      rw [hread']
      exact ih hts read.source

/-- Clauses behind the tables name none. -/
theorem source_behind (others : List Tree) (d : Draft) :
    (others.foldl behind d).source = d.source := by
  induction others generalizing d with
  | nil => rfl
  | cons t others ih => exact ih (d.behind t)

end Draft

/-! ## One item -/

/-- The tables and joins of a query are read as the source, and its predicate as the expression. -/
structure Conditioned (arguments : List Value) (tables joins : List Tree) (p : Tree)
    (source : Query) (e : Expression) : Prop where
  source : ∃ read, (Tree.word .FROM tables :: joins).foldlM (Draft.add arguments) {} = .ok read ∧
    read.source = some source
  predicate : predicate arguments p = .ok e

/-- The item is read first, then what it is shown of. -/
theorem select_selectWhere (hitem : ({} : Draft).add arguments item = .ok d)
    (hsource : d.source = none) (hjoins : ∀ t ∈ joins, t.isWord .JOIN = true) (others : List Tree) :
    select arguments (.selectWhere item tables joins p others) = (do
      let read ← (Tree.word .FROM tables :: joins).foldlM (Draft.add arguments) {}
      let e ← predicate arguments p
      let d ← others.foldlM (Draft.add arguments) ((d.withSource read.source).filtered e)
      .query <$> d.query) := by
  have hparts : ∀ t ∈ Tree.word .FROM tables :: joins,
      t.isWord .FROM = true ∨ t.isWord .JOIN = true :=
    List.forall_mem_cons.2 ⟨.inl rfl, fun t ht => .inr (hjoins t ht)⟩
  have hread :
      (Tree.word .FROM tables :: joins).foldlM (Draft.add arguments) (d.withSource none) = _ :=
    Draft.addAll_withSource hparts d none
  have hd : d.withSource none = d := by
    rw [Draft.withSource, ← hsource]
  rw [hd] at hread
  show ((item :: _).foldlM (Draft.add arguments) {} >>= _) = _
  rw [List.foldlM_cons, hitem]
  show ((Tree.word .FROM tables :: (joins ++ _)).foldlM (Draft.add arguments) d >>= _) = _
  rw [← List.cons_append, List.foldlM_append, hread, bind_assoc, bind_map_left]
  refine bind_congr fun read => ?_
  rw [List.foldlM_cons]
  show (((do
    return { d.withSource read.source with predicate := some (← predicate arguments p) }) >>= _)
      >>= _) = _
  simp only [bind_assoc, pure_bind]
  rfl

/-- Whatever the item and the other clauses are, the query is refused for one reason or reads one
source. -/
theorem conditioned_or_refused (hjoins : ∀ t ∈ joins, t.isWord .JOIN = true) :
    (∃ x, ∀ (item : Tree) (d : Draft) (others : List Tree),
      ({} : Draft).add arguments item = .ok d → d.source = none →
      (∀ t ∈ others, ∃ u, Grammar.Spells.Clause u t) →
      select arguments (.selectWhere item tables joins p others) = .error x) ∨
    ∃ source e, Conditioned arguments tables joins p source e := by
  cases hread : (Tree.word .FROM tables :: joins).foldlM (Draft.add arguments) {} with
  | error x =>
    refine .inl ⟨x, fun item d others hitem hsource _ => ?_⟩
    rw [select_selectWhere hitem hsource hjoins, hread]
    rfl
  | ok read =>
    cases hp : predicate arguments p with
    | error x =>
      refine .inl ⟨x, fun item d others hitem hsource _ => ?_⟩
      rw [select_selectWhere hitem hsource hjoins, hread, hp]
      rfl
    | ok e =>
      cases hsome : read.source with
      | some source => exact .inr ⟨source, e, ⟨read, hread, hsome⟩, hp⟩
      | none =>
        refine .inl ⟨.internal .selectWithoutFrom, fun item d others hitem hsource hothers => ?_⟩
        rw [select_selectWhere hitem hsource hjoins, hread, hp]
        show (do
          let d ← others.foldlM (Draft.add arguments) ((d.withSource read.source).filtered e)
          Plan.query <$> d.query) = _
        rw [Draft.addAll_eq_behind hothers, Draft.foldl_behind_filtered, hsome]
        have hnone : (others.foldl Draft.behind (d.withSource none)).source = none :=
          Draft.source_behind others (d.withSource none)
        show Plan.query <$> Draft.query _ = _
        simp only [Draft.query, Draft.filtered, hnone]
        rfl

/-- **A selection with a condition** is planned as its item, the condition and its other clauses. -/
theorem Conditioned.select (h : Conditioned arguments tables joins p source e)
    (hitem : ({} : Draft).add arguments item = .ok d) (hsource : d.source = none)
    (hjoins : ∀ t ∈ joins, t.isWord .JOIN = true) (others : List Tree) :
    select arguments (.selectWhere item tables joins p others) = (do
      let d ← others.foldlM (Draft.add arguments) ((d.withSource (some source)).filtered e)
      .query <$> d.query) := by
  obtain ⟨⟨read, hread, hsome⟩, hp⟩ := h
  rw [select_selectWhere hitem hsource hjoins, hread, hp, ← hsome]
  rfl

/-- The source is of tables joined one by one. -/
theorem Conditioned.tabular (h : Conditioned arguments tables joins p source e) :
    source.Tabular := by
  obtain ⟨⟨read, hread, hsome⟩, -⟩ := h
  exact (Draft.grows_addAll hread).tabular (fun _ h => nomatch h) source hsome

/-- A query of one table reads its rows. -/
theorem conditioned_table (name : String) (hp : predicate arguments p = .ok e) :
    Conditioned arguments [.table name []] [] p (.scan name) e := ⟨⟨_, rfl, rfl⟩, hp⟩

/-- A conjunction with `c IS NULL` conditions the same rows. -/
theorem Conditioned.and_isNull (h : Conditioned arguments tables joins p source e)
    (c : ColumnRef) : Conditioned arguments tables joins (.word .AND [p, .isNull (.column c)])
      source (.and e (.isNull (.field c) false)) := by
  refine ⟨h.source, ?_⟩
  rw [Tree.word, predicate_and, h.predicate]
  show Except.ok (Expression.and e (.isNull (.field (columnRef (.column c))) false)) = _
  rw [Grammar.columnRef_column]

/-- All columns are shown of the rows of which the predicate holds. -/
theorem Conditioned.select_all (h : Conditioned arguments tables joins p source e)
    (hjoins : ∀ t ∈ joins, t.isWord .JOIN = true) :
    Planning.select arguments (.selectWhere (.leaf .asterisk "*") tables joins p []) =
      .ok (.query (.projection (.filter source e) [.all])) := by
  rw [h.select rfl rfl hjoins]
  rfl

/-- A column alone is chosen. -/
theorem add_column (c : ColumnRef) :
    ({} : Draft).add arguments (.column c) = .ok { items := [.column c] } := by
  show Except.ok ({ items := [.column (columnRef (.column c))] } : Draft) = _
  rw [Grammar.columnRef_column]

/-- One column is shown of these rows. -/
theorem Conditioned.select_column (h : Conditioned arguments tables joins p source e)
    (hjoins : ∀ t ∈ joins, t.isWord .JOIN = true) (c : ColumnRef) :
    Planning.select arguments (.selectWhere (.column c) tables joins p []) =
      .ok (.query (.projection (.filter source e) [.column c])) := by
  rw [h.select (add_column c) rfl hjoins]
  rfl

/-- One column is shown of these rows, sorted by it. -/
theorem Conditioned.select_orderBy (h : Conditioned arguments tables joins p source e)
    (hjoins : ∀ t ∈ joins, t.isWord .JOIN = true) (c : ColumnRef) :
    Planning.select arguments (.selectWhere (.column c) tables joins p [.orderBy c]) =
      .ok (.query (.projection (.order (.filter source e) [(c, .ascending)]) [.column c])) := by
  have hkeys : keysOf (.orderBy c) = [(c, .ascending)] := by
    show [(columnRef (.column c), Direction.ascending)] = _
    rw [Grammar.columnRef_column]
  have hspelled : ∀ t ∈ [Tree.orderBy c], ∃ u, Grammar.Spells.Clause u t := by
    simpa using Grammar.exists_orderBy c
  rw [h.select (add_column c) rfl hjoins, Draft.addAll_eq_behind hspelled]
  let read : Draft := (({ items := [.column c] } : Draft).withSource (some source)).filtered e
  show Plan.query <$> (read.behind (.orderBy c)).query = _
  rw [Draft.behind, hkeys]
  rfl

/-- A call of an aggregate alone is planned as the call. -/
theorem add_call {k : Keyword} {f : Aggregate} (hk : aggregate? k = some f) (argument : Tree) :
    ({} : Draft).add arguments (.word k [argument]) = .ok { calls :=
      [⟨f, if argument.kind = .asterisk then none else some (columnRef argument)⟩] } := by
  cases k <;> cases hk <;> rfl

/-- A function is called for the rows of which the predicate holds. -/
theorem Conditioned.select_call (h : Conditioned arguments tables joins p source e)
    (hjoins : ∀ t ∈ joins, t.isWord .JOIN = true) {k : Keyword} {f : Aggregate}
    (hk : aggregate? k = some f) (argument : Tree) :
    Planning.select arguments (.selectWhere (.word k [argument]) tables joins p []) =
      .ok (.query (.aggregate (.filter source e)
        [⟨f, if argument.kind = .asterisk then none else some (columnRef argument)⟩])) := by
  rw [h.select (add_call hk argument) rfl hjoins]
  rfl

/-! ## Several items -/

/-- A part of a query calls a function. -/
def Calls (t : Tree) : Prop := ∃ k, t.kind = .keyword k ∧ (aggregate? k).isSome = true

namespace Draft

/-- Tables add no calls. -/
theorem addTables_calls (d : Draft) (names : List String) :
    (names.foldl addTable d).calls = d.calls := by
  induction names generalizing d with
  | nil => rfl
  | cons name names ih =>
    have hone : (d.addTable name).calls = d.calls := by
      unfold addTable
      cases d.source <;> rfl
    rw [List.foldl_cons, ih, hone]

/-- A call is kept behind those before it. -/
theorem calls_add (h : d.add arguments t = .ok d') :
    d.calls <+: d'.calls ∧ (Calls t → d'.calls ≠ []) := by
  have other (hsame : d'.calls = d.calls) (hno : ∀ k, t.kind = .keyword k → aggregate? k = none) :
      d.calls <+: d'.calls ∧ (Calls t → d'.calls ≠ []) := by
    refine ⟨hsame ▸ List.prefix_rfl, fun ⟨k, hk, hcalls⟩ => ?_⟩
    rw [hno k hk] at hcalls
    cases hcalls
  have word {k : Keyword} (hkind : t.kind = .keyword k) (hk : aggregate? k = none) :
      ∀ k, t.kind = .keyword k → aggregate? k = none := by
    intro k' hk'
    cases hkind.symm.trans hk'
    exact hk
  unfold add at h
  split at h <;> rename_i hkind
  · split at h <;> cases h <;> exact other rfl fun k hk => nomatch hkind.symm.trans hk
  · cases h
    exact other rfl fun k hk => nomatch hkind.symm.trans hk
  · cases h
    exact other (addTables_calls d _) (word hkind rfl)
  · split at h
    · cases h
    · obtain ⟨_, -, h⟩ := Except.bind_eq_ok.1 h
      cases h
      exact other rfl (word hkind rfl)
  · obtain ⟨_, -, h⟩ := Except.bind_eq_ok.1 h
    cases h
    exact other rfl (word hkind rfl)
  · obtain ⟨_, -, h⟩ := Except.bind_eq_ok.1 h
    cases h
    exact other rfl (word hkind rfl)
  · obtain ⟨_, -, h⟩ := Except.bind_eq_ok.1 h
    obtain ⟨_, -, h⟩ := Except.bind_eq_ok.1 h
    cases h
    exact other rfl (word hkind rfl)
  · obtain ⟨_, -, h⟩ := Except.bind_eq_ok.1 h
    obtain ⟨_, -, h⟩ := Except.bind_eq_ok.1 h
    cases h
    exact other rfl (word hkind rfl)
  · cases h
    exact other rfl (word hkind rfl)
  · split at h
    · obtain ⟨c, -, h⟩ := Except.bind_eq_ok.1 h
      cases h
      exact ⟨List.prefix_append _ _, fun _ => by simp⟩
    · cases h
  · cases h

/-- Clauses add calls at the end, and some if one of them calls an aggregate. -/
theorem calls_addAll (h : ts.foldlM (Draft.add arguments) d = .ok d') :
    d.calls <+: d'.calls ∧ ((∃ t ∈ ts, Calls t) → d'.calls ≠ []) := by
  induction ts generalizing d with
  | nil =>
    cases h
    exact ⟨List.prefix_rfl, fun ⟨t, ht, _⟩ => nomatch ht⟩
  | cons t ts ih =>
    rw [List.foldlM_cons] at h
    obtain ⟨mid, hmid, h⟩ := Except.bind_eq_ok.1 h
    obtain ⟨hkept, hcalls⟩ := calls_add hmid
    obtain ⟨hlater, hothers⟩ := ih h
    refine ⟨hkept.trans hlater, fun ⟨t', ht', hcall⟩ => ?_⟩
    rcases List.mem_cons.1 ht' with rfl | ht'
    · exact fun hnil => hcalls hcall (List.prefix_nil.1 (hnil ▸ hlater))
    · exact hothers ⟨t', ht', hcall⟩

/-- Of several limits the last one counts. -/
theorem limit_add (h : d.add arguments t = .ok d') : d'.limit = (limitOf t).or d.limit := by
  cases hword : t.isWord .LIMIT with
  | false =>
    rw [(pages_add h).2 hword, limitOf, hword]
    rfl
  | true =>
    have hkind : t.kind = .keyword .LIMIT := by simpa [Tree.isWord] using hword
    unfold add at h
    simp only [hkind] at h
    obtain ⟨node, hnode, h⟩ := Except.bind_eq_ok.1 h
    obtain ⟨n, hn, h⟩ := Except.bind_eq_ok.1 h
    cases h
    rw [limitOf, hword, hnode]
    show some n = ((count node.lexeme).toOption).or d.limit
    rw [hn]
    rfl

/-- The last limit is the one that counts. -/
theorem limit_addAll (h : ts.foldlM (Draft.add arguments) d = .ok d') :
    d'.limit = (ts.filterMap limitOf).getLast?.or d.limit := by
  induction ts generalizing d with
  | nil =>
    cases h
    rfl
  | cons t ts ih =>
    rw [List.foldlM_cons] at h
    obtain ⟨mid, hmid, h⟩ := Except.bind_eq_ok.1 h
    rw [ih h, limit_add hmid, getLast?_filterMap_cons, Option.or_assoc]

/-- A query that calls functions calls them last, before it skips and cuts. -/
theorem query_of_calls {q : Query} (hcalls : d.calls ≠ []) (h : d.query = .ok q) :
    ∃ source, q = (Query.aggregate source d.calls).paged d.offset d.limit := by
  unfold query at h
  split at h
  · cases h
  · rw [if_neg (by simpa using hcalls)] at h
    split at h
    · cases h
      exact ⟨_, rfl⟩
    · cases h

end Draft

/-- **A query with a call** calls its functions for some rows and cuts what they give by its last
`LIMIT`. -/
theorem select_calls (h : select arguments t = .ok plan) (hcalls : ∃ c ∈ t.children, Calls c)
    (hoffset : ∀ c ∈ t.children, c.isWord .OFFSET = false) :
    ∃ source calls, plan = .query ((Query.aggregate source calls).paged none
      (t.children.filterMap limitOf).getLast?) := by
  obtain ⟨d, hd, h⟩ := Except.bind_eq_ok.1 h
  obtain ⟨q, hq, h⟩ := Except.bind_eq_ok.1 h
  cases h
  obtain ⟨source, rfl⟩ := Draft.query_of_calls ((Draft.calls_addAll hd).2 hcalls) hq
  refine ⟨source, d.calls, ?_⟩
  rw [(Draft.pages_addAll hd).1 hoffset, Draft.limit_addAll hd, Option.or_none]

end Planning

namespace Arguments

open Grammar (Tree)

/-- A column has no placeholder. -/
@[simp] theorem placeholders_columnOf (c : ColumnRef) : placeholders (.column c) = [] := by
  obtain ⟨table, name⟩ := c
  cases table <;> simp [Tree.column, placeholders_mk]

/-- A test for NULL has those of its operand. -/
@[simp] theorem placeholders_isNull (t : Tree) : placeholders (.isNull t) = placeholders t := by
  simp [Tree.isNull]

/-- An order has none. -/
@[simp] theorem placeholders_orderBy (c : ColumnRef) : placeholders (.orderBy c) = [] := by
  simp [Tree.orderBy, placeholders_mk]

/-- Items and clauses without placeholders leave those of the tables, joins and predicate. -/
theorem check_selectWhere {item item' p p' : Tree} {tables joins others others' : List Tree}
    (hitem : placeholders item = [])
    (hitem' : placeholders item' = []) (hp : placeholders p = placeholders p')
    (hothers : ∀ t ∈ others, placeholders t = []) (hothers' : ∀ t ∈ others', placeholders t = [])
    (given : Nat) (strict : Bool) :
    check (.selectWhere item tables joins p others) given strict =
      check (.selectWhere item' tables joins p' others') given strict := by
  refine check_congr ?_ given strict
  simp [Tree.selectWhere, hitem, hitem', hp, placeholders_flatMap hothers,
    placeholders_flatMap hothers']

end Arguments

/-- A text with an item and clauses without placeholders is planned if the arguments fit those of
its tables, joins and predicate. -/
theorem Plan.ofText_selectWhere {text : String} {arguments : List Value} {strict : Bool}
    {item p p' : Grammar.Tree} {tables joins others : List Grammar.Tree}
    (hparse : Grammar.parse text = .ok (.selectWhere item tables joins p' others))
    (hitem : Arguments.placeholders item = [])
    (hp : Arguments.placeholders p' = Arguments.placeholders p)
    (hothers : ∀ t ∈ others, Arguments.placeholders t = []) :
    ofText text arguments strict = (do
      Arguments.check (.selectWhere (.leaf .asterisk "*") tables joins p []) arguments.length strict
      Planning.select arguments (.selectWhere item tables joins p' others)) := by
  have hcheck : Arguments.check (.selectWhere item tables joins p' others) arguments.length strict =
      Arguments.check (.selectWhere (.leaf .asterisk "*") tables joins p []) arguments.length
        strict :=
    Arguments.check_selectWhere hitem (by simp) hp hothers (by simp) _ _
  rw [ofText_of_parse hparse, hcheck]
  rfl

/-- Where the arguments fit, that is the plan of its tree. -/
theorem Session.plan_selectWhere {s : Session} {text : String} {arguments : List Value}
    {item p p' : Grammar.Tree} {tables joins others : List Grammar.Tree}
    (hcheck : Arguments.check (.selectWhere (.leaf .asterisk "*") tables joins p [])
      arguments.length s.database.options.strictParams = .ok ())
    (hparse : Grammar.parse text = .ok (.selectWhere item tables joins p' others))
    (hitem : Arguments.placeholders item = [])
    (hp : Arguments.placeholders p' = Arguments.placeholders p)
    (hothers : ∀ t ∈ others, Arguments.placeholders t = []) :
    s.plan ⟨text, arguments⟩ = Planning.select arguments
      (.selectWhere item tables joins p' others) := by
  rw [plan, Plan.ofText_selectWhere hparse hitem hp hothers, hcheck]
  rfl

end MiniSql
