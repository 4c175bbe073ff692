/-
# What a `SELECT` is planned as

The tree of a `SELECT` is read part by part. A part may list an item and may name tables, and the
draft takes them behind those that it has (`Planning.Draft.grows_add`):

| part | items | tables |
| --- | --- | --- |
| `*` | all columns | |
| `u.*` | all columns of `u` | |
| column | the column | |
| `FROM` | | the tables behind it |
| `JOIN` | | its table |
| any other | | |

A plan that shows items shows all that are listed, in order, of rows of all tables that are named,
in order (`Plan.ofText_select`).
-/

import MiniSql.Database
import MiniSql.Proofs.Plan.Placeholders
import MiniSql.Proofs.Query.Parts

namespace MiniSql

open Grammar (Tree)

namespace Planning

/-- The items that a part of a `SELECT` lists. -/
def itemsOf (t : Tree) : List SelectItem :=
  match t.kind with
  | .asterisk =>
    match t.part? .TABLE with
    | some table => [.allOf table.lexeme]
    | none => [.all]
  | .ident => [.column (columnRef t)]
  | _ => []

/-- The tables that a part of a `SELECT` names. -/
def tablesOf (t : Tree) : List String :=
  match t.kind with
  | .keyword .FROM => t.children.map (·.lexeme)
  | .keyword .JOIN => ((t.part? .TABLE).map (·.lexeme)).toList
  | _ => []

namespace Draft

/-- The tables that have been read. -/
def tables (d : Draft) : List String := (d.source.map Query.tables).getD []

variable {arguments : List Value} {d d' d'' : Draft} {listed listed' : List SelectItem}
  {named named' : List String} {t : Tree} {q : Query}

/-- What has been read are tables joined one by one. -/
def Tabular (d : Draft) : Prop := ∀ q, d.source = some q → q.Tabular

/-- The second draft has read these items and tables behind the first. -/
structure Grows (d d' : Draft) (listed : List SelectItem) (named : List String) : Prop where
  items : d'.items = d.items ++ listed
  tables : d'.tables = d.tables ++ named
  tabular : d.Tabular → d'.Tabular

/-- A draft grows by nothing to itself. -/
theorem Grows.refl (d : Draft) : d.Grows d [] [] :=
  ⟨(List.append_nil _).symm, (List.append_nil _).symm, id⟩

/-- What grows twice grows by both. -/
theorem Grows.trans (h : d.Grows d' listed named) (h' : d'.Grows d'' listed' named') :
    d.Grows d'' (listed ++ listed') (named ++ named') := by
  constructor
  · rw [h'.items, h.items, List.append_assoc]
  · rw [h'.tables, h.tables, List.append_assoc]
  · exact fun hd => h'.tabular (h.tabular hd)

/-- One more table is the first, or joined with those before it. -/
theorem grows_addTable (d : Draft) (table : String) : d.Grows (d.addTable table) [] [table] := by
  unfold addTable
  split
  · rename_i hsource
    refine ⟨(List.append_nil _).symm, ?_, fun _ q hq => ?_⟩
    · simp [Draft.tables, hsource, Query.tables]
    · obtain rfl := Option.some.inj hq
      exact .scan table
  · rename_i left hsource
    refine ⟨(List.append_nil _).symm, ?_, fun hd q hq => ?_⟩
    · simp [Draft.tables, hsource, Query.tables]
    · obtain rfl := Option.some.inj hq
      exact .join (hd left hsource) table none false

/-- Tables grow by their names. -/
theorem grows_addTables (d : Draft) (names : List String) :
    d.Grows (names.foldl addTable d) [] names := by
  induction names generalizing d with
  | nil => exact .refl d
  | cons name names ih => exact (d.grows_addTable name).trans (ih _)

/-- A join names its table. -/
theorem grows_join {left joined : Query} (hsource : d.source = some left)
    (h : join arguments left t = .ok joined) :
    d.Grows { d with source := some joined } [] ((t.part? .TABLE).map (·.lexeme)).toList := by
  obtain ⟨table, htable, h⟩ := Except.bind_eq_ok.1 h
  have hname : (t.part? .TABLE).map (·.lexeme) = some table := by
    unfold tableName at htable
    split at htable
    · rename_i node hnode
      rw [hnode, Option.map_some, Except.ok.inj htable]
    · cases htable
  have hjoined : ∃ condition outer, joined = .join left (.scan table) condition outer := by
    split at h
    all_goals
      obtain ⟨condition, -, h⟩ := Except.bind_eq_ok.1 h
      cases h
      exact ⟨_, _, rfl⟩
  obtain ⟨condition, outer, rfl⟩ := hjoined
  rw [hname]
  refine ⟨(List.append_nil _).symm, ?_, fun hd q hq => ?_⟩
  · simp [Draft.tables, hsource, Query.tables]
  · obtain rfl := Option.some.inj hq
    exact .join (hd left hsource) table condition outer

/-- Nothing is listed and no table named. -/
theorem grows_of_same (hitems : d'.items = d.items) (hsource : d'.source = d.source) :
    d.Grows d' [] [] := by
  refine ⟨by rw [hitems, List.append_nil], ?_, fun hd q hq => hd q (hsource ▸ hq)⟩
  rw [Draft.tables, Draft.tables, hsource, List.append_nil]

/-- **Each part adds what it lists and names.** -/
theorem grows_add (h : d.add arguments t = .ok d') : d.Grows d' (itemsOf t) (tablesOf t) := by
  have hitem (item : SelectItem) : d.Grows { d with items := d.items ++ [item] } [item] [] :=
    ⟨rfl, (List.append_nil _).symm, id⟩
  unfold add at h
  unfold itemsOf tablesOf
  split at h <;> rename_i hkind <;> simp only [hkind]
  · revert h
    cases t.part? .TABLE with
    | some table =>
      intro h
      cases h
      exact hitem (.allOf table.lexeme)
    | none =>
      intro h
      cases h
      exact hitem .all
  · cases h
    exact hitem _
  · cases h
    exact d.grows_addTables _
  · split at h
    · cases h
    · rename_i left hsource
      obtain ⟨joined, hjoined, h⟩ := Except.bind_eq_ok.1 h
      cases h
      exact grows_join hsource hjoined
  · obtain ⟨_, -, h⟩ := Except.bind_eq_ok.1 h
    cases h
    exact grows_of_same rfl rfl
  · obtain ⟨_, -, h⟩ := Except.bind_eq_ok.1 h
    cases h
    exact grows_of_same rfl rfl
  · obtain ⟨_, -, h⟩ := Except.bind_eq_ok.1 h
    obtain ⟨_, -, h⟩ := Except.bind_eq_ok.1 h
    cases h
    exact grows_of_same rfl rfl
  · obtain ⟨_, -, h⟩ := Except.bind_eq_ok.1 h
    obtain ⟨_, -, h⟩ := Except.bind_eq_ok.1 h
    cases h
    exact grows_of_same rfl rfl
  · cases h
    exact .refl d
  · rename_i k _ _ _ _ _ _ _
    split at h
    · rename_i function hfunction
      obtain ⟨_, -, h⟩ := Except.bind_eq_ok.1 h
      cases h
      -- Neither `FROM` nor `JOIN` is a function.
      cases k <;> first | exact grows_of_same rfl rfl | cases hfunction
    · cases h
  · cases h

/-- **Clauses** grow by their items and their tables. -/
theorem grows_addAll {ts : List Tree} (h : ts.foldlM (Draft.add arguments) d = .ok d') :
    d.Grows d' (ts.flatMap itemsOf) (ts.flatMap tablesOf) := by
  induction ts generalizing d with
  | nil =>
    cases h
    exact .refl _
  | cons t ts ih =>
    rw [List.foldlM_cons] at h
    obtain ⟨mid, hmid, h⟩ := Except.bind_eq_ok.1 h
    exact (grows_add hmid).trans (ih h)

/-- **A query that shows items** shows them of the rows of its tables. -/
theorem query_projection (hd : d.Tabular) (hitems : d.items ≠ []) (h : d.query = .ok q) :
    ∃ source, q = .projection source d.items ∧ source.tables = d.tables ∧ source.Tabular := by
  unfold query at h
  split at h
  · cases h
  · rename_i source hsource
    have htabular := hd source hsource
    have htables : d.tables = source.tables := by simp [Draft.tables, hsource]
    have hempty : d.items.isEmpty = false := by simpa using hitems
    rw [htables]
    dsimp only at h
    split at h
    · cases h
      refine ⟨_, rfl, ?_, ?_⟩
      · split <;> split <;> split <;> split <;> rfl
      · split <;> split <;> split <;> split <;>
          repeat first | exact htabular | constructor
    · rw [hempty] at h
      cases h

end Draft

/-- The plan of a `SELECT` that lists items shows them of the rows of the tables that it names. -/
theorem select_projection {arguments : List Value} {t : Tree} {p : Plan}
    (hitems : t.children.flatMap itemsOf ≠ []) (h : select arguments t = .ok p) :
    ∃ source, p = .query (.projection source (t.children.flatMap itemsOf)) ∧
      source.tables = t.children.flatMap tablesOf ∧ source.Tabular := by
  obtain ⟨draft, hdraft, h⟩ := Except.bind_eq_ok.1 h
  obtain ⟨q, hq, h⟩ := Except.bind_eq_ok.1 h
  cases h
  have hgrows := Draft.grows_addAll hdraft
  have htabular : draft.Tabular := hgrows.tabular fun _ h => nomatch h
  have hlisted : draft.items = t.children.flatMap itemsOf := hgrows.items
  have hnamed : draft.tables = t.children.flatMap tablesOf := hgrows.tables
  rw [← hlisted] at hitems ⊢
  rw [← hnamed]
  obtain ⟨source, rfl, htables, hsource⟩ := Draft.query_projection htabular hitems hq
  exact ⟨source, rfl, htables, hsource⟩

end Planning

/-- **A text that lists items** is planned as showing them of the rows of the tables that it
names. -/
theorem Plan.ofText_select {sql : String} {arguments : List Value} {strict : Bool} {t : Tree}
    {p : Plan} (hparse : Grammar.parse sql = .ok t) (hkind : t.kind = .keyword .SELECT)
    (hitems : t.children.flatMap Planning.itemsOf ≠ [])
    (h : ofText sql arguments strict = .ok p) :
    ∃ source, p = .query (.projection source (t.children.flatMap Planning.itemsOf)) ∧
      source.tables = t.children.flatMap Planning.tablesOf ∧ source.Tabular := by
  rw [ofText, hparse] at h
  obtain ⟨_, -, h⟩ := Except.bind_eq_ok.1 h
  rw [Planning.statement, hkind] at h
  exact Planning.select_projection hitems h

/-! ## One item of one table -/

namespace Grammar

open Spells

/-- `SELECT item FROM name` -/
def Tree.selectFrom (item : Tree) (name : String) : Tree :=
  .word .SELECT [item, .word .FROM [.table name []], .implicitWhere]

/-- `name.*` -/
def Tree.starOf (name : String) : Tree := ⟨.asterisk, "*", [.table name []]⟩

/-- The asterisk is read as an item. -/
theorem lexes_all : Lexes "*" (Item · (.leaf .asterisk "*")) := by
  refine lexes_star.mono ?_
  rintro _ ⟨s, rfl, hs, hlexeme⟩
  rw [← hlexeme]
  exact .star hs

/-- The columns of a table are read as an item. -/
theorem lexes_starOf (name : String) : Lexes (renderName name ++ ".*") (Item · (.starOf name)) := by
  have h := lexes_star.qualified name
  rw [String.append_assoc] at h
  refine h.mono ?_
  rintro _ ⟨_, _, rfl, hname, _, _, rfl, ⟨d, rfl, hd, -⟩, s, rfl, hs, hlexeme⟩
  obtain ⟨t, rfl, -, hname⟩ := name_of_is hname
  rw [Tree.starOf, ← hlexeme]
  exact .starOf hname hd hs

/-- A text that lists one item of one table. -/
theorem parse_selectFrom {text : String} {item : Tree} (hitem : Lexes text (Item · item))
    (name : String) : parse ("SELECT " ++ text ++ " FROM " ++ renderName name) =
      .ok (.selectFrom item name) := by
  have hfrom := (lexes_node (fun n => .table n []) name).afterWord .FROM rfl
  have htext : "SELECT " ++ text ++ " FROM " ++ renderName name =
      " ".intercalate ["SELECT", text, "FROM " ++ renderName name] := by
    simp [← String.toList_inj]
  obtain ⟨_, _, htokens, ⟨s, rfl, hs, -⟩, u, _, rfl, hu, f, v, rfl, hf, hv⟩ :=
    ((lexes_keyword .SELECT).trailed (.cons hitem (.one hfrom))).alone
  have hstatement := Statement.select hs (.one hu) hf (.one hv) .none .none
  refine parse_eq_ok_iff.2 ⟨_, [], ?_, hstatement, .inl rfl⟩
  rw [htext]
  exact htokens.trans (by simp)

end Grammar

/-- The query of all rows of a table, for some items. -/
def Plan.selectFrom (items : List SelectItem) (name : String) : Plan :=
  .query (.projection (.filter (.scan name) (.constant (.integer 1))) items)

/-- A text that lists one item of one table is planned as showing it of all rows. -/
theorem Plan.ofText_selectFrom {sql name : String} {item : Tree} {strict : Bool}
    (hparse : Grammar.parse sql = .ok (.selectFrom item name)) {shown : SelectItem}
    (hitem : Planning.Draft.add [] {} item = .ok { items := [shown] })
    (hplaceholders : Arguments.placeholders item = []) :
    ofText sql [] strict = .ok (selectFrom [shown] name) := by
  have hcheck : Arguments.check (.selectFrom item name) 0 strict = .ok () := by
    have hnone : Arguments.placeholders (.selectFrom item name) = [] := by
      simp [Tree.selectFrom, Tree.implicitWhere, hplaceholders]
    unfold Arguments.check
    rw [hnone]
    cases strict <;> rfl
  have hselect : Planning.statement [] (.selectFrom item name) =
      .ok (selectFrom [shown] name) := by
    show Planning.select [] (.selectFrom item name) = _
    rw [Planning.select, Tree.selectFrom, Tree.word, List.foldlM_cons, hitem]
    rfl
  rw [ofText, hparse]
  show (do
    Arguments.check (.selectFrom item name) 0 strict
    Planning.statement [] (.selectFrom item name)) = _
  rw [hcheck, hselect]
  rfl

end MiniSql
