/-
# Planning fits the grammar

The planner reads the parts of a tree by their kinds and faults a tree that lacks one as an internal
error. The grammar puts every part where the planner looks for it: for each kind of phrase, what is
spelled as such a phrase is refused, if at all, as a matter of the schema, or because an argument
that it refers to is not there, up to whole statements (`Planning.statement_within`). So no statement
is planned with an internal error (`Planning.statement_neverInternal`). A plan may still be refused,
for a column of an unknown type or a default that no column can hold, but then the statement is at
fault.

A query is read child by child into a draft. Its `FROM` comes before its joins and names at least
one table, so a join always finds what to join with, and the draft has a source in the end.
-/

import MiniSql.Database
import MiniSql.Proofs.Internal
import MiniSql.Proofs.Plan.Placeholders
import MiniSql.Proofs.Refused

namespace MiniSql

open Grammar (Tree Keyword Kind Token)

/-! ## Arguments -/

namespace Arguments

/-- Arguments that do not fit the placeholders of a tree are a matter of the parameters. -/
theorem check_neverInternal (t : Tree) (given : Nat) (strict : Bool) :
    Except.NeverInternal (check t given strict) := by
  unfold check
  dsimp only
  split
  · exact .parameter _
  · split
    · exact .parameter _
    · split
      · exact .parameter _
      · exact .ok ()

end Arguments

/-- The errors of planning: of the schema, or those of `B`, which arguments may be refused with. -/
inductive Error.OfPlan (B : Error → Prop) : Error → Prop
  | schema (cause : SchemaError) : OfPlan B (.schema cause)
  | argument {e : Error} (h : B e) : OfPlan B e

/-- The placeholder is refused, if at all, as a matter of the schema or with an error of `B`. -/
def Arguments.Answered (B : Error → Prop) (arguments : List Value) (lexeme : String) : Prop :=
  Except.Within (Error.OfPlan B) (argument arguments lexeme)

/-- An argument that is not there is a matter of the parameters. -/
theorem Arguments.answered (arguments : List Value) (lexeme : String) :
    Answered (fun e => ∃ cause, e = .parameter cause) arguments lexeme := by
  unfold Answered argument
  split
  · exact .error (.schema _)
  · exact .error (.argument ⟨_, rfl⟩)
  · split
    · exact .ok _
    · exact .error (.argument ⟨_, rfl⟩)

namespace Planning

open Error (OfPlan)
open Grammar.Spells
open Arguments (Each Answered each_cons each_append each_mk each_iff)

variable {B : Error → Prop} {arguments : List Value} {u : List Token} {t : Tree}

/-! ## Values and predicates -/

/-- A number that is too large for any type is a matter of the schema. -/
theorem number_within (lexeme : String) : Except.Within (OfPlan B) (number lexeme) := by
  unfold number
  dsimp only
  split
  · split
    · exact .ok _
    · exact .error (.schema _)
  · split
    · exact .ok _
    · split
      · exact .ok _
      · exact .error (.schema _)

/-- A count that is too large is a matter of the schema. -/
theorem count_within (lexeme : String) : Except.Within (OfPlan B) (count lexeme) := by
  unfold count
  split
  · exact .ok _
  · exact .error (.schema _)

/-- A value is a literal, a column, a placeholder or the current time, each of which is planned. -/
theorem value_within (h : Grammar.Spells.Value u t) (ht : Each (Answered B arguments) [t]) :
    Except.Within (OfPlan B) (value arguments t) := by
  have hnumber (lexeme : String) :
      Except.Within (OfPlan B) (value arguments (.leaf .number lexeme)) :=
    (number_within lexeme).bind fun _ _ => .ok _
  cases h with
  | @literal t h =>
    cases hk : t.kind with
    | number => exact hnumber t.lexeme
    | string => exact .ok _
    | placeholder =>
      have hanswered : Answered B arguments t.lexeme := by simpa [Each, hk] using ht
      exact hanswered.bind fun _ _ => .ok _
    | _ => simp [hk, Kind.isLiteral] at h
  | negative hm hn => exact hnumber _
  | @word t k h hk => cases k <;> first | exact .ok _ | cases hk
  | now h => cases h <;> exact .ok _
  | column h ht => cases h <;> exact .ok _

/-- A conjunction is planned from its sides. -/
theorem predicate_and (lexeme : String) (l r : Tree) :
    predicate arguments ⟨.keyword .AND, lexeme, [l, r]⟩ =
      (do return .and (← predicate arguments l) (← predicate arguments r)) := rfl

/-- A disjunction is planned from its sides. -/
theorem predicate_or (lexeme : String) (l r : Tree) :
    predicate arguments ⟨.keyword .OR, lexeme, [l, r]⟩ =
      (do return .or (← predicate arguments l) (← predicate arguments r)) := rfl

/-- A comparison is planned as its sign between its values. -/
theorem predicate_comparison {k : Kind} (h : k.isComparison = true) :
    ∃ sign, ∀ arguments lexeme l r, predicate arguments ⟨k, lexeme, [l, r]⟩ =
      (do return .compare sign (← value arguments l) (← value arguments r)) := by
  cases k <;> first | exact ⟨_, fun _ _ _ _ => rfl⟩ | cases h

/-- A literal that is a predicate is planned as the literal. -/
theorem predicate_of_standsAlone (h : Grammar.Parser.standsAlone t = true) :
    predicate arguments t = value arguments t := by
  obtain ⟨k, lexeme, children⟩ := t
  rcases kind_of_standsAlone h with hk | hk | hk <;> cases hk <;> rfl

/-- **A predicate** is planned at every level of precedence, by induction on how it is spelled. -/
theorem predicate_within {level : Level} (h : Predicate level u t)
    (ht : Each (Answered B arguments) [t]) :
    Except.Within (OfPlan B) (predicate arguments t) := by
  induction h with
  | @comparison u v s l r hl hs hr =>
    have hkind : s.kind ≠ .placeholder := fun hkind => by simp [hkind, Kind.isComparison] at hs
    obtain ⟨htl, htr⟩ := each_cons.1 ((each_mk hkind _).1 ht)
    obtain ⟨sign, hpredicate⟩ := predicate_comparison hs
    rw [hpredicate]
    exact (value_within hl htl).bind fun _ _ => (value_within hr htr).bind fun _ _ => .ok _
  | isNull h hs hn =>
    obtain ⟨htested, -⟩ := each_cons.1 ((each_mk (by simp) _).1 ht)
    exact (value_within h htested).bind fun _ _ => .ok _
  | isNotNull h hs hm hn =>
    obtain ⟨htested, -⟩ := each_cons.1 ((each_mk (by simp) _).1 ht)
    exact (value_within h htested).bind fun _ _ => .ok _
  | literal h hstands =>
    rw [predicate_of_standsAlone hstands]
    exact value_within h ht
  | parens ho h hc ih => exact ih ht
  | ofAtom h ih => exact ih ht
  | and hl ha hr ihl ihr =>
    obtain ⟨htl, htr⟩ := each_cons.1 ((each_mk (by simp) _).1 ht)
    rw [Tree.word, predicate_and]
    exact (ihl htl).bind fun _ _ => (ihr htr).bind fun _ _ => .ok _
  | ofConjunction h ih => exact ih ht
  | or hl ho hr ihl ihr =>
    obtain ⟨htl, htr⟩ := each_cons.1 ((each_mk (by simp) _).1 ht)
    rw [Tree.word, predicate_or]
    exact (ihl htl).bind fun _ _ => (ihr htr).bind fun _ _ => .ok _

/-- A filter is planned as its predicate is. -/
theorem filter_within {k : Keyword} (h : Filter k u t) (ht : Each (Answered B arguments) [t]) :
    Except.Within (OfPlan B) (filter arguments t) := by
  obtain ⟨hw, hp⟩ := h
  exact predicate_within hp ((each_mk (by simp) _).1 ht)

/-- What stands for a `WHERE` that is left out is planned. -/
theorem implicitWhere_within : Except.Within (OfPlan B) (filter arguments .implicitWhere) :=
  (number_within "1").bind fun _ _ => .ok _

/-- A `WHERE` is planned, written or left out. -/
theorem where_within (h : Where u t) (ht : Each (Answered B arguments) [t]) :
    t.isWord .WHERE = true ∧ Except.Within (OfPlan B) (filter arguments t) := by
  cases h with
  | none => exact ⟨rfl, implicitWhere_within⟩
  | some h => exact ⟨by cases h; rfl, filter_within h ht⟩

/-! ## Queries -/

/-- The draft has a table. -/
def Draft.Sourced (d : Draft) : Prop := ∃ q, d.source = some q

/-- A draft with a table has a source. -/
theorem Draft.sourced_addTable (d : Draft) (table : String) : (d.addTable table).Sourced := by
  unfold addTable
  split
  · exact ⟨_, rfl⟩
  · exact ⟨_, rfl⟩

/-- A draft with several tables has a source. -/
theorem Draft.sourced_addTables {d : Draft} {tables : List String} (h : tables ≠ []) :
    (tables.foldl addTable d).Sourced := by
  induction tables generalizing d with
  | nil => exact absurd rfl h
  | cons table tables ih =>
    cases tables with
    | nil => exact d.sourced_addTable table
    | cons => exact ih (by simp)

/-- What a `SELECT` lists is added to any draft. -/
theorem Draft.add_item (h : Item u t) (d : Draft) : ∃ d', d.add arguments t = .ok d' := by
  cases h with
  | star h => exact ⟨_, rfl⟩
  | starOf ht hd hs => exact ⟨_, rfl⟩
  | countAll ht ho hs hc => exact ⟨_, rfl⟩
  | @call t k u a ht hk ha => cases k <;> first | exact ⟨_, rfl⟩ | cases hk
  | column h => cases h <;> exact ⟨_, rfl⟩

/-- A join is planned as its condition is, whatever it joins with. -/
theorem join_within (h : Join u t) (ht : Each (Answered B arguments) [t]) (left : Query) :
    Except.Within (OfPlan B) (join arguments left t) := by
  obtain ⟨ho, ⟨hn⟩, hp⟩ := h
  obtain ⟨-, hrest⟩ := each_append.1 ((each_mk (by simp) _).1 ht)
  have hon := (filter_within hp (each_cons.1 hrest).2).map some
  obtain ⟨hw, hp⟩ := hp
  cases ho <;> exact hon.bind fun _ _ => .ok _

/-- A join is added to a draft with a source, and leaves one. -/
theorem Draft.add_join (h : Join u t) (ht : Each (Answered B arguments) [t]) {d : Draft}
    (hd : d.Sourced) :
    Except.Within (OfPlan B) (d.add arguments t) ∧ ∀ d', d.add arguments t = .ok d' → d'.Sourced := by
  obtain ⟨left, hleft⟩ := hd
  have hadd : d.add arguments t =
      (do return { d with source := some (← join arguments left t) }) := by
    obtain ⟨ho, hu, hp⟩ := h
    simp [Draft.add, Tree.word, hleft]
  rw [hadd]
  refine ⟨(join_within h ht left).bind fun _ _ => .ok _, fun d' hd' => ?_⟩
  obtain ⟨q, -, hd'⟩ := Except.bind_eq_ok.1 hd'
  cases hd'
  exact ⟨q, rfl⟩

/-- A `WHERE` is added to any draft and keeps its tables. -/
theorem Draft.add_where (hword : t.isWord .WHERE = true)
    (h : Except.Within (OfPlan B) (filter arguments t)) {d : Draft} (hd : d.Sourced) :
    Except.Within (OfPlan B) (d.add arguments t) ∧ ∀ d', d.add arguments t = .ok d' → d'.Sourced := by
  have hadd : d.add arguments t =
      (do return { d with predicate := some (← filter arguments t) }) := by
    have hkind : t.kind = .keyword .WHERE := by simpa [Tree.isWord] using hword
    simp [Draft.add, hkind]
  rw [hadd]
  refine ⟨h.bind fun _ _ => .ok _, fun d' hd' => ?_⟩
  obtain ⟨p, -, hd'⟩ := Except.bind_eq_ok.1 hd'
  cases hd'
  exact hd

/-- A sort key is planned as a column with a direction. -/
theorem sortKey_within (h : SortKey u t) : Except.Within (OfPlan B) (sortKey t) := by
  cases h with
  | unmarked h => exact .ok _
  | marked h hd hk => exact .ok _

/-- Another clause is added to any draft and keeps its tables. -/
theorem Draft.add_clause (h : Clause u t) {d : Draft} (hd : d.Sourced) :
    Except.Within (OfPlan B) (d.add arguments t) ∧ ∀ d', d.add arguments t = .ok d' → d'.Sourced := by
  cases h with
  | @order o b u keys ho hb hk =>
    have hkeys : Except.Within (OfPlan B) (keys.mapM sortKey) := .mapM fun key hkey => by
      obtain ⟨_, hkey⟩ := hk.exists_spelled key hkey
      exact sortKey_within hkey
    refine ⟨hkeys.bind fun _ _ => .ok _, fun d' hd' => ?_⟩
    obtain ⟨_, -, hd'⟩ := Except.bind_eq_ok.1 hd'
    cases hd'
    exact hd
  | @count t n k c ht hk hn hc =>
    have hcount : Except.Within (OfPlan B) (count n.lexeme) := count_within n.lexeme
    have hadd : d.add arguments (.word k [.leaf .number n.lexeme]) = (count n.lexeme >>= fun c =>
        .ok (if k = .LIMIT then { d with limit := some c } else { d with offset := some c })) := by
      rcases hk with rfl | rfl <;> rfl
    rw [hadd]
    refine ⟨hcount.bind fun _ _ => .ok _, fun d' hd' => ?_⟩
    obtain ⟨_, -, hd'⟩ := Except.bind_eq_ok.1 hd'
    cases hd'
    split <;> exact hd
  | forUpdate hf hu =>
    refine ⟨.ok _, fun d' hd' => ?_⟩
    cases hd'
    exact hd

/-- A draft with a source is a query. -/
theorem Draft.query_within {d : Draft} (hd : d.Sourced) : Except.Within (OfPlan B) d.query := by
  obtain ⟨q, hq⟩ := hd
  unfold Draft.query
  rw [hq]
  dsimp only
  split
  · exact .ok _
  · split
    · exact .ok _
    · exact .error (.schema _)

/-- **A `SELECT`** is planned child by child: the draft has a source from its `FROM` on. -/
theorem select_within {v w x : List Token} {items tables joins : List Tree}
    {clauses : Grammar.Parser.Clauses} (hi : CommaList Item u items)
    (ht : CommaList Table v tables) (hj : Many Join w joins) (hc : Clauses x clauses)
    (hanswered : Each (Answered B arguments) [.word .SELECT
      (items ++ .word .FROM tables :: joins ++ clauses.filter :: clauses.others)]) :
    Except.Within (OfPlan B) (select arguments (.word .SELECT
      (items ++ .word .FROM tables :: joins ++ clauses.filter :: clauses.others))) := by
  obtain ⟨hbefore, hclauses⟩ := each_append.1 ((each_mk (by simp) _).1 hanswered)
  obtain ⟨-, hrest⟩ := each_append.1 hbefore
  have hjoins := each_iff.1 (each_cons.1 hrest).2
  obtain ⟨⟨_, hwhere⟩, hothers⟩ := hc.exists_spelled
  obtain ⟨hword, hwhere⟩ := where_within hwhere (each_cons.1 hclauses).1
  -- Items come before any table, and what follows `FROM` keeps its tables.
  have hitems (d : Draft) : Except.Within (OfPlan B) (items.foldlM (Draft.add arguments) d) :=
    .foldlM fun d t ht => by
      obtain ⟨_, ht⟩ := hi.exists_spelled t ht
      obtain ⟨d', hd'⟩ := @Draft.add_item arguments _ _ ht d
      exact hd' ▸ .ok d'
  have hfrom (d : Draft) : ((tables.map (·.lexeme)).foldl Draft.addTable d).Sourced :=
    Draft.sourced_addTables (by simpa using ht.ne_nil)
  have hstep : ∀ d : Draft, ∀ t ∈ joins ++ clauses.filter :: clauses.others, d.Sourced →
      Except.Within (OfPlan B) (d.add arguments t) ∧
        ∀ d', d.add arguments t = .ok d' → d'.Sourced := by
    intro d t ht hd
    rcases List.mem_append.1 ht with ht | ht
    · obtain ⟨_, hjoin⟩ := hj.exists_spelled t ht
      exact Draft.add_join hjoin (hjoins t ht) hd
    · rcases List.mem_cons.1 ht with rfl | ht
      · exact Draft.add_where hword hwhere hd
      · obtain ⟨_, ht⟩ := hothers t ht
        exact Draft.add_clause ht hd
  have hchildren : (Tree.word .SELECT
      (items ++ .word .FROM tables :: joins ++ clauses.filter :: clauses.others)).children =
        items ++ .word .FROM tables :: (joins ++ clauses.filter :: clauses.others) := by
    simp [Tree.word]
  unfold select
  rw [hchildren, List.foldlM_append, bind_assoc]
  refine (hitems {}).bind fun d _ => ?_
  rw [List.foldlM_cons, bind_assoc]
  refine (Except.Within.ok _).bind fun d' hd' => ?_
  obtain rfl := Except.ok.inj hd'
  obtain ⟨hwithin, hkeep⟩ := Except.Within.foldlM_keeps hstep (hfrom d)
  refine hwithin.bind fun d'' hd'' => ?_
  exact (Draft.query_within (hkeep d'' hd'')).bind fun _ _ => .ok _

/-! ## Other statements -/

/-- A tuple is planned as its values are. -/
theorem tuple_within (h : Tuple u t) (ht : Each (Answered B arguments) [t]) :
    Except.Within (OfPlan B) (t.children.mapM (value arguments)) := by
  obtain ⟨ho, hv, hc⟩ := h
  have hvalues := each_iff.1 ((each_mk (by simp) _).1 ht)
  refine .mapM fun v hmem => ?_
  obtain ⟨_, hv⟩ := hv.exists_spelled v hmem
  exact value_within hv (hvalues v hmem)

/-- **An `INSERT`** is planned as its tuples are. -/
theorem insert_within {w x : List Token} {target : Tree} {tuples returning : List Tree}
    (hw : CommaList Tuple w tuples) (hr : Returning x returning)
    (hanswered : Each (Answered B arguments)
      [.word .INSERT (.word .INTO [target] :: .word .VALUES tuples :: returning)]) :
    Except.Within (OfPlan B) (insert arguments
      (.word .INSERT (.word .INTO [target] :: .word .VALUES tuples :: returning))) := by
  obtain ⟨-, hrest⟩ := each_cons.1 ((each_mk (by simp) _).1 hanswered)
  have htuples := each_iff.1 ((each_mk (by simp) _).1 (each_cons.1 hrest).1)
  have hrows : Except.Within (OfPlan B)
      (tuples.mapM fun tuple => tuple.children.mapM (value arguments)) := .mapM fun tuple hmem => by
    obtain ⟨_, htuple⟩ := hw.exists_spelled tuple hmem
    exact tuple_within htuple (htuples tuple hmem)
  cases hr <;> exact hrows.bind fun _ _ => .ok _

/-- An assignment is planned as its value is. -/
theorem assignment_within (h : Assignment u t) (ht : Each (Answered B arguments) [t]) :
    Except.Within (OfPlan B) (assignment arguments t) := by
  obtain ⟨htoken, hs, hv⟩ := h
  obtain ⟨-, hvalue⟩ := each_cons.1 ((each_mk (by simp) _).1 ht)
  exact (value_within hv hvalue).bind fun _ _ => .ok _

/-- The predicate of a statement is that of its `WHERE`. -/
theorem filterOf_within {k : Keyword} {part : Tree} (hpart : part.isWord .WHERE = false)
    (parts : List Tree) (hparts : ∀ p ∈ parts, p.isWord .WHERE = false) {clause : Tree}
    (h : Where u clause) (hclause : Each (Answered B arguments) [clause]) :
    Except.Within (OfPlan B) (filterOf arguments (.word k (part :: (parts ++ [clause])))) := by
  obtain ⟨hword, hwithin⟩ := where_within h hclause
  have hpart : (Tree.word k (part :: (parts ++ [clause]))).part? .WHERE = some clause := by
    have hskip : parts.find? (fun c => c.isWord .WHERE) = none :=
      List.find?_eq_none.2 fun p hp => by simp [hparts p hp]
    simp [Tree.part?, Tree.word, hpart, hskip, hword]
  unfold filterOf
  rw [hpart]
  exact hwithin

/-- **An `UPDATE`** is planned as its assignments and its filter are. -/
theorem update_within {v w x : List Token} {table clause : Tree} {assignments : List Tree}
    (hu : Table v table) (ha : CommaList Assignment w assignments) (hc : Where x clause)
    (hanswered : Each (Answered B arguments)
      [.word .UPDATE [table, .word .SET assignments, clause]]) :
    Except.Within (OfPlan B)
      (update arguments (.word .UPDATE [table, .word .SET assignments, clause])) := by
  obtain ⟨-, hrest⟩ := each_cons.1 ((each_mk (by simp) _).1 hanswered)
  obtain ⟨hset, hclause⟩ := each_cons.1 hrest
  have hassigned := each_iff.1 ((each_mk (by simp) _).1 hset)
  have hassignments : Except.Within (OfPlan B) (assignments.mapM (assignment arguments)) :=
    .mapM fun a hmem => by
      obtain ⟨_, ha⟩ := ha.exists_spelled a hmem
      exact assignment_within ha (hassigned a hmem)
  obtain @⟨_, n, hn⟩ := hu
  have hfilter : Except.Within (OfPlan B) (filterOf arguments
      (.word .UPDATE [.table n [], .word .SET assignments, clause])) :=
    filterOf_within rfl [.word .SET assignments] (by simp; rfl) hc hclause
  exact hassignments.bind fun _ _ => hfilter.bind fun _ _ => .ok _

/-- **A `DELETE`** is planned as its filter is. -/
theorem delete_within {v x : List Token} {table clause : Tree} (hu : Table v table)
    (hc : Where x clause)
    (hanswered : Each (Answered B arguments) [.word .DELETE [.word .FROM [table], clause]]) :
    Except.Within (OfPlan B) (delete arguments (.word .DELETE [.word .FROM [table], clause])) := by
  obtain ⟨-, hclause⟩ := each_cons.1 ((each_mk (by simp) _).1 hanswered)
  obtain @⟨_, n, hn⟩ := hu
  have hfilter : Except.Within (OfPlan B) (filterOf arguments
      (.word .DELETE [.word .FROM [.table n []], clause])) :=
    filterOf_within rfl [] (by simp) hc hclause
  exact hfilter.bind fun _ _ => .ok _

/-! ## Tables to create -/

/-- A default that its column cannot hold is a matter of the schema. -/
theorem coerce_within (type : DataType) (v : MiniSql.Value) :
    Except.Within (OfPlan B) (v.coerce type) := by
  unfold Value.coerce
  repeat' split
  all_goals first | exact .ok _ | exact .error (.schema _)

/-- A modifier is planned in each of its forms. -/
theorem modify_within (h : Modifier u t) (ht : Each (Answered B arguments) [t])
    (read : Column × Bool) : Except.Within (OfPlan B) (modify arguments read t) := by
  cases h with
  | @flag t k h hk => cases k <;> first | exact .ok _ | cases hk
  | notNull ht hn => exact .ok _
  | @default d u v hd hv =>
    refine Except.Within.bind ?_ fun _ _ => .ok _
    refine (value_within hv ((each_mk (by simp) _).1 ht)).bind fun e _ => ?_
    split
    · exact (coerce_within _ _).bind fun _ _ => .ok _
    · exact .ok _
    · exact .error (.schema _)
  | onUpdate ho ht hn => exact .ok _
  | primaryKey hp hk => exact .ok _

/-- A column is planned as its type and its modifiers are. -/
theorem column_within (h : ColumnDefinition u t) (ht : Each (Answered B arguments) [t]) :
    Except.Within (OfPlan B) (column arguments t) := by
  obtain ⟨htoken, hu, hm⟩ := h
  obtain ⟨-, hrest⟩ := each_cons.1 ((each_mk (by simp) _).1 ht)
  unfold column
  refine (Except.Within.ok _).bind fun type htype => ?_
  obtain rfl := Except.ok.inj htype
  split
  · exact .error (.schema _)
  · refine Except.Within.bind ?_ fun read _ => ?_
    · refine .foldlM fun read m hmem => ?_
      obtain ⟨_, hm⟩ := hm.exists_spelled m hmem
      exact modify_within hm (each_iff.1 hrest m hmem) read
    · dsimp only
      split
      · split
        · exact .error (.schema _)
        · exact .ok _
      · split
        · exact .error (.schema _)
        · exact .ok _

/-- **A `CREATE`** is planned as its columns are. -/
theorem create_within {v w : List Token} {condition : List Tree} {table : Tree}
    (hc : Condition [.IF, .NOT, .EXISTS] "if not exists" v condition)
    (hu : TableDefinition w table)
    (hanswered : Each (Answered B arguments) [.word .CREATE (condition ++ [table])]) :
    Except.Within (OfPlan B) (create arguments (.word .CREATE (condition ++ [table]))) := by
  obtain @⟨_, n, _, columns, hn, ⟨ho, hcolumns, hclose⟩⟩ := hu
  obtain ⟨-, htable⟩ := each_append.1 ((each_mk (by simp) _).1 hanswered)
  have hall := each_iff.1 ((each_mk (by simp) _).1 htable)
  have hcolumns : Except.Within (OfPlan B) (columns.mapM (column arguments)) :=
    .mapM fun c hmem => by
      obtain ⟨_, hc⟩ := hcolumns.exists_spelled c hmem
      exact column_within hc (hall c hmem)
  cases hc <;> exact hcolumns.bind fun _ _ => .ok _

/-! ## Whole statements -/

/-- **What is spelled as a statement is refused, if at all,** as a matter of the schema or for one of
its placeholders. -/
theorem statement_within (h : Statement u t) (ht : Each (Answered B arguments) [t]) :
    Except.Within (OfPlan B) (statement arguments t) := by
  cases h with
  | select hs hi hf hu hj hc => exact select_within hi hu hj hc ht
  | @insert i o v u w x target tuples returning hi ho hu hv hw hr =>
    exact @insert_within B arguments w x target tuples returning hw hr ht
  | update htoken hu hs ha hw => exact update_within hu ha hw ht
  | delete hd hf hu hw => exact delete_within hu hw ht
  | truncate htoken hs hu =>
    obtain ⟨hn⟩ := hu
    exact .ok _
  | drop hd htoken hc hu =>
    obtain ⟨hn⟩ := hu
    cases hc <;> exact .ok _
  | create hc htoken hi hu => exact create_within hi hu ht

/-- **What is spelled as a statement is planned** without an internal error. -/
theorem statement_neverInternal (h : Statement u t) :
    Except.NeverInternal (statement arguments t) := by
  intro cause hcause
  have hanswered : Each (Answered (fun e => ∃ cause, e = .parameter cause) arguments) [t] :=
    fun lexeme _ => Arguments.answered arguments lexeme
  rcases statement_within h hanswered _ hcause with _ | ⟨_, ⟨⟩⟩

end Planning

/-- **Every text is planned without an internal error**, whatever its arguments. -/
theorem Plan.ofText_neverInternal (sql : String) (arguments : List Value) (strict : Bool) :
    Except.NeverInternal (Plan.ofText sql arguments strict) := by
  unfold ofText
  split
  · exact fun _ h => nomatch h
  · rename_i t ht
    obtain ⟨_, _, -, hu, -⟩ := Grammar.spells_of_parse ht
    exact (Arguments.check_neverInternal t _ strict).bind fun _ _ =>
      Planning.statement_neverInternal hu

end MiniSql
