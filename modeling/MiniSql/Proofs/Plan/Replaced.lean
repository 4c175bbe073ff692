/-
# Other trees in the place of placeholders

What a placeholder stands for is all that the planner asks of it. Where other trees stand in the
place of the placeholders, and stand for the same values with their own arguments, the plan is the
same, or the refusal (`Planning.statement_replace`). So the names of the placeholders, and which of
them are written as literals, do not matter.

The planner takes each kind of phrase the same way from both trees. They differ only where a value
stands.
-/

import MiniSql.Proofs.Plan.Accepted

namespace MiniSql

open Grammar (Tree Keyword Kind Token)

namespace Except

variable {ε α α' β : Type}

/-- A pass over what comes of a list is a pass over the list, if its steps agree. -/
theorem mapM_map_congr {f : α' → Except ε β} {f' : α → Except ε β} {g : α → α'} {l : List α}
    (h : ∀ a ∈ l, f (g a) = f' a) : (l.map g).mapM f = l.mapM f' := by
  induction l with
  | nil => rfl
  | cons a l ih =>
    obtain ⟨ha, h⟩ := List.forall_mem_cons.1 h
    rw [List.map_cons, List.mapM_cons, List.mapM_cons, ha, ih h]

/-- A fold over what comes of a list is a fold over the list, if its steps agree. -/
theorem foldlM_map_congr {f : β → α' → Except ε β} {f' : β → α → Except ε β} {g : α → α'}
    {l : List α} (h : ∀ a ∈ l, ∀ b, f b (g a) = f' b a) (b : β) :
    (l.map g).foldlM f b = l.foldlM f' b := by
  induction l generalizing b with
  | nil => rfl
  | cons a l ih =>
    obtain ⟨ha, h⟩ := List.forall_mem_cons.1 h
    rw [List.map_cons, List.foldlM_cons, List.foldlM_cons, ha b]
    exact congrArg (_ >>= ·) (funext fun b => ih h b)

end Except

namespace Planning

open Grammar.Spells
open Arguments (Each each_cons each_append each_mk each_iff placeholders)

variable {σ : Tree → Tree} {arguments' arguments : List Value} {u : List Token} {t : Tree}

/-- Only a placeholder looks at the arguments. -/
theorem value_congr (h : t.kind ≠ .placeholder) (arguments arguments' : List Value) :
    value arguments t = value arguments' t := by
  unfold value
  split <;> first | rfl | contradiction

/-- Where a placeholder stands for something, another tree stands for the same in its place. -/
def Stands (σ : Tree → Tree) (arguments' arguments : List Value) (lexeme : String) : Prop :=
  value arguments' (σ (.leaf .placeholder lexeme)) = value arguments (.leaf .placeholder lexeme)

/-- A value is planned as before, since only a placeholder is replaced. -/
theorem value_replace (h : Grammar.Spells.Value u t)
    (ht : Each (Stands σ arguments' arguments) [t]) :
    value arguments' (t.replace σ) = value arguments t := by
  by_cases hkind : t.kind = .placeholder
  · obtain ⟨lexeme, rfl⟩ := Grammar.exists_placeholder h hkind
    rw [Tree.replace_placeholder]
    exact ht lexeme (by simp)
  · rw [Tree.replace_eq_self t (Grammar.placeholders_value h hkind)]
    exact value_congr hkind arguments' arguments

/-- **A predicate is planned as before,** by induction on how it is spelled. -/
theorem predicate_replace {level : Level} (h : Predicate level u t)
    (ht : Each (Stands σ arguments' arguments) [t]) :
    predicate arguments' (t.replace σ) = predicate arguments t := by
  induction h with
  | @comparison u v s l r hl hs hr =>
    have hkind : s.kind ≠ .placeholder := fun hkind => by simp [hkind, Kind.isComparison] at hs
    obtain ⟨htl, htr⟩ := each_cons.1 ((each_mk hkind _).1 ht)
    obtain ⟨sign, hpredicate⟩ := predicate_comparison hs
    rw [Tree.replace_mk hkind, List.map_cons, List.map_cons, List.map_nil, hpredicate, hpredicate,
      value_replace hl htl, value_replace hr htr]
  | isNull h hs hn =>
    obtain ⟨htested, -⟩ := each_cons.1 ((each_mk (by simp) _).1 ht)
    rw [Tree.replace_word]
    exact congrArg (· >>= _) (value_replace h htested)
  | isNotNull h hs hm hn =>
    obtain ⟨htested, -⟩ := each_cons.1 ((each_mk (by simp) _).1 ht)
    rw [Tree.replace_word]
    exact congrArg (· >>= _) (value_replace h htested)
  | @literal u t h hstands =>
    have hkind : t.kind ≠ .placeholder := fun hkind => by
      rcases kind_of_standsAlone hstands with hk | hk | hk <;> simp [hk] at hkind
    rw [Tree.replace_eq_self t (Grammar.placeholders_value h hkind),
      predicate_of_standsAlone hstands, predicate_of_standsAlone hstands]
    exact value_congr hkind arguments' arguments
  | parens ho h hc ih => exact ih ht
  | ofAtom h ih => exact ih ht
  | ofConjunction h ih => exact ih ht
  | and hl ha hr ihl ihr =>
    obtain ⟨htl, htr⟩ := each_cons.1 ((each_mk (by simp) _).1 ht)
    rw [Tree.replace_word, List.map_cons, List.map_cons, List.map_nil, Tree.word, Tree.word,
      predicate_and, predicate_and, ihl htl, ihr htr]
  | or hl ho hr ihl ihr =>
    obtain ⟨htl, htr⟩ := each_cons.1 ((each_mk (by simp) _).1 ht)
    rw [Tree.replace_word, List.map_cons, List.map_cons, List.map_nil, Tree.word, Tree.word,
      predicate_or, predicate_or, ihl htl, ihr htr]

/-- A `WHERE` is a node of its own, with one predicate. -/
theorem exists_predicate_of_where (h : Where u t) : ∃ p, t = .word .WHERE [p] := by
  cases h with
  | none => exact ⟨_, rfl⟩
  | some h =>
    obtain ⟨hw, hp⟩ := h
    exact ⟨_, rfl⟩

/-- A filter is planned as before. -/
theorem filter_replace {k : Keyword} (h : Filter k u t)
    (ht : Each (Stands σ arguments' arguments) [t]) :
    filter arguments' (t.replace σ) = filter arguments t := by
  obtain ⟨hw, hp⟩ := h
  rw [Tree.replace_word]
  exact predicate_replace hp ((each_mk (by simp) _).1 ht)

/-- A `WHERE` is planned as before, written or left out. -/
theorem where_replace (h : Where u t) (ht : Each (Stands σ arguments' arguments) [t]) :
    filter arguments' (t.replace σ) = filter arguments t := by
  cases h with
  | none => rfl
  | some h => exact filter_replace h ht

/-! ### Queries -/

/-- A join is planned from its predicate. -/
theorem join_opening {marks : List Tree} (h : Opening u marks) (arguments : List Value)
    (left : Query) (n : String) (p : Tree) :
    join arguments left (.word .JOIN (marks ++ [.table n [], .word .ON [p]])) =
      ((some <$> predicate arguments p) >>= fun condition =>
        .ok (.join left (.scan n) condition (!marks.isEmpty))) := by
  cases h <;> rfl

/-- A join is planned as before, whatever it joins with. -/
theorem join_replace (h : Join u t) (ht : Each (Stands σ arguments' arguments) [t]) (left : Query) :
    join arguments' left (t.replace σ) = join arguments left t := by
  obtain @⟨_, _, _, marks, _, _, ho, @⟨_, n, hn⟩, @⟨_, _, p, hw, hp⟩⟩ := h
  obtain ⟨-, hrest⟩ := each_append.1 ((each_mk (by simp) _).1 ht)
  obtain ⟨-, hon⟩ := each_cons.1 hrest
  have hmarks : marks.map (·.replace σ) = marks :=
    Tree.map_replace_eq_self marks (by cases ho <;> simp)
  rw [Tree.replace_word, List.map_append, hmarks]
  simp only [List.map_cons, List.map_nil, Tree.replace_word, Tree.replace_table]
  rw [join_opening ho, join_opening ho, predicate_replace hp ((each_mk (by simp) _).1 hon)]

/-- A part of a query that is neither a join nor a `WHERE` does not look at the arguments. -/
theorem Draft.add_congr (hjoin : t.kind ≠ .keyword .JOIN) (hwhere : t.kind ≠ .keyword .WHERE)
    (arguments arguments' : List Value) (d : Draft) : d.add arguments t = d.add arguments' t := by
  unfold Draft.add
  split <;> first | rfl | contradiction

/-- A part without placeholders is added to a draft as before. -/
theorem Draft.add_replace_of_eq_nil (h : placeholders t = []) (hjoin : t.kind ≠ .keyword .JOIN)
    (hwhere : t.kind ≠ .keyword .WHERE) (d : Draft) :
    d.add arguments' (t.replace σ) = d.add arguments t := by
  rw [Tree.replace_eq_self t h]
  exact Draft.add_congr hjoin hwhere arguments' arguments d

/-- What is selected is added to a draft as before. -/
theorem Draft.add_replace_item (h : Item u t) (d : Draft) :
    d.add arguments' (t.replace σ) = d.add arguments t := by
  refine Draft.add_replace_of_eq_nil (Arguments.placeholders_item h) ?_ ?_ d <;> intro hkind
  all_goals
    cases h with
    | call ht hk ha =>
      cases hkind
      cases hk
    | column h => cases h <;> cases hkind
    | _ => cases hkind

/-- A clause that is no `WHERE` is added to a draft as before. -/
theorem Draft.add_replace_clause (h : Clause u t) (d : Draft) :
    d.add arguments' (t.replace σ) = d.add arguments t := by
  refine Draft.add_replace_of_eq_nil (Arguments.placeholders_clause h) ?_ ?_ d <;> intro hkind
  all_goals
    cases h with
    | count ht hk => rcases hk with rfl | rfl <;> cases hkind
    | _ => cases hkind

/-- A join is added as before. -/
theorem Draft.add_replace_join (h : Join u t) (ht : Each (Stands σ arguments' arguments) [t])
    (d : Draft) : d.add arguments' (t.replace σ) = d.add arguments t := by
  have hjoin (left : Query) := join_replace h ht left
  obtain ⟨ho, hu, hp⟩ := h
  rw [Tree.replace_word] at hjoin ⊢
  cases hsource : d.source with
  | none => simp only [Draft.add, Tree.word, hsource]
  | some left =>
    simp only [Draft.add, Tree.word, hsource] at hjoin ⊢
    rw [hjoin]

/-- A `WHERE` is added as before if its predicate is planned so. -/
theorem Draft.add_replace_where {p : Tree}
    (h : filter arguments' ((Tree.word .WHERE [p]).replace σ) = filter arguments (.word .WHERE [p]))
    (d : Draft) :
    d.add arguments' ((Tree.word .WHERE [p]).replace σ) = d.add arguments (.word .WHERE [p]) := by
  rw [Tree.replace_word] at h ⊢
  exact congrArg (· >>= fun p => Except.ok { d with predicate := some p }) h

/-- **A `SELECT` is planned as before,** child by child. -/
theorem select_replace {v w x : List Token} {items tables joins : List Tree}
    {clauses : Grammar.Parser.Clauses} (hi : CommaList Item u items)
    (hj : Many Join w joins) (hc : Clauses x clauses) (ht : CommaList Table v tables)
    (hstands : Each (Stands σ arguments' arguments) [.word .SELECT
      (items ++ .word .FROM tables :: joins ++ clauses.filter :: clauses.others)]) :
    select arguments' ((Tree.word .SELECT
      (items ++ .word .FROM tables :: joins ++ clauses.filter :: clauses.others)).replace σ) =
      select arguments (.word .SELECT
        (items ++ .word .FROM tables :: joins ++ clauses.filter :: clauses.others)) := by
  have hparts := each_iff.1 ((each_mk (by simp) _).1 hstands)
  have hadd : ∀ t ∈ items ++ .word .FROM tables :: joins ++ clauses.filter :: clauses.others,
      ∀ d : Draft, d.add arguments' (t.replace σ) = d.add arguments t := by
    intro t hmem d
    have htstands := hparts t hmem
    rcases List.mem_append.1 hmem with hmem | hmem
    · rcases List.mem_append.1 hmem with hmem | hmem
      · obtain ⟨_, ht⟩ := hi.exists_spelled t hmem
        exact Draft.add_replace_item ht d
      · rcases List.mem_cons.1 hmem with rfl | hmem
        · have hbare : placeholders (.word .FROM tables) = [] := by
            rw [Arguments.placeholders_word]
            refine Arguments.placeholders_flatMap fun t hmem => ?_
            obtain ⟨_, ht⟩ := ht.exists_spelled t hmem
            exact Arguments.placeholders_ofTable ht
          exact Draft.add_replace_of_eq_nil hbare (by simp [Tree.word]) (by simp [Tree.word]) d
        · obtain ⟨_, ht⟩ := hj.exists_spelled t hmem
          exact Draft.add_replace_join ht htstands d
    · rcases List.mem_cons.1 hmem with rfl | hmem
      · obtain ⟨_, hwhere⟩ := hc.exists_spelled.1
        obtain ⟨p, hp⟩ := exists_predicate_of_where hwhere
        have hfilter := where_replace hwhere htstands
        rw [hp] at hfilter ⊢
        exact Draft.add_replace_where hfilter d
      · obtain ⟨_, ht⟩ := hc.exists_spelled.2 t hmem
        exact Draft.add_replace_clause ht d
  rw [Tree.replace_word]
  exact congrArg (· >>= fun d => d.query >>= fun q => Except.ok (Plan.query q))
    (Except.foldlM_map_congr hadd {})

/-! ### Other statements -/

/-- A tuple is planned as before. -/
theorem tuple_replace (h : Tuple u t) (ht : Each (Stands σ arguments' arguments) [t]) :
    (t.replace σ).children.mapM (value arguments') = t.children.mapM (value arguments) := by
  obtain ⟨ho, hv, hc⟩ := h
  have hvalues := each_iff.1 ((each_mk (by simp) _).1 ht)
  rw [Tree.replace_mk (by simp)]
  refine Except.mapM_map_congr fun v hmem => ?_
  obtain ⟨_, hv⟩ := hv.exists_spelled v hmem
  exact value_replace hv (hvalues v hmem)

/-- An `INSERT` is planned from its tuples. -/
theorem insert_returning {returning : List Tree} (h : Returning u returning) (target : Tree) :
    ∃ c, ∀ arguments tuples,
      insert arguments (.word .INSERT (.word .INTO [target] :: .word .VALUES tuples :: returning)) =
        ((tuples.mapM fun tuple => tuple.children.mapM (value arguments)) >>= fun rows =>
          .ok (.insert target.lexeme (target.children.map (·.lexeme)) rows c)) := by
  cases h <;> exact ⟨_, fun _ _ => rfl⟩

/-- **An `INSERT` is planned as before,** tuple by tuple. -/
theorem insert_replace {w x : List Token} {target : Tree} {tuples returning : List Tree}
    (ht : Grammar.Spells.Target u target) (hw : CommaList Tuple w tuples)
    (hr : Returning x returning)
    (hstands : Each (Stands σ arguments' arguments)
      [.word .INSERT (.word .INTO [target] :: .word .VALUES tuples :: returning)]) :
    insert arguments' ((Tree.word .INSERT
      (.word .INTO [target] :: .word .VALUES tuples :: returning)).replace σ) =
      insert arguments
        (.word .INSERT (.word .INTO [target] :: .word .VALUES tuples :: returning)) := by
  obtain ⟨-, hrest⟩ := each_cons.1 ((each_mk (by simp) _).1 hstands)
  obtain ⟨hvalues, -⟩ := each_cons.1 hrest
  have htuples := each_iff.1 ((each_mk (by simp) _).1 hvalues)
  have htarget : target.replace σ = target :=
    Tree.replace_eq_self target (Arguments.placeholders_target ht)
  have hreturning : returning.map (·.replace σ) = returning :=
    Tree.map_replace_eq_self returning (Arguments.placeholders_returning hr)
  have hrows : ((tuples.map (·.replace σ)).mapM fun tuple => tuple.children.mapM (value arguments')) =
      tuples.mapM fun tuple => tuple.children.mapM (value arguments) := by
    refine Except.mapM_map_congr fun tuple hmem => ?_
    obtain ⟨_, htuple⟩ := hw.exists_spelled tuple hmem
    exact tuple_replace htuple (htuples tuple hmem)
  obtain ⟨c, hinsert⟩ := insert_returning hr target
  simp only [Tree.replace_word, List.map_cons, List.map_nil, htarget, hreturning, hinsert, hrows]

/-- An assignment is planned as before. -/
theorem assignment_replace (h : Assignment u t) (ht : Each (Stands σ arguments' arguments) [t]) :
    assignment arguments' (t.replace σ) = assignment arguments t := by
  obtain @⟨_, s, n, _, v, htoken, hs, hv⟩ := h
  obtain ⟨-, hvalue⟩ := each_cons.1 ((each_mk (by simp) _).1 ht)
  rw [Tree.replace_mk (by simp)]
  have hcolumn : (Tree.leaf .ident n).replace σ = .leaf .ident n :=
    Tree.replace_eq_self _ (by simp)
  rw [List.map_cons, hcolumn]
  exact congrArg (· >>= fun e => Except.ok (n, e)) (value_replace hv hvalue)

/-- **An `UPDATE` is planned as before,** in its assignments and its filter. -/
theorem update_replace {v w x : List Token} {table clause : Tree} {assignments : List Tree}
    (hu : Table v table) (ha : CommaList Assignment w assignments) (hc : Where x clause)
    (hstands : Each (Stands σ arguments' arguments)
      [.word .UPDATE [table, .word .SET assignments, clause]]) :
    update arguments' ((Tree.word .UPDATE [table, .word .SET assignments, clause]).replace σ) =
      update arguments (.word .UPDATE [table, .word .SET assignments, clause]) := by
  obtain ⟨-, hrest⟩ := each_cons.1 ((each_mk (by simp) _).1 hstands)
  obtain ⟨hset, hclause⟩ := each_cons.1 hrest
  have hassigned := each_iff.1 ((each_mk (by simp) _).1 hset)
  have hassignments : (assignments.map (·.replace σ)).mapM (assignment arguments') =
      assignments.mapM (assignment arguments) := by
    refine Except.mapM_map_congr fun a hmem => ?_
    obtain ⟨_, ha⟩ := ha.exists_spelled a hmem
    exact assignment_replace ha (hassigned a hmem)
  have hfilter := where_replace hc hclause
  obtain @⟨_, n, hn⟩ := hu
  obtain ⟨p, rfl⟩ := exists_predicate_of_where hc
  simp only [Tree.replace_word, Tree.replace_table, List.map_cons, List.map_nil] at hfilter ⊢
  have hplan (arguments : List Value) (assignments : List Tree) (p : Tree) :
      update arguments (.word .UPDATE [.table n [], .word .SET assignments, .word .WHERE [p]]) =
        (assignments.mapM (assignment arguments) >>= fun assigned =>
          filter arguments (.word .WHERE [p]) >>= fun p => .ok (.update n p assigned)) := rfl
  rw [hplan, hplan, hassignments, hfilter]

/-- **A `DELETE` is planned as before,** in its filter. -/
theorem delete_replace {v x : List Token} {table clause : Tree} (hu : Table v table)
    (hc : Where x clause)
    (hstands : Each (Stands σ arguments' arguments) [.word .DELETE [.word .FROM [table], clause]]) :
    delete arguments' ((Tree.word .DELETE [.word .FROM [table], clause]).replace σ) =
      delete arguments (.word .DELETE [.word .FROM [table], clause]) := by
  obtain ⟨-, hclause⟩ := each_cons.1 ((each_mk (by simp) _).1 hstands)
  have hfilter := where_replace hc hclause
  obtain @⟨_, n, hn⟩ := hu
  obtain ⟨p, rfl⟩ := exists_predicate_of_where hc
  simp only [Tree.replace_word, Tree.replace_table, List.map_cons, List.map_nil] at hfilter ⊢
  exact congrArg (· >>= fun p => Except.ok (Plan.delete n p)) hfilter

/-! ### Tables to create -/

/-- A modifier is planned as before, in each of its forms. -/
theorem modify_replace (h : Modifier u t) (ht : Each (Stands σ arguments' arguments) [t])
    (read : Column × Bool) : modify arguments' read (t.replace σ) = modify arguments read t := by
  cases h with
  | @default d u v hd hv =>
    have hvalue := value_replace hv ((each_mk (by simp) _).1 ht)
    rw [Tree.replace_word]
    have hoperand (v : Tree) : operand (.word .DEFAULT [v]) = pure v := rfl
    have hdefault : defaultOf arguments' read.1 (.word .DEFAULT ([v].map (·.replace σ))) =
        defaultOf arguments read.1 (.word .DEFAULT [v]) := by
      unfold defaultOf
      rw [List.map_cons, List.map_nil, hoperand, hoperand, pure_bind, pure_bind, hvalue]
    exact congrArg
      (· >>= fun d => Except.ok ({ read.1 with default := some d }, read.2)) hdefault
  | @flag t k h hk =>
    rw [Tree.replace_eq_self _ (by simp)]
    cases k <;> rfl
  | notNull ht hn => rfl
  | onUpdate ho ht hn =>
    rw [Tree.replace_eq_self _ (by cases hn <;> simp)]
    rfl
  | primaryKey hp hk => rfl

/-- The definition of a column is planned as before. -/
theorem column_replace (h : ColumnDefinition u t) (ht : Each (Stands σ arguments' arguments) [t]) :
    column arguments' (t.replace σ) = column arguments t := by
  obtain @⟨_, n, _, _, type, modifiers, htoken, hu, hm⟩ := h
  obtain ⟨-, hrest⟩ := each_cons.1 ((each_mk (by simp) _).1 ht)
  have hmodifiers (read : MiniSql.Column × Bool) :
      (modifiers.map (·.replace σ)).foldlM (modify arguments') read =
        modifiers.foldlM (modify arguments) read := by
    refine Except.foldlM_map_congr (fun m hmem read => ?_) read
    obtain ⟨_, hm⟩ := hm.exists_spelled m hmem
    exact modify_replace hm (each_iff.1 hrest m hmem) read
  rw [Tree.replace_mk (by simp), List.map_cons,
    Tree.replace_eq_self type (Arguments.placeholders_columnType hu)]
  unfold column
  simp only [List.drop_succ_cons, List.drop_zero, hmodifiers]
  rfl

/-- **A `CREATE` is planned as before,** column by column. -/
theorem create_replace {v w : List Token} {condition : List Tree} {table : Tree}
    (hc : Condition [.IF, .NOT, .EXISTS] "if not exists" v condition)
    (hu : TableDefinition w table)
    (hstands : Each (Stands σ arguments' arguments) [.word .CREATE (condition ++ [table])]) :
    create arguments' ((Tree.word .CREATE (condition ++ [table])).replace σ) =
      create arguments (.word .CREATE (condition ++ [table])) := by
  obtain @⟨_, n, _, columns, hn, ⟨ho, hcolumns, hclose⟩⟩ := hu
  obtain ⟨-, htable⟩ := each_append.1 ((each_mk (by simp) _).1 hstands)
  have hall := each_iff.1 ((each_mk (by simp) _).1 htable)
  have hcondition : condition.map (·.replace σ) = condition :=
    Tree.map_replace_eq_self condition (Arguments.placeholders_condition hc)
  have hcolumns : (columns.map (·.replace σ)).mapM (column arguments') =
      columns.mapM (column arguments) := by
    refine Except.mapM_map_congr fun c hmem => ?_
    obtain ⟨_, hc⟩ := hcolumns.exists_spelled c hmem
    exact column_replace hc (hall c hmem)
  have hplan (arguments : List Value) (columns : List Tree) :
      create arguments (.word .CREATE (condition ++ [.table n columns])) =
        (columns.mapM (column arguments) >>= fun columns =>
          .ok (.createTable ⟨n, columns⟩ (!condition.isEmpty))) := by
    cases hc <;> rfl
  rw [Tree.replace_word, List.map_append, hcondition, List.map_cons, List.map_nil, Tree.replace_table,
    hplan, hplan, hcolumns]

/-- **A statement is planned alike** whatever stands in the place of its placeholders, as long as it
stands for the same values. -/
theorem statement_replace (h : Statement u t) (ht : Each (Stands σ arguments' arguments) [t]) :
    statement arguments' (t.replace σ) = statement arguments t := by
  cases h with
  | select hs hi hf hu hj hc =>
    have hselect := select_replace hi hj hc hu ht
    rw [Tree.replace_word] at hselect ⊢
    exact hselect
  | insert hi ho hu hv hw hr =>
    have hinsert := insert_replace hu hw hr ht
    rw [Tree.replace_word] at hinsert ⊢
    exact hinsert
  | update htoken hu hs ha hw =>
    have hupdate := update_replace hu ha hw ht
    rw [Tree.replace_word] at hupdate ⊢
    exact hupdate
  | delete hd hf hu hw =>
    have hdelete := delete_replace hu hw ht
    rw [Tree.replace_word] at hdelete ⊢
    exact hdelete
  | truncate htoken hs hu =>
    rw [Tree.replace_eq_self _ (by simp [Arguments.placeholders_ofTable hu])]
    rfl
  | drop hd htoken hc hu =>
    rw [Tree.replace_eq_self _
      (by simp [Arguments.placeholders_condition hc, Arguments.placeholders_ofTable hu])]
    rfl
  | create hc htoken hi hu =>
    have hcreate := create_replace hi hu ht
    rw [Tree.replace_word] at hcreate ⊢
    exact hcreate

end Planning
end MiniSql
