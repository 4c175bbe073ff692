/-
# Arguments written into a statement

Instead of giving a statement its arguments, one may write the literal of each argument in the
place of the placeholders that refer to it (`Tree.fill`). A floating point number and an instant
have no literal. A literal stands wherever a placeholder may stand, so what is left is a statement
again: some tokens spell it, as they would in a text (`spelled_statement`).
-/

import MiniSql.Proofs.Number.Decimal
import MiniSql.Proofs.Plan.Placeholders

namespace MiniSql

open Grammar Grammar.Spells

/-- The literal of a value, if it has one. -/
def Value.literal? : MiniSql.Value → Option Tree
  | null => some (.word .NULL [])
  | boolean true => some (.word .TRUE [])
  | boolean false => some (.word .FALSE [])
  | integer i => some (.leaf .number (toString i.toInt))
  | float _ => none
  | text s => some (.leaf .string s)
  | timestamp _ => none

/-- The literal of the argument that a placeholder refers to: the first of them for `$1`. -/
def Arguments.literal? (arguments : List MiniSql.Value) (lexeme : String) : Option Tree := do
  let k ← validIndex? lexeme
  let v ← arguments[k - 1]?
  v.literal?

mutual

/-- The tree with the literals of its arguments in the place of its placeholders. -/
def Grammar.Tree.fill (arguments : List MiniSql.Value) : Tree → Tree
  | ⟨kind, lexeme, children⟩ =>
    if kind = .placeholder then (Arguments.literal? arguments lexeme).getD ⟨kind, lexeme, children⟩
    else ⟨kind, lexeme, fillAll arguments children⟩

/-- Several trees, one by one. -/
def Grammar.Tree.fillAll (arguments : List MiniSql.Value) : List Tree → List Tree
  | [] => []
  | t :: ts => t.fill arguments :: fillAll arguments ts

end

namespace Grammar.Tree

open Arguments (placeholders)

variable {arguments : List MiniSql.Value} {t : Tree} {ts : List Tree}

/-- Filling in several trees is filling in each of them. -/
theorem fillAll_eq_map (ts : List Tree) : fillAll arguments ts = ts.map (·.fill arguments) := by
  induction ts with
  | nil => rfl
  | cons t ts ih => rw [fillAll, ih, List.map_cons]

/-- Filling in a tree that is no placeholder is filling in its parts. -/
theorem fill_mk {kind : Kind} (h : kind ≠ .placeholder) (lexeme : String) (children : List Tree) :
    (Tree.mk kind lexeme children).fill arguments =
      ⟨kind, lexeme, children.map (·.fill arguments)⟩ := by
  rw [fill, if_neg h, fillAll_eq_map]

/-- A word stays, and its parts are filled in. -/
@[simp] theorem fill_word (k : Keyword) (children : List Tree) :
    (word k children).fill arguments = word k (children.map (·.fill arguments)) :=
  fill_mk (by simp) _ _

/-- A table stays, and its columns are filled in. -/
@[simp] theorem fill_table (n : String) (children : List Tree) :
    (table n children).fill arguments = table n (children.map (·.fill arguments)) :=
  fill_mk (by simp) _ _

mutual

/-- A literal is another tree in the place of its placeholder. -/
theorem fill_eq_replace : ∀ t : Tree,
    t.fill arguments = t.replace fun p => (Arguments.literal? arguments p.lexeme).getD p
  | ⟨kind, lexeme, children⟩ => by
    rw [fill, replace, fillAll_eq_replaceAll children]

/-- Filling in several trees is replacing their placeholders. -/
theorem fillAll_eq_replaceAll : ∀ ts : List Tree, fillAll arguments ts =
    replaceAll (fun p => (Arguments.literal? arguments p.lexeme).getD p) ts
  | [] => rfl
  | t :: ts => by rw [fillAll, replaceAll, fill_eq_replace t, fillAll_eq_replaceAll ts]

end

/-- A tree without placeholders stays as it is. -/
theorem fill_eq_self (t : Tree) (h : placeholders t = []) : t.fill arguments = t := by
  rw [fill_eq_replace, replace_eq_self t h]

/-- Trees without placeholders stay as they are. -/
theorem map_fill_eq_self (ts : List Tree) (h : ts.flatMap placeholders = []) :
    ts.map (·.fill arguments) = ts := by
  simp only [fill_eq_replace, map_replace_eq_self ts h]

/-- A placeholder with a literal becomes this literal. -/
theorem fill_placeholder {lexeme : String} {literal : Tree}
    (h : Arguments.literal? arguments lexeme = some literal) (children : List Tree) :
    (Tree.mk .placeholder lexeme children).fill arguments = literal := by
  rw [fill, if_pos rfl, h]
  rfl

end Grammar.Tree

/-! ## Spelling what is filled in -/

namespace Grammar

open Arguments (placeholders)

variable {α : Type} {u : List Token} {t : Tree} {ts : List Tree}

/-- Some tokens spell the thing, as they would in a text. -/
def Spelled (G : List Token → α → Prop) (a : α) : Prop := ∃ u, G u a ∧ Genuine u

/-- A list is spelled with commas if its items are spelled. -/
theorem spelled_commaList {G : List Token → Tree → Prop} {f : Tree → Tree}
    (hG : ∀ {u t}, G u t → Genuine u → Spelled G (f t)) (h : CommaList G u ts) (hg : Genuine u) :
    Spelled (CommaList G) (ts.map f) := by
  induction h with
  | one h =>
    obtain ⟨v, hv, hgv⟩ := hG h hg
    exact ⟨v, .one hv, hgv⟩
  | @more u v c t ts h hc hs ih =>
    simp only [genuine_append, genuine_cons] at hg
    obtain ⟨u', hu, hgu⟩ := hG h hg.1
    obtain ⟨v', hv, hgv⟩ := ih hg.2.2
    exact ⟨u' ++ c :: v', .more hu hc hv, by simp [hgu, hgv, hg.2.1]⟩

/-- Items in a row are spelled if each one is. -/
theorem spelled_many {G : List Token → Tree → Prop} {f : Tree → Tree}
    (hG : ∀ {u t}, G u t → Genuine u → Spelled G (f t)) (h : Many G u ts) (hg : Genuine u) :
    Spelled (Many G) (ts.map f) := by
  induction h with
  | none => exact ⟨[], .none, genuine_nil⟩
  | @more u v ts t hs h ih =>
    simp only [genuine_append] at hg
    obtain ⟨u', hu, hgu⟩ := ih hg.1
    obtain ⟨v', hv, hgv⟩ := hG h hg.2
    rw [List.map_append]
    exact ⟨u' ++ v', .more hu hv, by simp [hgu, hgv]⟩

/-- The literal of a value is spelled as a value: a number by its digits, and a negative one by its
sign and its digits. -/
theorem spelled_literal {v : MiniSql.Value} {literal : Tree} (h : v.literal? = some literal) :
    Spelled Spells.Value literal := by
  have hword {k : Keyword} (hk : k.isValue = true) : Spelled Spells.Value (.word k []) :=
    ⟨[⟨.keyword k, k.text, 0⟩], .word rfl hk, by simp [Kind.Carries]⟩
  have hdigits (n : Nat) : Kind.number.Carries n.repr := by
    obtain ⟨c, digits, hcons, hc, hdigits⟩ := Number.toDigits_eq_cons n
    refine ⟨c, digits, ?_, hc, .inl (List.all_eq_true.2 hdigits)⟩
    rw [← hcons, ← Nat.toList_repr, String.ofList_toList]
  cases v with
  | null =>
    cases h
    exact hword rfl
  | boolean b =>
    cases b with
    | false =>
      cases h
      exact hword rfl
    | true =>
      cases h
      exact hword rfl
  | integer i =>
    cases h
    cases i.toInt with
    | ofNat n => exact ⟨[⟨.number, n.repr, 0⟩], .literal rfl, by simpa using hdigits n⟩
    | negSucc n =>
      exact ⟨[⟨.minus, "-", 0⟩, ⟨.number, (n + 1).repr, 0⟩], .negative rfl rfl,
        by simpa [Kind.Carries] using hdigits (n + 1)⟩
  | float x => cases h
  | text s =>
    cases h
    exact ⟨[⟨.string, s, 0⟩], .literal rfl, by simp [Kind.Carries]⟩
  | timestamp t => cases h

variable (arguments : List MiniSql.Value)

/-- **A value that is filled in is spelled:** a literal stands where the placeholder stood. -/
theorem spelled_value (h : Spells.Value u t) (hg : Genuine u) :
    Spelled Spells.Value (t.fill arguments) := by
  by_cases hkind : t.kind = .placeholder
  · obtain ⟨kind, lexeme, children⟩ := t
    cases hkind
    cases hliteral : Arguments.literal? arguments lexeme with
    | none =>
      rw [Tree.fill, if_pos rfl, hliteral]
      exact ⟨u, h, hg⟩
    | some literal =>
      rw [Tree.fill_placeholder hliteral]
      obtain ⟨k, -, hliteral⟩ := Option.bind_eq_some_iff.1 hliteral
      obtain ⟨v, -, hliteral⟩ := Option.bind_eq_some_iff.1 hliteral
      exact spelled_literal hliteral
  · rw [Tree.fill_eq_self t (placeholders_value h hkind)]
    exact ⟨u, h, hg⟩

/-- **A predicate that is filled in is spelled** at the same level of precedence. -/
theorem spelled_predicate {level : Level} (h : Predicate level u t) (hg : Genuine u) :
    Spelled (Predicate level) (t.fill arguments) := by
  induction h with
  | @comparison u v s l r hl hs hr =>
    simp only [genuine_append, genuine_cons] at hg
    have hkind : s.kind ≠ .placeholder := fun hkind => by simp [hkind, Kind.isComparison] at hs
    obtain ⟨u', hu, hgu⟩ := spelled_value arguments hl hg.1
    obtain ⟨v', hv, hgv⟩ := spelled_value arguments hr hg.2.2
    rw [Tree.fill_mk hkind]
    exact ⟨u' ++ s :: v', .comparison hu hs hv, by simp [hgu, hgv, hg.2.1]⟩
  | @isNull u s n t h hs hn =>
    simp only [genuine_append] at hg
    obtain ⟨u', hu, hgu⟩ := spelled_value arguments h hg.1
    rw [Tree.fill_word]
    exact ⟨u' ++ [s, n], .isNull hu hs hn, by simpa [hgu] using hg.2⟩
  | @isNotNull u s m n t h hs hm hn =>
    simp only [genuine_append] at hg
    obtain ⟨u', hu, hgu⟩ := spelled_value arguments h hg.1
    rw [Tree.fill_word]
    exact ⟨u' ++ [s, m, n], .isNotNull hu hs hm hn, by simpa [hgu] using hg.2⟩
  | @literal u t h ht =>
    have hkind : t.kind ≠ .placeholder := fun hkind => by
      rcases kind_of_standsAlone ht with hk | hk | hk <;> simp [hk] at hkind
    rw [Tree.fill_eq_self t (placeholders_value h hkind)]
    exact ⟨u, .literal h ht, hg⟩
  | @parens o c u t ho h hc ih =>
    simp only [List.cons_append, genuine_cons, genuine_append] at hg
    obtain ⟨u', hu, hgu⟩ := ih hg.2.1
    exact ⟨o :: u' ++ [c], .parens ho hu hc, by simp [hgu, hg.1, hg.2.2.1]⟩
  | ofAtom h ih =>
    obtain ⟨u', hu, hgu⟩ := ih hg
    exact ⟨u', .ofAtom hu, hgu⟩
  | ofConjunction h ih =>
    obtain ⟨u', hu, hgu⟩ := ih hg
    exact ⟨u', .ofConjunction hu, hgu⟩
  | @and u v a l r hl ha hr ihl ihr =>
    simp only [genuine_append, genuine_cons] at hg
    obtain ⟨u', hu, hgu⟩ := ihl hg.1
    obtain ⟨v', hv, hgv⟩ := ihr hg.2.2
    rw [Tree.fill_word]
    exact ⟨u' ++ a :: v', .and hu ha hv, by simp [hgu, hgv, hg.2.1]⟩
  | @or u v o l r hl ho hr ihl ihr =>
    simp only [genuine_append, genuine_cons] at hg
    obtain ⟨u', hu, hgu⟩ := ihl hg.1
    obtain ⟨v', hv, hgv⟩ := ihr hg.2.2
    rw [Tree.fill_word]
    exact ⟨u' ++ o :: v', .or hu ho hv, by simp [hgu, hgv, hg.2.1]⟩

/-- A filter that is filled in is spelled. -/
theorem spelled_filter {k : Keyword} (h : Filter k u t) (hg : Genuine u) :
    Spelled (Filter k) (t.fill arguments) := by
  obtain @⟨w, u, p, hw, hp⟩ := h
  rw [genuine_cons] at hg
  obtain ⟨u', hu, hgu⟩ := spelled_predicate arguments hp hg.2
  rw [Tree.fill_word]
  exact ⟨w :: u', .mk hw hu, by simp [hgu, hg.1]⟩

/-- What stands for a `WHERE` that is left out has nothing to fill in. -/
theorem fill_implicitWhere : Tree.implicitWhere.fill arguments = .implicitWhere :=
  Tree.fill_eq_self _ (by simp [Tree.implicitWhere])

/-- A `WHERE` that is filled in is spelled, written or left out. -/
theorem spelled_where (h : Where u t) (hg : Genuine u) : Spelled Where (t.fill arguments) := by
  cases h with
  | none =>
    rw [fill_implicitWhere]
    exact ⟨[], .none, genuine_nil⟩
  | some h =>
    obtain ⟨u', hu, hgu⟩ := spelled_filter arguments h hg
    exact ⟨u', .some hu, hgu⟩

/-- A join that is filled in is spelled, with its condition. -/
theorem spelled_join (h : Join u t) (hg : Genuine u) : Spelled Join (t.fill arguments) := by
  obtain @⟨u, v, w, marks, table, on, ho, ht, hp⟩ := h
  simp only [genuine_append] at hg
  obtain ⟨w', hw, hgw⟩ := spelled_filter arguments hp hg.2
  have hmarks : marks.map (·.fill arguments) = marks :=
    Tree.map_fill_eq_self marks (by cases ho <;> simp)
  have htable : table.fill arguments = table :=
    Tree.fill_eq_self table (Arguments.placeholders_ofTable ht)
  rw [Tree.fill_word, List.map_append, hmarks, List.map_cons, htable]
  exact ⟨u ++ v ++ w', .mk ho ht hw, by simp [hgw, hg.1]⟩

/-- The clauses of a query are spelled when their `WHERE` is filled in. -/
theorem spelled_clauses {c : Parser.Clauses} (h : Clauses u c) (hg : Genuine u) :
    Spelled Clauses ⟨c.filter.fill arguments, c.others⟩ := by
  induction h with
  | none =>
    rw [fill_implicitWhere]
    exact ⟨[], .none, genuine_nil⟩
  | @filter u v c t h hf ht ih =>
    simp only [genuine_append] at hg
    obtain ⟨u', hu, hgu⟩ := ih hg.1
    obtain ⟨v', hv, hgv⟩ := spelled_filter arguments ht hg.2
    have himplicit : c.filter.fill arguments = .implicitWhere := by rw [hf, fill_implicitWhere]
    exact ⟨u' ++ v', Clauses.filter (c := ⟨c.filter.fill arguments, c.others⟩) hu himplicit hv,
      by simp [hgu, hgv]⟩
  | @other u v c t h ht ih =>
    simp only [genuine_append] at hg
    obtain ⟨u', hu, hgu⟩ := ih hg.1
    exact ⟨u' ++ v, .other hu ht, by simp [hgu, hg.2]⟩

/-- A tuple that is filled in is spelled. -/
theorem spelled_tuple (h : Tuple u t) (hg : Genuine u) : Spelled Tuple (t.fill arguments) := by
  obtain @⟨o, c, u, values, ho, hv, hc⟩ := h
  simp only [List.cons_append, genuine_cons, genuine_append] at hg
  obtain ⟨u', hu, hgu⟩ := spelled_commaList (spelled_value arguments) hv hg.2.1
  rw [Tree.fill_mk (by simp)]
  exact ⟨o :: u' ++ [c], .mk ho hu hc, by simp [hgu, hg.1, hg.2.2.1]⟩

/-- An assignment that is filled in is spelled. -/
theorem spelled_assignment (h : Assignment u t) (hg : Genuine u) :
    Spelled Assignment (t.fill arguments) := by
  obtain @⟨t, s, n, u, v, ht, hs, hv⟩ := h
  simp only [genuine_cons] at hg
  obtain ⟨u', hu, hgu⟩ := spelled_value arguments hv hg.2.2
  rw [Tree.fill_mk (by simp)]
  exact ⟨t :: s :: u', .mk ht hs hu, by simp [hgu, hg.1, hg.2.1]⟩

/-- A modifier that is filled in is spelled, with its default. -/
theorem spelled_modifier (h : Modifier u t) (hg : Genuine u) :
    Spelled Modifier (t.fill arguments) := by
  cases h with
  | @default d u v hd hv =>
    rw [genuine_cons] at hg
    obtain ⟨u', hu, hgu⟩ := spelled_value arguments hv hg.2
    rw [Tree.fill_word]
    exact ⟨d :: u', .default hd hu, by simp [hgu, hg.1]⟩
  | flag h hk =>
    rw [Tree.fill_eq_self _ (by simp)]
    exact ⟨_, .flag h hk, hg⟩
  | notNull ht hn =>
    rw [Tree.fill_eq_self _ (by simp)]
    exact ⟨_, .notNull ht hn, hg⟩
  | onUpdate ho ht hn =>
    rw [Tree.fill_eq_self _ (by cases hn <;> simp)]
    exact ⟨_, .onUpdate ho ht hn, hg⟩
  | primaryKey hp hk =>
    rw [Tree.fill_eq_self _ (by simp)]
    exact ⟨_, .primaryKey hp hk, hg⟩

/-- The definition of a column that is filled in is spelled. -/
theorem spelled_columnDefinition (h : ColumnDefinition u t) (hg : Genuine u) :
    Spelled ColumnDefinition (t.fill arguments) := by
  obtain @⟨t, n, u, v, type, modifiers, ht, hu, hm⟩ := h
  simp only [List.cons_append, genuine_cons, genuine_append] at hg
  obtain ⟨v', hv, hgv⟩ := spelled_many (spelled_modifier arguments) hm hg.2.2
  rw [Tree.fill_mk (by simp), List.map_cons,
    Tree.fill_eq_self type (Arguments.placeholders_columnType hu)]
  exact ⟨t :: u ++ v', .mk ht hu hv, by simp [hgv, hg.1, hg.2.1]⟩

/-- The definition of a table that is filled in is spelled. -/
theorem spelled_tableDefinition (h : TableDefinition u t) (hg : Genuine u) :
    Spelled TableDefinition (t.fill arguments) := by
  obtain @⟨t, n, _, columns, ht, @⟨o, c, u, _, ho, hu, hc⟩⟩ := h
  simp only [List.cons_append, genuine_cons, genuine_append] at hg
  obtain ⟨u', hu, hgu⟩ := spelled_commaList (spelled_columnDefinition arguments) hu hg.2.2.1
  rw [Tree.fill_table]
  exact ⟨t :: (o :: u' ++ [c]), .mk ht ⟨ho, hu, hc⟩, by simp [hgu, hg.1, hg.2.1, hg.2.2.2.1]⟩

/-- **A statement whose placeholders are filled in is spelled** as a statement. -/
theorem spelled_statement (h : Statement u t) (hg : Genuine u) :
    Spelled Statement (t.fill arguments) := by
  cases h with
  | @select s f u v w x items tables joins clauses hs hi hf ht hj hc =>
    simp only [List.cons_append, genuine_cons, genuine_append] at hg
    have hitems : items.map (·.fill arguments) = items :=
      Tree.map_fill_eq_self items (Arguments.placeholders_flatMap fun t hmem => by
        obtain ⟨_, ht⟩ := hi.exists_spelled t hmem
        exact Arguments.placeholders_item ht)
    have htables : tables.map (·.fill arguments) = tables :=
      Tree.map_fill_eq_self tables (Arguments.placeholders_flatMap fun t hmem => by
        obtain ⟨_, ht⟩ := ht.exists_spelled t hmem
        exact Arguments.placeholders_ofTable ht)
    have hothers : clauses.others.map (·.fill arguments) = clauses.others :=
      Tree.map_fill_eq_self _ (Arguments.placeholders_flatMap fun t hmem => by
        obtain ⟨_, ht, -⟩ := (forall_of_clauses hc hg.2.2).2 t hmem
        exact Arguments.placeholders_clause ht)
    obtain ⟨w', hw, hgw⟩ := spelled_many (spelled_join arguments) hj hg.2.1.2
    obtain ⟨x', hx, hgx⟩ := spelled_clauses arguments hc hg.2.2
    refine ⟨s :: u ++ f :: v ++ w' ++ x', ?_, by simp [hgw, hgx, hg.1, hg.2.1.1]⟩
    have hselect := Statement.select hs hi hf ht hw hx
    simpa [hitems, htables, hothers] using hselect
  | @insert i o v u w x target tuples returning hi ho ht hv hw hr =>
    simp only [List.cons_append, genuine_cons, genuine_append] at hg
    obtain ⟨w', hw, hgw⟩ := spelled_commaList (spelled_tuple arguments) hw hg.2.2.1.2.2
    have htarget : target.fill arguments = target :=
      Tree.fill_eq_self target (Arguments.placeholders_target ht)
    have hreturning : returning.map (·.fill arguments) = returning :=
      Tree.map_fill_eq_self returning (Arguments.placeholders_returning hr)
    refine ⟨i :: o :: u ++ v :: w' ++ x, ?_, by simp [hgw, hg.1, hg.2.1, hg.2.2.1, hg.2.2.2]⟩
    have hinsert := Statement.insert hi ho ht hv hw hr
    simpa [htarget, hreturning] using hinsert
  | @update t s u v w table clause assignments ht hu hs ha hw =>
    simp only [List.cons_append, genuine_cons, genuine_append] at hg
    obtain ⟨v', hv, hgv⟩ := spelled_commaList (spelled_assignment arguments) ha hg.2.1.2.2
    obtain ⟨w', hw, hgw⟩ := spelled_where arguments hw hg.2.2
    have htable : table.fill arguments = table :=
      Tree.fill_eq_self table (Arguments.placeholders_ofTable hu)
    refine ⟨t :: u ++ s :: v' ++ w', ?_, by simp [hgv, hgw, hg.1, hg.2.1.1, hg.2.1.2.1]⟩
    have hupdate := Statement.update ht hu hs hv hw
    simpa [htable] using hupdate
  | @delete d f u w table clause hd hf hu hw =>
    simp only [List.cons_append, genuine_cons, genuine_append] at hg
    obtain ⟨w', hw, hgw⟩ := spelled_where arguments hw hg.2.2.2
    have htable : table.fill arguments = table :=
      Tree.fill_eq_self table (Arguments.placeholders_ofTable hu)
    refine ⟨d :: f :: u ++ w', ?_, by simp [hgw, hg.1, hg.2.1, hg.2.2.1]⟩
    have hdelete := Statement.delete hd hf hu hw
    simpa [htable] using hdelete
  | truncate ht hs hu =>
    rw [Tree.fill_eq_self _ (by simp [Arguments.placeholders_ofTable hu])]
    exact ⟨_, .truncate ht hs hu, hg⟩
  | drop hd ht hc hu =>
    rw [Tree.fill_eq_self _
      (by simp [Arguments.placeholders_condition hc, Arguments.placeholders_ofTable hu])]
    exact ⟨_, .drop hd ht hc hu, hg⟩
  | @create c t u v condition table hc ht hi hu =>
    simp only [List.cons_append, genuine_cons, genuine_append] at hg
    obtain ⟨v', hv, hgv⟩ := spelled_tableDefinition arguments hu hg.2.2.2
    have hcondition : condition.map (·.fill arguments) = condition :=
      Tree.map_fill_eq_self condition (Arguments.placeholders_condition hi)
    refine ⟨c :: t :: u ++ v', ?_, by simp [hgv, hg.1, hg.2.1, hg.2.2.1]⟩
    have hcreate := Statement.create hc ht hi hv
    simpa [hcondition] using hcreate

end Grammar
end MiniSql
