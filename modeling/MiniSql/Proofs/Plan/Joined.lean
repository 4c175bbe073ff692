/-
# Planning a join on a condition

A condition between two tables can be written behind their join or into the `WHERE`:

| text | source | filtered by |
| --- | --- | --- |
| `FROM a JOIN b ON p WHERE q` | the join on `p` | `q` |
| `FROM a, b WHERE p AND q` | the product | `p` and `q` |

Both are planned from the same parts in the same order, so they are refused for the same reason, and
what is made of the rows of the source does not depend on the source (`Planning.Draft.onto`). Where
`q` is itself a conjunction the text `p AND q` groups to the left (`Grammar.Conjoins`), which tests
the same predicates in the same order.
-/

import MiniSql.Proofs.Grammar.Precedence
import MiniSql.Proofs.Plan.Accepted
import MiniSql.Proofs.Plan.Placeholders
import MiniSql.Proofs.Query.Join

namespace MiniSql

/-! ## Texts -/

namespace Grammar

open Spells

/-- `JOIN table ON p`, or `LEFT JOIN table ON p` -/
def Tree.joinOn (outer : Bool) (table : String) (p : Tree) : Tree :=
  .word .JOIN ((if outer then [.word .LEFT []] else []) ++ [.table table [], .word .ON [p]])

/-- `SELECT items FROM a JOIN b ON p WHERE q` -/
def Tree.selectJoin (items : List Tree) (a b : String) (p q : Tree) : Tree :=
  .word .SELECT (items ++ .word .FROM [.table a []] ::
    [.joinOn false b p, .word .WHERE [q]])

/-- `SELECT items FROM a, b WHERE c` -/
def Tree.selectProduct (items : List Tree) (a b : String) (c : Tree) : Tree :=
  .word .SELECT (items ++ .word .FROM [.table a [], .table b []] :: [.word .WHERE [c]])

/-- The third predicate is read where the first two are written with `AND` between them. -/
inductive Conjoins (p : Tree) : Tree → Tree → Prop
  | and (q : Tree) : Conjoins p q (.word .AND [p, q])
  | regroup {l r c : Tree} (h : Conjoins p l c) :
      Conjoins p (.word .AND [l, r]) (.word .AND [c, r])

/-- What is spelled with `AND` behind a conjunction groups to the left. -/
theorem exists_conjoins {u v : List Token} {a : Token} {p q : Tree}
    (hp : Predicate .conjunction u p) (ha : a.kind = .keyword .AND) {level : Level}
    (hq : Predicate level v q) : level = .conjunction →
      ∃ c, Predicate .conjunction (u ++ a :: v) c ∧ Conjoins p q c := by
  induction hq with
  | ofAtom h => exact fun _ => ⟨_, .and hp ha h, .and _⟩
  | @and v w a' l r _ ha' hr ih =>
    intro _
    obtain ⟨c, hc, hconjoins⟩ := ih rfl
    have hspelled := Predicate.and hc ha' hr
    rw [List.append_assoc, List.cons_append] at hspelled
    exact ⟨_, hspelled, .regroup hconjoins⟩
  | _ => exact fun h => nomatch h

/-- **A conjunction of two predicates** is read from the text of both, with `AND` between. -/
theorem conjoins_of_spelled {u v : List Token} {a : Token} {p q c : Tree}
    (hp : Predicate .conjunction u p) (ha : a.kind = .keyword .AND)
    (hq : Predicate .conjunction v q) (hc : Predicate .disjunction (u ++ a :: v) c) :
    Conjoins p q c := by
  obtain ⟨c', hc', hconjoins⟩ := exists_conjoins hp ha hq rfl
  rwa [Parser.predicate_unique hc hc']

/-- Nothing behind the `FROM` of a query is another one. -/
theorem not_from_of_part {w x : List Token} {joins : List Tree} {clauses : Parser.Clauses}
    (hj : Many Join w joins) (hc : Clauses x clauses) :
    ∀ t ∈ joins ++ clauses.filter :: clauses.others, t.isWord .FROM = false := by
  obtain ⟨⟨_, hwhere⟩, hothers⟩ := hc.exists_spelled
  intro t ht
  rcases List.mem_append.1 ht with ht | ht
  · obtain ⟨_, ⟨ho, hn, hp⟩⟩ := hj.exists_spelled t ht
    rfl
  · rcases List.mem_cons.1 ht with hfilter | ht
    · rw [← hfilter] at hwhere
      cases hwhere with
      | none => rfl
      | some h =>
        obtain ⟨hw, hp⟩ := h
        rfl
    · obtain ⟨_, hclause⟩ := hothers t ht
      cases hclause with
      | count _ hk => rcases hk with rfl | rfl <;> rfl
      | _ => rfl

/-- What stands before the `FROM` of a text are items. -/
theorem items_of_select {u : List Token} {items tables rest : List Tree}
    (h : Statement u (.word .SELECT (items ++ .word .FROM tables :: rest))) :
    ∀ t ∈ items, ∃ v, Item v t := by
  generalize htree : Tree.word .SELECT (items ++ .word .FROM tables :: rest) = tree at h
  cases h with
  | @select _ _ _ _ _ _ items' tables' joins clauses _ hi _ _ hj hc =>
    have hchildren := congrArg Tree.children htree
    simp only [Tree.word, List.append_assoc, List.cons_append] at hchildren
    rcases List.append_eq_append_iff.1 hchildren with ⟨more, hmore, -⟩ | ⟨more, hmore, hrest⟩
    · intro t ht
      exact hi.exists_spelled t (hmore ▸ List.mem_append_left more ht)
    · cases more with
      | nil =>
        intro t ht
        rw [List.append_nil] at hmore
        exact hi.exists_spelled t (hmore ▸ ht)
      | cons t more =>
        have hmem : Tree.word .FROM tables ∈ joins ++ clauses.filter :: clauses.others := by
          rw [List.cons_append] at hrest
          rw [(List.cons.inj hrest).2]
          exact List.mem_append_right more List.mem_cons_self
        exact absurd (not_from_of_part hj hc _ hmem) (by simp [Tree.isWord, Tree.word])
  | _ => cases htree

end Grammar

/-! ## Predicates -/

namespace Planning

open Grammar (Tree Token Conjoins)
open Grammar.Spells (Item)

variable {arguments : List Value} {p q c t : Tree} {items : List Tree} {u : List Token}

/-- A conjunction is planned from its sides, however it groups, and tests one behind the other. -/
theorem predicate_conjoins (h : Conjoins p q c) : ∃ conj : Expression → Expression → Expression,
    (∀ l r labels row, (conj l r).holds labels row =
      Timed.both (l.holds labels row) (r.holds labels row)) ∧
    predicate arguments c = (do
      let e ← predicate arguments p
      let e' ← predicate arguments q
      return conj e e') := by
  induction h with
  | and q =>
    exact ⟨.and, Expression.holds_and, by rw [Tree.word, predicate_and]⟩
  | @regroup l r c _ ih =>
    obtain ⟨conj, hholds, hc⟩ := ih
    refine ⟨fun e e' => match e' with
      | .and l r => .and (conj e l) r
      | e' => .and e e', fun e e' labels row => ?_, ?_⟩
    · cases e' with
      | and l r =>
        rw [Expression.holds_and, Expression.holds_and, hholds, Timed.both_assoc]
      | _ => exact Expression.holds_and e _ labels row
    · rw [Tree.word, Tree.word, predicate_and, predicate_and, hc]
      cases predicate arguments p with
      | error x => rfl
      | ok e => cases predicate arguments l <;> cases predicate arguments r <;> rfl

/-! ## Drafts -/

namespace Draft

variable {d d' : Draft}

/-- The draft with the rows of a query as its source. -/
def onto (d : Draft) (source : Query) : Draft :=
  { d with source := some source, predicate := none }

/-- An item names no table. -/
theorem source_item (h : Item u t) (hadd : d.add arguments t = .ok d') :
    d'.source = d.source := by
  cases h with
  | star => cases hadd; rfl
  | starOf => cases hadd; rfl
  | countAll => cases hadd; rfl
  | @call t k u a ht hk ha => cases k <;> first | (cases hadd; rfl) | cases hk
  | column h => cases h <;> cases hadd <;> rfl

/-- A join on a condition joins its table with those before it. -/
theorem add_joinOn {left : Query} (outer : Bool) (table : String)
    (hsource : d.source = some left) : d.add arguments (.joinOn outer table p) = (do
      let e ← Planning.predicate arguments p
      return { d with source := some (.join left (.scan table) (some e) outer) }) := by
  have hjoin : join arguments left (.joinOn outer table p) =
      (do return .join left (.scan table) (some (← Planning.predicate arguments p)) outer) := by
    cases outer <;>
      show ((some <$> Planning.predicate arguments p) >>= fun condition => _) = _ <;>
      cases Planning.predicate arguments p <;> rfl
  have hd : d = { d with source := some left } := by rw [← hsource]
  rw [hd]
  show (do return { d with source := some (← join arguments left _) }) = _
  rw [hjoin, bind_assoc]
  rfl

/-- Items leave the tables. -/
theorem source_items (hitems : ∀ t ∈ items, ∃ u, Item u t)
    (h : items.foldlM (Draft.add arguments) d = .ok d') : d'.source = d.source := by
  induction items generalizing d with
  | nil =>
    cases h
    rfl
  | cons t items ih =>
    obtain ⟨⟨_, ht⟩, hitems⟩ := List.forall_mem_cons.1 hitems
    rw [List.foldlM_cons] at h
    obtain ⟨mid, hmid, h⟩ := Except.bind_eq_ok.1 h
    exact (ih hitems h).trans (source_item ht hmid)

end Draft

/-! ## Plans -/

variable {a b : String}

/-- A join on a condition is filtered by the `WHERE`. -/
theorem select_selectJoin (hitems : ∀ t ∈ items, ∃ u, Item u t) :
    select arguments (.selectJoin items a b p q) = (do
      let d ← items.foldlM (Draft.add arguments) {}
      let e ← predicate arguments p
      let e' ← predicate arguments q
      .query <$> (d.onto (.filter (.join (.scan a) (.scan b) (some e) false) e')).query) := by
  rw [select, Tree.selectJoin, Tree.word, List.foldlM_append, bind_assoc]
  cases hread : items.foldlM (Draft.add arguments) {} with
  | error x => rfl
  | ok d =>
    have hfrom : d.add arguments (.word .FROM [.table a []]) =
        .ok { d with source := some (.scan a) } := by
      show Except.ok (d.addTable a) = _
      rw [Draft.addTable, Draft.source_items hitems hread]
    show (List.foldlM (Draft.add arguments) d [_, _, _] >>= _) = _
    rw [List.foldlM_cons, hfrom]
    show (List.foldlM (Draft.add arguments) _ [_, _] >>= _) = _
    rw [List.foldlM_cons, Draft.add_joinOn false b rfl]
    cases predicate arguments p with
    | error x => rfl
    | ok e =>
      show (List.foldlM (Draft.add arguments) _ [Tree.word _ [q]] >>= _) = _
      rw [List.foldlM_cons]
      show (((predicate arguments q >>= _) >>= _) >>= _) = _
      cases predicate arguments q <;> rfl

/-- The product of two tables is. -/
theorem select_selectProduct (hitems : ∀ t ∈ items, ∃ u, Item u t) :
    select arguments (.selectProduct items a b c) = (do
      let d ← items.foldlM (Draft.add arguments) {}
      let e ← predicate arguments c
      .query <$> (d.onto (.filter (.join (.scan a) (.scan b) none false) e)).query) := by
  rw [select, Tree.selectProduct, Tree.word, List.foldlM_append, bind_assoc]
  cases hread : items.foldlM (Draft.add arguments) {} with
  | error x => rfl
  | ok d =>
    have hfrom : d.add arguments (.word .FROM [.table a [], .table b []]) =
        .ok { d with source := some (.join (.scan a) (.scan b) none false) } := by
      show Except.ok ((d.addTable a).addTable b) = _
      rw [Draft.addTable, Draft.addTable, Draft.source_items hitems hread]
    show (List.foldlM (Draft.add arguments) d [_, _] >>= _) = _
    rw [List.foldlM_cons, hfrom]
    show (List.foldlM (Draft.add arguments) _ [Tree.word _ [c]] >>= _) = _
    rw [List.foldlM_cons]
    show (((predicate arguments c >>= _) >>= _) >>= _) = _
    cases predicate arguments c <;> rfl

end Planning

/-! ## Texts with their arguments -/

open Grammar (Tree Conjoins)

namespace Arguments

variable {p q c : Tree}

/-- The placeholders of both sides follow each other. -/
theorem placeholders_conjoins (h : Conjoins p q c) :
    placeholders c = placeholders p ++ placeholders q := by
  induction h with
  | and q => simp
  | regroup h ih => simp [ih]

/-- Both texts have the placeholders of the items and of the two predicates. -/
theorem check_selectProduct (h : Conjoins p q c) (items : List Tree) (a b : String) (given : Nat)
    (strict : Bool) :
    check (.selectProduct items a b c) given strict =
      check (.selectJoin items a b p q) given strict := by
  have hplaceholders : placeholders (.selectProduct items a b c) =
      placeholders (.selectJoin items a b p q) := by
    simp [Tree.selectProduct, Tree.selectJoin, Tree.joinOn, placeholders_conjoins h]
  exact check_congr hplaceholders given strict

end Arguments

/-- **A join on a condition and the filtered product** are planned from one draft, or refused for
one reason. -/
theorem Plan.ofText_joined {sql sql' : String} {items : List Tree} {a b : String} {p q c : Tree}
    {arguments : List Value} {strict : Bool}
    (hjoin : Grammar.parse sql = .ok (.selectJoin items a b p q))
    (hproduct : Grammar.parse sql' = .ok (.selectProduct items a b c)) (hc : Conjoins p q c) :
    (∃ x, ofText sql arguments strict = .error x ∧ ofText sql' arguments strict = .error x) ∨
      ∃ (d : Planning.Draft) (e e' both : Expression),
        Planning.predicate arguments p = .ok e ∧
        (∀ labels row, both.holds labels row =
          Timed.both (e.holds labels row) (e'.holds labels row)) ∧
        ofText sql arguments strict =
          .query <$> (d.onto (.filter (.join (.scan a) (.scan b) (some e) false) e')).query ∧
        ofText sql' arguments strict =
          .query <$> (d.onto (.filter (.join (.scan a) (.scan b) none false) both)).query := by
  obtain ⟨_, _, _, hspelled, -⟩ := Grammar.spells_of_parse hjoin
  have hitems := Grammar.items_of_select hspelled
  obtain ⟨conj, hholds, hpredicate⟩ := @Planning.predicate_conjoins arguments _ _ _ hc
  have hplan : ofText sql arguments strict = (do
      Arguments.check (.selectJoin items a b p q) arguments.length strict
      Planning.select arguments (.selectJoin items a b p q)) := by
    rw [ofText, hjoin]
    rfl
  have hplan' : ofText sql' arguments strict = (do
      Arguments.check (.selectJoin items a b p q) arguments.length strict
      Planning.select arguments (.selectProduct items a b c)) := by
    rw [← Arguments.check_selectProduct hc, ofText, hproduct]
    rfl
  rw [hplan, hplan', Planning.select_selectJoin hitems, Planning.select_selectProduct hitems,
    hpredicate]
  cases Arguments.check (.selectJoin items a b p q) arguments.length strict with
  | error x => exact .inl ⟨x, rfl, rfl⟩
  | ok _ =>
    cases items.foldlM (Planning.Draft.add arguments) {} with
    | error x => exact .inl ⟨x, rfl, rfl⟩
    | ok d =>
      cases Planning.predicate arguments p with
      | error x => exact .inl ⟨x, rfl, rfl⟩
      | ok e =>
        cases Planning.predicate arguments q with
        | error x => exact .inl ⟨x, rfl, rfl⟩
        | ok e' => exact .inr ⟨d, e, e', conj e e', rfl, hholds e e', rfl, rfl⟩

end MiniSql
