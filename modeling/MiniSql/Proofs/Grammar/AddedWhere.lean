/-
# A `WHERE` that is added

A `WHERE` can be written where another clause begins, and where the statement ends
(`whole_added`). In the tree it then stands where the implicit one stood (`Refiltered`).

It can be added nowhere else (`whole_added_iff`). What says of all rows that they are meant,
`1 = 1`, `1` or `TRUE`, would otherwise be the beginning of a longer predicate, or stand behind
the semicolon.

| added behind | in | is read as |
| --- | --- | --- |
| `FROM t` | `SELECT * FROM t LIMIT 1` | the `WHERE` |
| `LIMIT 1` | `SELECT * FROM t LIMIT 1` | the `WHERE` |
| `ON a = b` | `SELECT * FROM t JOIN s ON a = b AND c = d` | the beginning of `WHERE 1 AND c = d` |
-/

import MiniSql.Proofs.Grammar.OneWhere
import MiniSql.Proofs.Plan.ClauseOrder
import MiniSql.Proofs.Plan.Filtered

namespace MiniSql
namespace Grammar

open Spells

/-- Trees of one statement that have different predicates in their `WHERE`s. -/
inductive Refiltered (p p' : Tree) : Tree → Tree → Prop
  | select (ts : List Tree) {others : List Tree} (h : ∀ t ∈ others, ∃ u, Clause u t) :
      Refiltered p p' (.word .SELECT (ts ++ .word .WHERE [p] :: others))
        (.word .SELECT (ts ++ .word .WHERE [p'] :: others))
  | update (name : String) (assignments : List Tree) :
      Refiltered p p' (.updateSet name assignments p) (.updateSet name assignments p')
  | delete (name : String) : Refiltered p p' (.deleteFrom name p) (.deleteFrom name p')

/-- The second tree is of a statement that takes a `WHERE`, and has the second predicate in it. -/
theorem Refiltered.right {p p' t t' : Tree} (h : Refiltered p p' t t') :
    t'.kind.isFiltered = true ∧ .word .WHERE [p'] ∈ t'.children := by
  cases h with
  | select ts => exact ⟨rfl, List.mem_append_right ts List.mem_cons_self⟩
  | update => exact ⟨rfl, by simp [Tree.updateSet, Tree.word]⟩
  | delete => exact ⟨rfl, by simp [Tree.deleteFrom, Tree.word]⟩

section Added

variable {v x tail tokens before after : List Token} {Cs Cs₁ Cs₂ : List (List Token)}
  {cs cs₁ cs₂ ts : List Tree} {w : Token} {t t' c p : Tree}

/-- A query without a `WHERE` has the implicit one. -/
theorem ofParts_without (h : wheres cs = []) :
    (Parser.Clauses.ofParts cs).filter = .implicitWhere := by
  rw [Parser.Clauses.ofParts, h]
  rfl

/-- Clauses of which one is a `WHERE`. -/
theorem wheres_added (hc : c.isWord .WHERE = true) (h : wheres (cs₁ ++ cs₂) = []) :
    wheres (cs₁ ++ c :: cs₂) = [c] ∧ Parser.Clauses.ofParts (cs₁ ++ c :: cs₂) =
      ⟨c, (Parser.Clauses.ofParts (cs₁ ++ cs₂)).others⟩ := by
  obtain ⟨h₁, h₂⟩ := List.append_eq_nil_iff.1 ((List.filter_append _ _).symm.trans h)
  simp [Parser.Clauses.ofParts, wheres, hc, h₁, h₂]

/-- Where no `WHERE` is written there is the implicit one. -/
theorem where_absent (h : Where x c) (hno : NoWhere x) : x = [] ∧ c = .implicitWhere := by
  cases h with
  | none => exact ⟨rfl, rfl⟩
  | some h =>
    obtain ⟨hw, -⟩ := h
    exact absurd hw (noWhere_cons.1 hno).1

/-- The statement is cut into pieces, and a `WHERE` may be added before and behind any of them. -/
structure TakesWhere (v : List Token) (Cs : List (List Token)) (t : Tree) : Prop where
  inner : Inner v
  pieces : ∀ C ∈ Cs, Piece C
  added : ∀ Cs₁ Cs₂ x p, Cs = Cs₁ ++ Cs₂ → Filter .WHERE x (.word .WHERE [p]) →
    ∃ t', Statement (v ++ (Cs₁ ++ x :: Cs₂).flatten) t' ∧ Refiltered (.leaf .number "1") p t t'

/-- A statement without pieces takes it at its end. -/
theorem TakesWhere.atEnd (hv : Inner v) (h : ∀ x p, Filter .WHERE x (.word .WHERE [p]) →
    ∃ t', Statement (v ++ x) t' ∧ Refiltered (.leaf .number "1") p t t') : TakesWhere v [] t := by
  refine ⟨hv, fun _ h => (nomatch h), fun Cs₁ Cs₂ x p hCs hp => ?_⟩
  obtain ⟨rfl, rfl⟩ := List.append_eq_nil_iff.1 hCs.symm
  rw [List.nil_append, List.flatten_singleton]
  exact h x p hp

/-- A query takes it between its clauses. -/
theorem TakesWhere.betweenClauses (hv : Head v ts) (hCs : List.Forall₂ Part Cs cs)
    (hnone : wheres cs = []) : TakesWhere v Cs (.selectOf ts cs) := by
  refine ⟨inner_head hv, pieces_of_parts hCs, ?_⟩
  rintro Cs₁ Cs₂ x p rfl hc
  obtain ⟨cs₁, cs₂, rfl, h₁, h₂⟩ := parts_append hCs
  obtain ⟨hwheres, hadded⟩ := wheres_added (isWord_of_filter hc) hnone
  have hone : OneWhere (cs₁ ++ .word .WHERE [p] :: cs₂) := by
    rw [OneWhere, hwheres]
    exact List.forall_mem_nil _
  refine ⟨.selectOf ts (cs₁ ++ .word .WHERE [p] :: cs₂), (statement_select_iff.2
    ⟨v, ts, _, _, rfl, hv, List.rel_append h₁ (.cons (.inl hc) h₂), hone, rfl⟩).1, ?_⟩
  rw [Tree.selectOf, Tree.selectOf, hadded, ofParts_without hnone]
  exact .select ts (clause_of_parts hCs)

/-- Every statement that may have a `WHERE`, but has none, takes one. -/
theorem exists_takesWhere (h : Statement tokens t) (hno : NoWhere tokens)
    (hk : t.kind.isFiltered = true) :
    ∃ v Cs, tokens = v ++ List.flatten Cs ∧ TakesWhere v Cs t := by
  cases h with
  | select hs hi hf ht hj hc =>
    obtain ⟨v, ts, Cs, cs, htokens, hv, hCs, -, htree⟩ :=
      (statement_select_iff (t := .word .SELECT _)).1 ⟨.select hs hi hf ht hj hc, rfl⟩
    rw [htokens] at hno
    have hnone : wheres cs = [] := (noWhere_flatten hCs).1 (noWhere_append.1 hno).2
    exact ⟨v, Cs, htokens, htree ▸ .betweenClauses hv hCs hnone⟩
  | update ht hu hs ha hw =>
    obtain ⟨rfl, rfl⟩ := where_absent hw (noWhere_append.1 hno).2
    obtain ⟨hn⟩ := hu
    refine ⟨_, [], rfl, .atEnd ?_ fun x p hp => ⟨_, .update ht ⟨hn⟩ hs ha (.some hp), .update _ _⟩⟩
    exact inner_append.2 ⟨inner_kind ht rfl (inner_name hn inner_nil),
      inner_kind hs rfl (inner_commaList inner_assignment ha)⟩
  | delete hd hf hu hw =>
    obtain ⟨rfl, rfl⟩ := where_absent hw (noWhere_append.1 hno).2
    obtain ⟨hn⟩ := hu
    refine ⟨_, [], rfl, .atEnd ?_ fun x p hp => ⟨_, .delete hd hf ⟨hn⟩ (.some hp), .delete _⟩⟩
    exact inner_kind hd rfl (inner_kind hf rfl (inner_name hn inner_nil))
  | _ => cases hk

/-- **A `WHERE` can be added** before any other clause, and at the end of the statement. -/
theorem whole_added (h : Whole (before ++ after) t) (hno : NoWhere (before ++ after))
    (hk : t.kind.isFiltered = true) (hends : Parser.Ends Kind.opensNoClause after)
    (hbefore : ∀ s ∈ before, s.kind ≠ .semicolon) (hp : Filter .WHERE x (.word .WHERE [p])) :
    ∃ t', Whole (before ++ (x ++ after)) t' ∧ Refiltered (.leaf .number "1") p t t' := by
  obtain ⟨u, tail, htokens, hu, htail⟩ := h
  rw [htokens] at hno
  obtain ⟨v, Cs, rfl, hv, hCs, hadded⟩ := exists_takesWhere hu (noWhere_append.1 hno).1 hk
  rw [List.append_assoc] at htokens
  have hcut : ∃ Cs₁ Cs₂, Cs = Cs₁ ++ Cs₂ ∧ before = v ++ Cs₁.flatten ∧
      after = Cs₂.flatten ++ tail := by
    cases after with
    | nil =>
      rw [List.append_nil] at htokens
      -- Nothing follows, and what ends the statement is not before the place.
      have htail : tail = [] := by
        refine (or_iff_left fun hs => ?_).1 (htail.imp_left List.map_eq_nil_iff.1)
        obtain ⟨s, rfl, hs⟩ := List.map_eq_singleton_iff.1 hs
        exact hbefore s (by simp [htokens]) (List.singleton_inj.1 hs)
      exact ⟨Cs, [], (List.append_nil _).symm, by simpa [htail] using htokens, by simp [htail]⟩
    | cons s after => exact split_cut hv hCs htail hends (List.cons_ne_nil _ _) htokens.symm
  obtain ⟨Cs₁, Cs₂, rfl, rfl, rfl⟩ := hcut
  obtain ⟨t', ht', hrefiltered⟩ := hadded Cs₁ Cs₂ x p rfl hp
  exact ⟨t', ⟨_, tail, by simp, ht', htail⟩, hrefiltered⟩

end Added

/-! ## What says that all rows are meant -/

/-- The tokens are `1 = 1`, `1` or `TRUE`. -/
inductive SaysAll : List Token → Tree → Prop
  | equal {m e n : Token} (hm : m.kind = .number ∧ m.lexeme = "1")
      (he : e.kind = .equal ∧ e.lexeme = "=") (hn : n.kind = .number ∧ n.lexeme = "1") :
      SaysAll [m, e, n] ⟨.equal, "=", [.leaf .number "1", .leaf .number "1"]⟩
  | one {n : Token} (hn : n.kind = .number ∧ n.lexeme = "1") : SaysAll [n] (.leaf .number "1")
  | true {t : Token} (ht : t.kind = .keyword .TRUE) : SaysAll [t] (.word .TRUE [])

section SaysAll

variable {u u' v rest rest' before after : List Token} {w : Token} {level : Level} {p t t' : Tree}

/-- The number 1 is a value. -/
theorem value_one {n : Token} (hn : n.kind = .number ∧ n.lexeme = "1") :
    Spells.Value [n] (.leaf .number "1") := by
  rw [← hn.1, ← hn.2]
  exact .literal (by rw [hn.1]; rfl)

/-- It is a predicate. -/
theorem SaysAll.predicate (h : SaysAll u p) : Predicate .disjunction u p := by
  refine .ofConjunction (.ofAtom ?_)
  cases h with
  | @equal m e n hm he hn =>
    rw [← he.1, ← he.2]
    exact .comparison (value_one hm) (by rw [he.1]; rfl) (value_one hn)
  | one hn => exact .literal (value_one hn) rfl
  | true ht => exact .literal (.word ht rfl) rfl

/-- A predicate that is no connection is an atom. -/
theorem atom_of_predicate (h : Predicate level u p) (hand : p.kind ≠ .keyword .AND)
    (hor : p.kind ≠ .keyword .OR) : Predicate .atom u p := by
  induction h with
  | comparison hl hs hr => exact .comparison hl hs hr
  | isNull h hs hn => exact .isNull h hs hn
  | isNotNull h hs hm hn => exact .isNotNull h hs hm hn
  | literal h ht => exact .literal h ht
  | parens ho h hc => exact .parens ho h hc
  | ofAtom h ih => exact ih hand hor
  | ofConjunction h ih => exact ih hand hor
  | and => exact absurd rfl hand
  | or => exact absurd rfl hor

/-- The number one, and the truth value, are one token each. -/
theorem length_of_value (h : Spells.Value u p) (hp : p = .leaf .number "1" ∨ p = .word .TRUE []) :
    u.length = 1 := by
  cases h with
  | literal => rfl
  | word => rfl
  | @negative m n hm hn =>
    have hlexeme := congrArg Tree.lexeme (hp.resolve_right fun h => nomatch h)
    have hchars : ("-" ++ n.lexeme).toList = "1".toList := congrArg String.toList hlexeme
    rw [String.toList_append] at hchars
    cases hchars
  | now h => rcases hp with rfl | rfl <;> cases h
  | column h => rcases hp with rfl | rfl <;> cases h

/-- It is spelled by as many tokens, but for parentheses around them. -/
theorem SaysAll.length_eq (hu : SaysAll u p) (h : Predicate level v p) (hhead : v.head? = u.head?) :
    v.length = u.length := by
  have hparens {o : Token} (ho : o.kind = .openParen) : u.head? ≠ some o := by
    rintro hsame
    cases hu with
    | equal hm => cases hm.1.symm.trans (Option.some.inj hsame ▸ ho)
    | one hn => cases hn.1.symm.trans (Option.some.inj hsame ▸ ho)
    | true ht => cases ht.symm.trans (Option.some.inj hsame ▸ ho)
  have hatom : Predicate .atom v p := by
    refine atom_of_predicate h ?_ ?_ <;> cases hu <;> exact fun h => nomatch h
  cases hatom with
  | parens ho => exact absurd hhead.symm (hparens ho)
  | literal h ht =>
    cases hu with
    | equal => cases ht
    | one => exact length_of_value h (.inl rfl)
    | true => exact length_of_value h (.inr rfl)
  | isNull => cases hu
  | isNotNull => cases hu
  | @comparison a b s l r hl hs hr =>
    generalize hp : (⟨s.kind, s.lexeme, [l, r]⟩ : Tree) = p at hu
    cases hu with
    | equal =>
      obtain ⟨rfl, rfl⟩ : l = .leaf .number "1" ∧ r = .leaf .number "1" := by
        have hchildren := congrArg Tree.children hp
        exact ⟨(List.cons.inj hchildren).1, List.singleton_inj.1 (List.cons.inj hchildren).2⟩
      simp [length_of_value hl (.inl rfl), length_of_value hr (.inl rfl)]
    | one => exact nomatch congrArg Tree.children hp
    | true => exact nomatch congrArg Tree.children hp

/-- No predicate is spelt by nothing. -/
theorem predicate_ne_nil (h : Predicate level u p) : u ≠ [] := by
  induction h with
  | literal h =>
    cases h with
    | now h => cases h <;> exact List.cons_ne_nil _ _
    | _ => exact List.cons_ne_nil _ _
  | ofAtom _ ih => exact ih
  | ofConjunction _ ih => exact ih
  | _ => simp

/-- Where a predicate that says so is read from a text that goes on, nothing more is read. -/
theorem SaysAll.eq_of_append (hu : SaysAll u p) (h : Predicate level v p)
    (happend : v ++ rest = u ++ after) : v = u ∧ rest = after := by
  obtain ⟨t, v, rfl⟩ := List.exists_cons_of_ne_nil (predicate_ne_nil h)
  obtain ⟨t', u, rfl⟩ := List.exists_cons_of_ne_nil (predicate_ne_nil hu.predicate)
  obtain ⟨rfl, -⟩ := List.cons.inj happend
  exact List.append_inj happend (hu.length_eq h rfl)

/-- **It can be added nowhere else.** -/
theorem whole_added_iff (h : Whole (before ++ after) t) (hno : NoWhere (before ++ after))
    (hk : t.kind.isFiltered = true) (hw : w.kind = .keyword .WHERE) (hu : SaysAll u p) :
    (∃ t', Whole (before ++ w :: (u ++ after)) t' ∧ wheres t'.children = [.word .WHERE [p]]) ↔
      Parser.Ends Kind.opensNoClause after ∧ ∀ s ∈ before, s.kind ≠ .semicolon := by
  constructor
  · rintro ⟨t', h', hread⟩
    obtain ⟨v, u', tail, Cs₁, Cs₂, cs₁, cs₂, c, rfl, htokens, htail, hv, hc, h₁, h₂, hcomposed⟩ :=
      whole_cut_at hw h'
    -- What follows has no `WHERE`, so the one that is read is the one that is added.
    have hnone : wheres cs₂ = [] := by
      have hrest : NoWhere (u' ++ (Cs₂.flatten ++ tail)) :=
        htokens ▸ noWhere_append.2
          ⟨(inner_predicate hu.predicate).noWhere, (noWhere_append.1 hno).2⟩
      exact (noWhere_flatten h₂).1 (noWhere_append.1 (noWhere_append.1 hrest).2).1
    have hlast : (Parser.Clauses.ofParts (cs₁ ++ c :: cs₂)).filter = c := by
      simp only [wheres] at hnone
      simp [Parser.Clauses.ofParts, wheres, isWord_of_filter hc, hnone]
    have hsame : wheres t'.children = [c] := by
      cases hcomposed with
      | select hv => rw [wheres_selectOf hv, hlast]
      | filtered _ _ hwheres => rw [hwheres, hlast]
      | bare _ hcs => simp at hcs
    obtain rfl : c = .word .WHERE [p] := List.singleton_inj.1 (hsame.symm.trans hread)
    cases hc with
    | mk _ hp =>
      obtain ⟨rfl, rfl⟩ := hu.eq_of_append hp htokens.symm
      refine ⟨(ends_flatten (pieces_of_parts h₂)).append htail.ends, fun s hs => ?_⟩
      exact bne_iff_ne.1 (kind_ne_semicolon hv (pieces_of_parts h₁) s hs)
  · rintro ⟨hends, hbefore⟩
    obtain ⟨t', ht', hrefiltered⟩ := whole_added h hno hk hends hbefore (.mk hw hu.predicate)
    obtain ⟨hkind, hmem⟩ := hrefiltered.right
    obtain ⟨c, hone, -⟩ := whole_one ht' hkind
    have hsame : .word .WHERE [p] ∈ wheres t'.children := List.mem_filter.2 ⟨hmem, rfl⟩
    rw [hone, List.mem_singleton] at hsame
    exact ⟨t', ht', hone.trans (by rw [hsame])⟩

end SaysAll

end Grammar
end MiniSql
