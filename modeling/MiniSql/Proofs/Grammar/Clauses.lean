/-
# The clauses of a query, cut apart

Behind the tables and joins of a query each clause starts with a word of its own, and no such word
stands anywhere else: it is reserved, so that it names nothing, and no other part of the grammar has
it. So the tokens of a query are cut in one way only, into those before its clauses and one piece
for each clause (`pieces_unique`).

| piece | adds |
| --- | --- |
| `WHERE p` | its predicate, in place of the one before it, which must be the implicit one |
| any other | its tree, behind those before it |

The clauses that are read are therefore told by the list of their trees alone (`clauses_iff`): the
`WHERE` is the last of the list, the ones before it say `WHERE 1`, and the others stand in order.
-/

import MiniSql.Proofs.Grammar.Aspect
import MiniSql.Proofs.Grammar.Scan
import Mathlib.Data.List.Forall2

namespace MiniSql
namespace Grammar

open Spells

/-! ## Tokens that open no clause -/

/-- No token opens a clause or ends the statement. -/
def Inner (u : List Token) : Prop := ∀ t ∈ u, t.kind.opensNoClause = true

instance (u : List Token) : Decidable (Inner u) :=
  inferInstanceAs (Decidable (∀ t ∈ u, t.kind.opensNoClause = true))

section Inner

variable {t : Token} {u v : List Token}

/-- No tokens open no clause. -/
@[simp] theorem inner_nil : Inner [] := by simp [Inner]

/-- Tokens open no clause if the first does not and the others do not. -/
@[simp] theorem inner_cons : Inner (t :: u) ↔ t.kind.opensNoClause = true ∧ Inner u := by
  simp [Inner]

/-- Two parts in a row open no clause if neither part does. -/
@[simp] theorem inner_append : Inner (u ++ v) ↔ Inner u ∧ Inner v := by
  simp only [Inner, List.mem_append]
  exact ⟨fun h => ⟨fun t ht => h t (.inl ht), fun t ht => h t (.inr ht)⟩,
    fun h t ht => ht.elim (h.1 t) (h.2 t)⟩

/-- The words that open a clause are reserved. -/
theorem opensNoClause_of_name {n : String} (h : t.name? = some n) :
    t.kind.opensNoClause = true := by
  rcases Token.kind_of_name? h with hk | hk | ⟨k, hk, hr⟩
  · rw [hk]
    rfl
  · rw [hk]
    rfl
  · rw [hk]
    cases k <;> first | rfl | cases hr

/-- A name opens no clause, so it may stand in front of tokens that open none. -/
theorem inner_name {n : String} (h : t.name? = some n) (hu : Inner u) : Inner (t :: u) :=
  inner_cons.2 ⟨opensNoClause_of_name h, hu⟩

/-- A token of a kind that opens no clause may stand in front of tokens that open none. -/
theorem inner_kind {k : Kind} (h : t.kind = k) (hk : k.opensNoClause = true) (hu : Inner u) :
    Inner (t :: u) :=
  inner_cons.2 ⟨h ▸ hk, hu⟩

/-- A column is made of names and a full stop. -/
theorem inner_column {c : Tree} (h : Column u c) : Inner u := by
  cases h with
  | plain h => exact inner_name h inner_nil
  | qualified ht hd hc => exact inner_name ht (inner_kind hd rfl (inner_name hc inner_nil))

/-- The name of a node is a name. -/
theorem inner_nameOf {node : String → Tree} {c : Tree} (h : Name node u c) : Inner u := by
  obtain ⟨h⟩ := h
  exact inner_name h inner_nil

/-- Brackets open no clause if what stands in them does not. -/
theorem inner_parens {α : Type} {G : List Token → α → Prop} {a : α}
    (hG : ∀ {u a}, G u a → Inner u) (h : Parens G u a) : Inner u := by
  obtain ⟨ho, h, hc⟩ := h
  exact inner_kind ho rfl (inner_append.2 ⟨hG h, inner_kind hc rfl inner_nil⟩)

/-- A value opens none in each of its forms. -/
theorem inner_value {c : Tree} (h : Value u c) : Inner u := by
  cases h with
  | @literal t h =>
    refine inner_kind rfl ?_ inner_nil
    cases hk : t.kind <;> first | rfl | (rw [hk] at h; cases h)
  | negative hm hn => exact inner_kind hm rfl (inner_kind hn rfl inner_nil)
  | @word t k h hk => exact inner_kind h (by cases k <;> first | rfl | cases hk) inner_nil
  | now h =>
    cases h with
    | word h => exact inner_kind h rfl inner_nil
    | now ht ho hc => exact inner_kind ht rfl (inner_kind ho rfl (inner_kind hc rfl inner_nil))
  | column h ht => exact inner_column h

/-- **A predicate opens no clause,** by induction on how it is spelled. -/
theorem inner_predicate {level : Level} {p : Tree} (h : Predicate level u p) : Inner u := by
  induction h with
  | @comparison u v s l r hl hs hr =>
    refine inner_append.2 ⟨inner_value hl, inner_kind rfl ?_ (inner_value hr)⟩
    cases hk : s.kind <;> first | rfl | (rw [hk] at hs; cases hs)
  | isNull h hs hn =>
    exact inner_append.2 ⟨inner_value h, inner_kind hs rfl (inner_kind hn rfl inner_nil)⟩
  | isNotNull h hs hm hn =>
    exact inner_append.2
      ⟨inner_value h, inner_kind hs rfl (inner_kind hm rfl (inner_kind hn rfl inner_nil))⟩
  | literal h ht => exact inner_value h
  | parens ho h hc ih => exact inner_kind ho rfl (inner_append.2 ⟨ih, inner_kind hc rfl inner_nil⟩)
  | ofAtom h ih => exact ih
  | and hl ha hr ihl ihr => exact inner_append.2 ⟨ihl, inner_kind ha rfl ihr⟩
  | ofConjunction h ih => exact ih
  | or hl ho hr ihl ihr => exact inner_append.2 ⟨ihl, inner_kind ho rfl ihr⟩

/-- What is selected opens no clause. -/
theorem inner_item {i : Tree} (h : Item u i) : Inner u := by
  cases h with
  | star h => exact inner_kind h rfl inner_nil
  | starOf ht hd hs => exact inner_name ht (inner_kind hd rfl (inner_kind hs rfl inner_nil))
  | countAll ht ho hs hc =>
    exact inner_kind ht rfl (inner_kind ho rfl (inner_kind hs rfl (inner_kind hc rfl inner_nil)))
  | @call t k u a ht hk ha =>
    refine inner_kind ht ?_ (inner_parens inner_column ha)
    cases k <;> first | rfl | cases hk
  | column h => exact inner_column h

/-- A sort key opens no clause, since its directions are words of its own. -/
theorem inner_sortKey {key : Tree} (h : SortKey u key) : Inner u := by
  cases h with
  | unmarked h => exact inner_column h
  | marked h hd hk =>
    exact inner_append.2
      ⟨inner_column h, inner_kind hd (by rcases hk with rfl | rfl <;> rfl) inner_nil⟩

/-- What a join opens with belongs to the join. -/
theorem inner_opening {marks : List Tree} (h : Opening u marks) : Inner u := by
  cases h with
  | left hl hj => exact inner_kind hl rfl (inner_kind hj rfl inner_nil)
  | leftOuter hl ho hj => exact inner_kind hl rfl (inner_kind ho rfl (inner_kind hj rfl inner_nil))
  | inner hi hj => exact inner_kind hi rfl (inner_kind hj rfl inner_nil)
  | plain hj => exact inner_kind hj rfl inner_nil

/-- A join opens no clause. -/
theorem inner_join {j : Tree} (h : Join u j) : Inner u := by
  obtain ⟨ho, ht, ⟨hw, hp⟩⟩ := h
  exact inner_append.2 ⟨inner_append.2 ⟨inner_opening ho, inner_nameOf ht⟩,
    inner_kind hw rfl (inner_predicate hp)⟩

variable {α : Type} {G : List Token → α → Prop} {as : List α}

/-- A list opens no clause if its items do not. -/
theorem inner_commaList (hG : ∀ {u a}, G u a → Inner u) (h : CommaList G u as) : Inner u := by
  induction h with
  | one h => exact hG h
  | more h hc hs ih => exact inner_append.2 ⟨hG h, inner_kind hc rfl ih⟩

/-- Items in a row open no clause if none of them does. -/
theorem inner_many (hG : ∀ {u a}, G u a → Inner u) (h : Many G u as) : Inner u := by
  induction h with
  | none => exact inner_nil
  | more hs h ih => exact inner_append.2 ⟨ih, hG h⟩

end Inner

/-! ## Pieces -/

/-- A word that opens a clause, and the tokens behind it as far as the next such word. -/
inductive Piece : List Token → Prop
  | mk {w : Token} {v : List Token} (hw : w.kind.opensNoClause = false)
      (hs : w.kind ≠ .semicolon) (hv : Inner v) : Piece (w :: v)

/-- A piece is a word that opens a clause, in front of tokens that open none. -/
theorem piece_cons {w : Token} {v : List Token} : Piece (w :: v) ↔
    w.kind.opensNoClause = false ∧ w.kind ≠ .semicolon ∧ Inner v := by
  constructor
  · rintro ⟨hw, hs, hv⟩
    exact ⟨hw, hs, hv⟩
  · rintro ⟨hw, hs, hv⟩
    exact .mk hw hs hv

instance : DecidablePred Piece
  | [] => .isFalse fun h => nomatch h
  | _ :: _ => decidable_of_iff _ piece_cons.symm

/-- A clause of a query. -/
def Part (u : List Token) (t : Tree) : Prop := Filter .WHERE u t ∨ Clause u t

/-- A clause is one piece, and its tree tells the word that opens it. -/
theorem piece_of_part {u : List Token} {t : Tree} (h : Part u t) :
    ∃ w v, u = w :: v ∧ w.kind = t.kind ∧ Piece u := by
  rcases h with ⟨hw, hp⟩ | h
  · exact ⟨_, _, rfl, hw, .mk (by rw [hw]; rfl) (by simp [hw]) (inner_predicate hp)⟩
  · cases h with
    | order ho hb hk =>
      have hkeys := inner_commaList inner_sortKey hk
      exact ⟨_, _, rfl, ho, .mk (by rw [ho]; rfl) (by simp [ho]) (inner_kind hb rfl hkeys)⟩
    | count ht hk hn hc =>
      refine ⟨_, _, rfl, ht, .mk ?_ (by simp [ht]) (inner_kind hn rfl inner_nil)⟩
      rcases hk with rfl | rfl <;> rw [ht] <;> rfl
    | forUpdate hf hu =>
      exact ⟨_, _, rfl, hf, .mk (by rw [hf]; rfl) (by simp [hf]) (inner_kind hu rfl inner_nil)⟩

/-- What stands before the first word that opens a clause is told by the tokens. -/
theorem inner_append_inj {u v rest rest' : List Token} (hu : Inner u) (hv : Inner v)
    (hr : Parser.Ends Kind.opensNoClause rest) (hr' : Parser.Ends Kind.opensNoClause rest')
    (h : u ++ rest = v ++ rest') : u = v ∧ rest = rest' := by
  have htokens := takeWhile_append_stop hu hr
  rw [h] at htokens
  obtain ⟨htake, hdrop⟩ := takeWhile_append_stop hv hr'
  exact ⟨htokens.1.symm.trans htake, htokens.2.symm.trans hdrop⟩

/-- Pieces end what stands before them, and so does the end of the text. -/
theorem ends_flatten {Cs : List (List Token)} (hCs : ∀ C ∈ Cs, Piece C) :
    Parser.Ends Kind.opensNoClause Cs.flatten := by
  cases Cs with
  | nil => simp [Parser.Ends]
  | cons C Cs =>
    obtain ⟨hw, -, -⟩ := hCs C List.mem_cons_self
    exact Parser.ends_cons.2 hw

/-- **Tokens are cut into pieces in one way.** -/
theorem pieces_unique {u v : List Token} {Cs Ds : List (List Token)} (hu : Inner u) (hv : Inner v)
    (hCs : ∀ C ∈ Cs, Piece C) (hDs : ∀ D ∈ Ds, Piece D) (h : u ++ Cs.flatten = v ++ Ds.flatten) :
    u = v ∧ Cs = Ds := by
  induction Cs generalizing u v Ds with
  | nil =>
    obtain ⟨rfl, hrest⟩ := inner_append_inj hu hv (ends_flatten hCs) (ends_flatten hDs) h
    cases Ds with
    | nil => exact ⟨rfl, rfl⟩
    | cons D Ds =>
      obtain ⟨-, -, -⟩ := hDs D List.mem_cons_self
      cases hrest
  | cons C Cs ih =>
    obtain ⟨rfl, hrest⟩ := inner_append_inj hu hv (ends_flatten hCs) (ends_flatten hDs) h
    obtain ⟨hC, hCs'⟩ := List.forall_mem_cons.1 hCs
    cases Ds with
    | nil =>
      cases hC
      cases hrest
    | cons D Ds =>
      obtain ⟨hD, hDs'⟩ := List.forall_mem_cons.1 hDs
      cases hC with
      | mk hw hs hi =>
        cases hD with
        | mk hw' hs' hi' =>
          rw [List.flatten_cons, List.flatten_cons, List.cons_append, List.cons_append] at hrest
          obtain ⟨rfl, hflat⟩ := List.cons.inj hrest
          obtain ⟨rfl, rfl⟩ := ih hi hi' hCs' hDs' hflat
          exact ⟨rfl, rfl⟩

/-! ## Clauses by their trees -/

/-- The `WHERE`s among some clauses. -/
def wheres (ts : List Tree) : List Tree := ts.filter (·.isWord .WHERE)

/-- The clauses of a query whose pieces have these trees. -/
def Parser.Clauses.ofParts (ts : List Tree) : Parser.Clauses :=
  ⟨(wheres ts).getLast?.getD .implicitWhere, ts.filter (!·.isWord .WHERE)⟩

/-- Each `WHERE` but the last says what the implicit one says. -/
def OneWhere (ts : List Tree) : Prop := ∀ t ∈ (wheres ts).dropLast, t = .implicitWhere

/-- A `WHERE` is known by its word. -/
theorem isWord_of_filter {u : List Token} {t : Tree} (h : Filter .WHERE u t) :
    t.isWord .WHERE = true := by
  obtain ⟨hw, hp⟩ := h
  rfl

/-- No other clause has that word. -/
theorem isWord_of_clause {u : List Token} {t : Tree} (h : Clause u t) :
    t.isWord .WHERE = false := by
  cases h with
  | count _ hk => rcases hk with rfl | rfl <;> rfl
  | _ => rfl

/-- The predicate of a query is a `WHERE`, written or not. -/
theorem isWord_ofParts (ts : List Tree) :
    (Parser.Clauses.ofParts ts).filter.isWord .WHERE = true := by
  show ((wheres ts).getLast?.getD .implicitWhere).isWord .WHERE = true
  cases hlast : (wheres ts).getLast? with
  | none => rfl
  | some t => exact (List.mem_filter.1 (List.mem_of_getLast? hlast)).2

/-- If the last `WHERE` is the implicit one, all are. -/
theorem forall_wheres_iff {ts : List Tree} :
    (∀ t ∈ wheres ts, t = .implicitWhere) ↔
      OneWhere ts ∧ (Parser.Clauses.ofParts ts).filter = .implicitWhere := by
  unfold OneWhere Parser.Clauses.ofParts
  rcases List.eq_nil_or_concat (wheres ts) with h | ⟨init, last, h⟩
  · simp [h]
  · rw [h, List.concat_eq_append, List.forall_mem_append, List.dropLast_concat,
      List.getLast?_concat, List.forall_mem_singleton]
    rfl

/-- **The clauses of a query are told by the trees of its pieces.** -/
theorem clauses_iff {u : List Token} {c : Parser.Clauses} : Clauses u c ↔
    ∃ ts, Many Part u ts ∧ OneWhere ts ∧ c = .ofParts ts := by
  constructor
  · intro h
    induction h with
    | none => exact ⟨[], .none, by simp [OneWhere, wheres], rfl⟩
    | @filter u v c t h hf ht ih =>
      obtain ⟨ts, hts, hone, rfl⟩ := ih
      have hsame := forall_wheres_iff.2 ⟨hone, hf⟩
      have hword := isWord_of_filter ht
      refine ⟨ts ++ [t], hts.more (.inl ht), ?_, ?_⟩
      · simpa [OneWhere, wheres, hword] using hsame
      · simp [Parser.Clauses.ofParts, wheres, hword]
    | @other u v c t h ht ih =>
      obtain ⟨ts, hts, hone, rfl⟩ := ih
      have hword := isWord_of_clause ht
      refine ⟨ts ++ [t], hts.more (.inr ht), ?_, ?_⟩
      · simpa [OneWhere, wheres, hword] using hone
      · simp [Parser.Clauses.ofParts, Parser.Clauses.add, wheres, hword]
  · rintro ⟨ts, hts, hone, rfl⟩
    induction hts with
    | none => exact .none
    | @more u v ts t hts ht ih =>
      rcases ht with ht | ht
      · have hword := isWord_of_filter ht
        have hsame : ∀ t ∈ wheres ts, t = .implicitWhere := by
          simpa [OneWhere, wheres, hword] using hone
        obtain ⟨hone, hfilter⟩ := forall_wheres_iff.1 hsame
        have hspelled := (ih hone).filter hfilter ht
        simpa [Parser.Clauses.ofParts, wheres, hword] using hspelled
      · have hword := isWord_of_clause ht
        have hone : OneWhere ts := by
          simpa [OneWhere, wheres, hword] using hone
        have hspelled := (ih hone).other ht
        simpa [Parser.Clauses.ofParts, Parser.Clauses.add, wheres, hword]
          using hspelled

/-! ## Queries by their pieces -/

/-- Parts behind one another are spelled by pieces behind one another. -/
theorem many_iff_flatten {α : Type} {G : List Token → α → Prop} {u : List Token} {as : List α} :
    Many G u as ↔ ∃ Cs : List (List Token), u = Cs.flatten ∧ List.Forall₂ G Cs as := by
  constructor
  · intro h
    induction h with
    | none => exact ⟨[], rfl, .nil⟩
    | @more u v as a hs h ih =>
      obtain ⟨Cs, rfl, hCs⟩ := ih
      exact ⟨Cs ++ [v], by simp, List.rel_append hCs (.cons h .nil)⟩
  · rintro ⟨Cs, rfl, hCs⟩
    have hcons {u v : List Token} {a : α} {as : List α} (ha : G v a) (h : Many G u as) :
        Many G (v ++ u) (a :: as) := by
      induction h with
      | none => simpa using Many.none.more ha
      | more hs h ih => simpa using ih.more h
    induction hCs with
    | nil => exact .none
    | cons ha _ ih => exact hcons ha ih

/-- What stands before the clauses of a query, and the parts of the tree that it spells. -/
inductive Head : List Token → List Tree → Prop
  | mk {s f : Token} {u v w : List Token} {items tables joins : List Tree}
      (hs : s.kind = .keyword .SELECT) (hi : CommaList Item u items)
      (hf : f.kind = .keyword .FROM) (ht : CommaList Table v tables) (hj : Many Join w joins) :
      Head (s :: u ++ f :: v ++ w) (items ++ .word .FROM tables :: joins)

/-- What stands before the clauses of a query opens none. -/
theorem inner_head {u : List Token} {ts : List Tree} (h : Head u ts) : Inner u := by
  obtain ⟨hs, hi, hf, ht, hj⟩ := h
  have hitems := inner_kind hs rfl (inner_commaList inner_item hi)
  have htables := inner_kind hf rfl (inner_commaList inner_nameOf ht)
  exact inner_append.2 ⟨inner_append.2 ⟨hitems, htables⟩, inner_many inner_join hj⟩

/-- The tree of a query with these parts and clauses. -/
def Tree.selectOf (ts cs : List Tree) : Tree :=
  .word .SELECT (ts ++ (Parser.Clauses.ofParts cs).filter :: (Parser.Clauses.ofParts cs).others)

/-- A query is its head and a piece for each clause. -/
theorem statement_select_iff {u : List Token} {t : Tree} :
    Statement u t ∧ t.kind = .keyword .SELECT ↔ ∃ v ts Cs cs, u = v ++ List.flatten Cs ∧
      Head v ts ∧ List.Forall₂ Part Cs cs ∧ OneWhere cs ∧ t = .selectOf ts cs := by
  constructor
  · rintro ⟨h, hkind⟩
    cases h with
    | select hs hi hf ht hj hc =>
      obtain ⟨cs, hcs, hone, rfl⟩ := clauses_iff.1 hc
      obtain ⟨Cs, rfl, hCs⟩ := many_iff_flatten.1 hcs
      exact ⟨_, _, Cs, cs, rfl, .mk hs hi hf ht hj, hCs, hone, rfl⟩
    | _ => cases hkind
  · rintro ⟨_, _, Cs, cs, rfl, ⟨hs, hi, hf, ht, hj⟩, hCs, hone, rfl⟩
    have hclauses := clauses_iff.2 ⟨cs, many_iff_flatten.2 ⟨Cs, rfl, hCs⟩, hone, rfl⟩
    exact ⟨.select hs hi hf ht hj hclauses, rfl⟩

/-- Clauses of a query are pieces. -/
theorem pieces_of_parts {Cs : List (List Token)} {cs : List Tree} (h : List.Forall₂ Part Cs cs) :
    ∀ C ∈ Cs, Piece C := by
  induction h with
  | nil => simp
  | cons hC _ ih =>
    obtain ⟨_, _, -, -, hpiece⟩ := piece_of_part hC
    exact List.forall_mem_cons.2 ⟨hpiece, ih⟩

/-- **A query that has been cut into pieces** is read piece by piece. -/
theorem statement_pieces_iff {u : List Token} {Cs : List (List Token)} {t : Tree} (hu : Inner u)
    (hCs : ∀ C ∈ Cs, Piece C) :
    Statement (u ++ Cs.flatten) t ∧ t.kind = .keyword .SELECT ↔ ∃ ts cs, Head u ts ∧
      List.Forall₂ Part Cs cs ∧ OneWhere cs ∧ t = .selectOf ts cs := by
  rw [statement_select_iff]
  constructor
  · rintro ⟨v, ts, Ds, cs, htokens, hv, hDs, hone, rfl⟩
    obtain ⟨rfl, rfl⟩ := pieces_unique hu (inner_head hv) hCs (pieces_of_parts hDs) htokens
    exact ⟨ts, cs, hv, hDs, hone, rfl⟩
  · rintro ⟨ts, cs, hu, hCs, hone, rfl⟩
    exact ⟨u, ts, Cs, cs, rfl, hu, hCs, hone, rfl⟩

/-! ## Whole texts -/

/-- No clause has a semicolon. -/
theorem kind_ne_semicolon {u : List Token} {Cs : List (List Token)} (hu : Inner u)
    (hCs : ∀ C ∈ Cs, Piece C) : ∀ t ∈ u ++ Cs.flatten, (t.kind != .semicolon) = true := by
  have hinner {v : List Token} (hv : Inner v) : ∀ t ∈ v, (t.kind != .semicolon) = true := by
    intro t ht
    have hopens := hv t ht
    rw [bne_iff_ne]
    rintro hk
    rw [hk] at hopens
    cases hopens
  intro t ht
  rcases List.mem_append.1 ht with ht | ht
  · exact hinner hu t ht
  · obtain ⟨C, hC, ht⟩ := List.mem_flatten.1 ht
    cases hCs C hC with
    | mk hw hs hv =>
      rcases List.mem_cons.1 ht with rfl | ht
      · exact bne_iff_ne.2 hs
      · exact hinner hv t ht

/-- A text that has been cut into pieces is a query if and only if its pieces are its clauses. -/
theorem whole_pieces_iff {u tail : List Token} {Cs : List (List Token)} {t : Tree} (hu : Inner u)
    (hCs : ∀ C ∈ Cs, Piece C) (htail : Closing tail) :
    Whole (u ++ Cs.flatten ++ tail) t ∧ t.kind = .keyword .SELECT ↔ ∃ ts cs, Head u ts ∧
      List.Forall₂ Part Cs cs ∧ OneWhere cs ∧ t = .selectOf ts cs := by
  rw [← statement_pieces_iff hu hCs]
  constructor
  · rintro ⟨⟨v, w, htokens, hv, hw⟩, hkind⟩
    have hstop {w : List Token} (h : Closing w) :
        ∀ t ∈ w.head?, (t.kind != .semicolon) = false := by
      rcases h with h | h
      · simp [List.map_eq_nil_iff.1 h]
      · obtain ⟨s, rfl, hs⟩ := List.map_eq_singleton_iff.1 h
        simp [hs]
    obtain ⟨v', ts, Ds, cs, rfl, hhead, hDs, -⟩ := statement_select_iff.1 ⟨hv, hkind⟩
    have hleft := takeWhile_append_stop (kind_ne_semicolon hu hCs) (hstop htail)
    rw [htokens] at hleft
    have hright := takeWhile_append_stop
      (kind_ne_semicolon (inner_head hhead) (pieces_of_parts hDs)) (hstop hw)
    rw [← hleft.1, hright.1]
    exact ⟨hv, hkind⟩
  · rintro ⟨h, hkind⟩
    exact ⟨⟨_, tail, rfl, h, htail⟩, hkind⟩

end Grammar
end MiniSql
