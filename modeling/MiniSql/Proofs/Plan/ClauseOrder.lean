/-
# Clauses in any order

The clauses behind the tables and joins of a query may be written in any order. The `WHERE` stands
in the tree where it always stands, and each other clause changes a part of the draft of its own
(`Planning.Draft.behind`):

| clause | changes |
| --- | --- |
| `ORDER BY` | the keys to sort by |
| `LIMIT` | how many rows are shown |
| `OFFSET` | how many rows are skipped |
| `FOR UPDATE` | nothing |

So where each is written at most once, texts that have the same clauses in different orders are both
statements or neither is, and have the same plans (`Plan.ofTrees_reordered`).
-/

import MiniSql.Proofs.Grammar.Clauses
import MiniSql.Proofs.Plan.Sorted
import Mathlib.Data.List.Nodup
import Mathlib.Data.List.Perm.Basic

namespace MiniSql

open Grammar (Tree Token Keyword)
open Grammar.Spells (Clause SortKey)

namespace Planning

/-- How many rows a part of a `SELECT` shows. -/
def limitOf (t : Tree) : Option Nat :=
  if t.isWord .LIMIT then (operand t >>= fun n => count n.lexeme).toOption else none

/-- How many rows a part of a `SELECT` skips. -/
def offsetOf (t : Tree) : Option Nat :=
  if t.isWord .OFFSET then (operand t >>= fun n => count n.lexeme).toOption else none

/-- The last number of some parts is that of the first one where the others have none. -/
theorem getLast?_filterMap_cons {α : Type} (f : Tree → Option α) (t : Tree) (ts : List Tree) :
    ((t :: ts).filterMap f).getLast? = (ts.filterMap f).getLast?.or (f t) := by
  cases ht : f t with
  | none => rw [List.filterMap_cons_none ht, Option.or_none]
  | some n =>
    rw [List.filterMap_cons_some ht, List.getLast?_cons]
    cases (ts.filterMap f).getLast? <;> rfl

namespace Draft

variable {arguments : List Value} {d : Draft} {t x y : Tree} {ts ts' : List Tree} {u : List Token}

/-- The draft with one more clause. -/
def behind (d : Draft) (t : Tree) : Draft :=
  { d with
    keys := d.keys ++ keysOf t
    limit := (limitOf t).or d.limit
    offset := (offsetOf t).or d.offset }

/-- A clause that is spelled is added to any draft. -/
theorem add_eq_behind (h : Clause u t) (d : Draft) : d.add arguments t = .ok (d.behind t) := by
  cases h with
  | @order o b u keys ho hb hk =>
    have hkeys : ∀ key ∈ keys, key.children ≠ [] := by
      intro key hkey
      obtain ⟨_, hspelled⟩ := hk.exists_spelled key hkey
      cases hspelled <;> exact List.cons_ne_nil _ _
    rw [add_order rfl hkeys]
    rfl
  | @count t n k c ht hk hn hc =>
    have hcount : count n.lexeme = .ok c := by rw [count, hc]
    have hnone (kind : Keyword) (hkind : kind ≠ .ORDER) :
        keysOf (.word kind [.leaf .number n.lexeme]) = [] := by
      simp [keysOf, Tree.isWord, Tree.word, hkind]
    rcases hk with rfl | rfl
    · show (do return { d with limit := some (← count n.lexeme) }) = _
      rw [behind, hnone .LIMIT (by decide), List.append_nil]
      show _ = Except.ok { d with limit := ((count n.lexeme).toOption).or d.limit }
      rw [hcount]
      rfl
    · show (do return { d with offset := some (← count n.lexeme) }) = _
      rw [behind, hnone .OFFSET (by decide), List.append_nil]
      show _ = Except.ok { d with offset := ((count n.lexeme).toOption).or d.offset }
      rw [hcount]
      rfl
  | forUpdate hf hu =>
    show Except.ok d = .ok { d with keys := d.keys ++ [] }
    rw [List.append_nil]

/-- Clauses are never refused, and are put behind what is there. -/
theorem addAll_eq_behind (h : ∀ t ∈ ts, ∃ u, Clause u t) (d : Draft) :
    ts.foldlM (Draft.add arguments) d = .ok (ts.foldl behind d) := by
  induction ts generalizing d with
  | nil => rfl
  | cons t ts ih =>
    obtain ⟨⟨_, ht⟩, hts⟩ := List.forall_mem_cons.1 h
    rw [List.foldlM_cons, add_eq_behind ht]
    exact ih hts (d.behind t)

/-- What some clauses make of a draft. -/
theorem foldl_behind (ts : List Tree) (d : Draft) : ts.foldl behind d =
    { d with
      keys := d.keys ++ ts.flatMap keysOf
      limit := (ts.filterMap limitOf).getLast?.or d.limit
      offset := (ts.filterMap offsetOf).getLast?.or d.offset } := by
  induction ts generalizing d with
  | nil => simp
  | cons t ts ih =>
    rw [List.foldl_cons, ih, getLast?_filterMap_cons, getLast?_filterMap_cons, List.flatMap_cons,
      ← List.append_assoc, Option.or_assoc, Option.or_assoc]
    rfl

/-- Clauses of different kinds change different parts. -/
theorem behind_comm (h : x.kind ≠ y.kind) (d : Draft) :
    (d.behind x).behind y = (d.behind y).behind x := by
  have hone (k : Keyword) : x.isWord k = false ∨ y.isWord k = false := by
    by_cases hx : x.kind = .keyword k
    · exact .inr (by simpa [Tree.isWord] using fun hy => h (hx.trans hy.symm))
    · exact .inl (by simpa [Tree.isWord] using hx)
  have hkeys : keysOf x ++ keysOf y = keysOf y ++ keysOf x := by
    rcases hone .ORDER with hk | hk <;> simp [keysOf, hk]
  have hlimit : (limitOf y).or (limitOf x) = (limitOf x).or (limitOf y) := by
    rcases hone .LIMIT with hk | hk <;> simp [limitOf, hk]
  have hoffset : (offsetOf y).or (offsetOf x) = (offsetOf x).or (offsetOf y) := by
    rcases hone .OFFSET with hk | hk <;> simp [offsetOf, hk]
  simp only [behind, List.append_assoc, hkeys, ← Option.or_assoc, hlimit, hoffset]

/-- The order of clauses of different kinds does not matter to a draft. -/
theorem foldl_behind_perm (h : ts'.Perm ts) (hkinds : (ts.map (·.kind)).Nodup) (d : Draft) :
    ts'.foldl behind d = ts.foldl behind d := by
  refine (h.symm.foldl_eq' (fun x hx y hy d => ?_) d).symm
  by_cases hkind : x.kind = y.kind
  · rw [List.inj_on_of_nodup_map hkinds hx hy hkind]
  · exact behind_comm hkind d

end Draft
end Planning

/-! ## The clauses of a text -/

namespace Grammar

open Spells

variable {Cs Cs' : List (List Token)} {cs cs' : List Tree} {head tail : List Token} {t : Tree}

/-- The kind of word that opens a piece. -/
def opener (C : List Token) : Option Kind := C.head?.map (·.kind)

/-- Each clause is told by the keyword that opens it. -/
theorem opener_of_parts (h : List.Forall₂ Part Cs cs) :
    Cs.map opener = (cs.map (·.kind)).map some := by
  induction h with
  | nil => rfl
  | cons hC _ ih =>
    obtain ⟨w, v, rfl, hkind, -⟩ := piece_of_part hC
    rw [List.map_cons, ih, List.map_cons, List.map_cons, ← hkind]
    rfl

/-- The clauses other than the `WHERE` are spelled as such. -/
theorem clause_of_parts (h : List.Forall₂ Part Cs cs) :
    ∀ c ∈ (Parser.Clauses.ofParts cs).others, ∃ u, Clause u c := by
  intro c hc
  obtain ⟨hmem, hword⟩ := List.mem_filter.1 hc
  obtain ⟨C, -, hC⟩ := exists_mem_of_forall₂ h hmem
  rcases hC with hC | hC
  · rw [isWord_of_filter hC] at hword
    cases hword
  · exact ⟨C, hC⟩

/-- Where no kind of clause is repeated there is one `WHERE` at most. -/
theorem length_wheres_le_one (h : (cs.map (·.kind)).Nodup) : (wheres cs).length ≤ 1 := by
  have hsame : (wheres cs).map (·.kind) =
      List.replicate (wheres cs).length (.keyword .WHERE) := by
    rw [List.eq_replicate_iff, List.length_map]
    refine ⟨rfl, fun k hk => ?_⟩
    obtain ⟨c, hc, rfl⟩ := List.mem_map.1 hk
    simpa [Tree.isWord] using (List.mem_filter.1 hc).2
  rw [← List.nodup_replicate (a := Kind.keyword .WHERE), ← hsame]
  exact h.sublist (List.filter_sublist.map _)

/-- Clauses of different kinds have one WHERE at most. -/
theorem oneWhere_of_nodup (h : (cs.map (·.kind)).Nodup) : OneWhere cs := by
  have hlength := length_wheres_le_one h
  have hnone : (wheres cs).dropLast = [] := by
    rw [← List.length_eq_zero_iff, List.length_dropLast]
    omega
  intro c hc
  rw [hnone] at hc
  cases hc

/-- The `WHERE` is found wherever it stands. -/
theorem filter_ofParts_perm (h : cs'.Perm cs) (hkinds : (cs.map (·.kind)).Nodup) :
    (Parser.Clauses.ofParts cs').filter = (Parser.Clauses.ofParts cs).filter := by
  have hwheres : (wheres cs').Perm (wheres cs) := h.filter _
  have hsame : wheres cs' = wheres cs := by
    rcases hone : wheres cs with _ | ⟨c, _ | ⟨c', rest⟩⟩
    · exact (hone ▸ hwheres).eq_nil
    · exact (hone ▸ hwheres).eq_singleton
    · have hlength := length_wheres_le_one hkinds
      rw [hone] at hlength
      simp at hlength
  rw [Parser.Clauses.ofParts, hsame]
  rfl

/-- A statement has the kind of its first word. -/
theorem kind_of_statement {u : List Token} (h : Statement u t) : opener u = some t.kind := by
  cases h <;> simp [opener, Tree.word, *]

/-- The kind of a clause is that of its keyword. -/
theorem kind_of_whole {rest : List Token} (h : Whole (head ++ rest) t) {k : Kind}
    (hk : opener head = some k) : t.kind = k := by
  obtain ⟨u, v, htokens, hu, -⟩ := h
  have hkind := kind_of_statement hu
  cases head with
  | nil => cases hk
  | cons w head =>
    cases u with
    | nil => cases hkind
    | cons w' u =>
      obtain ⟨rfl, -⟩ := List.cons.inj htokens
      exact Option.some.inj (hkind.symm.trans hk)

end Grammar

open Grammar

namespace Planning

variable {arguments : List Value} {others others' ts : List Tree} {c : Tree}

/-- Clauses of different kinds are planned in any order. -/
theorem select_perm (hclauses : ∀ t ∈ others, ∃ u, Clause u t)
    (hkinds : (others.map (·.kind)).Nodup) (h : others'.Perm others) :
    select arguments (.word .SELECT (ts ++ c :: others')) =
      select arguments (.word .SELECT (ts ++ c :: others)) := by
  have hsame (d : Draft) :
      others'.foldlM (Draft.add arguments) d = others.foldlM (Draft.add arguments) d := by
    rw [Draft.addAll_eq_behind hclauses, Draft.addAll_eq_behind fun t ht =>
      hclauses t (h.mem_iff.1 ht), Draft.foldl_behind_perm h hkinds]
  unfold select
  simp only [Tree.word, List.foldlM_append, List.foldlM_cons, hsame]

end Planning

variable {cs cs' ts : List Tree} {Cs Cs' : List (List Token)}

/-- **Clauses of different kinds may stand in any order** in the tree of a query. -/
theorem Plan.ofTrees_selectOf (hCs : List.Forall₂ Part Cs cs) (hkinds : (cs.map (·.kind)).Nodup)
    (h : cs'.Perm cs) (arguments : List Value) (strict : Bool) :
    ofTrees [.selectOf ts cs'] arguments strict = ofTrees [.selectOf ts cs] arguments strict := by
  have hothers : (Parser.Clauses.ofParts cs').others.Perm (Parser.Clauses.ofParts cs).others :=
    h.filter _
  have hclauses := clause_of_parts hCs
  have hnone {c : Tree} (hc : ∃ u, Clause u c) : Arguments.placeholders c = [] := by
    obtain ⟨_, hc⟩ := hc
    exact Arguments.placeholders_clause hc
  have hplaceholders : Arguments.placeholders (.selectOf ts cs') =
      Arguments.placeholders (.selectOf ts cs) := by
    simp only [Tree.selectOf, Arguments.placeholders_word, List.flatMap_append, List.flatMap_cons,
      filter_ofParts_perm h hkinds]
    rw [Arguments.placeholders_flatMap fun c hc => hnone (hclauses c hc),
      Arguments.placeholders_flatMap fun c hc => hnone (hclauses c (hothers.mem_iff.1 hc))]
  have hcheck := Arguments.check_congr hplaceholders arguments.length strict
  have hselect : Planning.select arguments (.selectOf ts cs') =
      Planning.select arguments (.selectOf ts cs) := by
    rw [Tree.selectOf, Tree.selectOf, filter_ofParts_perm h hkinds]
    exact Planning.select_perm hclauses (hkinds.sublist (List.filter_sublist.map _)) hothers
  show (do
    Arguments.check (.selectOf ts cs') arguments.length strict
    Planning.select arguments (.selectOf ts cs')) = (do
    Arguments.check (.selectOf ts cs) arguments.length strict
    Planning.select arguments (.selectOf ts cs))
  rw [hcheck, hselect]

/-! ## Texts -/

namespace Grammar

/-- Both texts are a `SELECT`, its items, tables and joins, and behind them the same clauses, each
of another kind, but in different orders. -/
def Reordered (text text' : String) : Prop :=
  ∃ (head tail : List Token) (Cs Cs' : List (List Token)),
    Inner head ∧ opener head = some (.keyword .SELECT) ∧ (∀ C ∈ Cs, Piece C) ∧
      (Cs.map opener).Nodup ∧ Cs'.Perm Cs ∧ Closing tail ∧
      Alike (tokenize text) (head ++ Cs.flatten ++ tail) ∧
      Alike (tokenize text') (head ++ Cs'.flatten ++ tail)

variable {text text' : String}

/-- Reordering can be undone. -/
theorem Reordered.symm (h : Reordered text text') : Reordered text' text := by
  obtain ⟨head, tail, Cs, Cs', hhead, hselect, hCs, hkinds, hperm, htail, htext, htext'⟩ := h
  refine ⟨head, tail, Cs', Cs, hhead, hselect, fun C hC => hCs C (hperm.mem_iff.1 hC), ?_,
    hperm.symm, htail, htext', htext⟩
  exact (hperm.map opener).nodup_iff.2 hkinds

/-- What is read of the one is read of the other, but that its clauses stand in another order. -/
theorem Reordered.parse (h : Reordered text text') {t : Tree} (ht : Grammar.parse text = .ok t) :
    ∃ t', Grammar.parse text' = .ok t' ∧ ∀ arguments strict,
      Plan.ofTrees [t'] arguments strict = Plan.ofTrees [t] arguments strict := by
  obtain ⟨head, tail, Cs, Cs', hhead, hselect, hCs, hkinds, hperm, htail, htext, htext'⟩ := h
  have hwhole := blind_whole htext.symm (parse_eq_ok_iff_whole.1 ht)
  have hkind : t.kind = .keyword .SELECT := by
    rw [List.append_assoc] at hwhole
    exact kind_of_whole hwhole hselect
  obtain ⟨ts, cs, hts, hparts, -, rfl⟩ := (whole_pieces_iff hhead hCs htail).1 ⟨hwhole, hkind⟩
  obtain ⟨cs', hparts', hcs⟩ := List.perm_comp_forall₂ hperm hparts
  have hnodup : (cs.map (·.kind)).Nodup := by
    rw [opener_of_parts hparts] at hkinds
    exact hkinds.of_map _
  have hone := oneWhere_of_nodup ((hcs.map _).nodup_iff.2 hnodup)
  obtain ⟨hwhole', -⟩ := (whole_pieces_iff hhead (pieces_of_parts hparts') htail).2
    ⟨ts, cs', hts, hparts', hone, rfl⟩
  exact ⟨_, parse_eq_ok_iff_whole.2 (blind_whole htext' hwhole'),
    Plan.ofTrees_selectOf hparts hnodup hcs⟩

end Grammar

/-- **The order of clauses does not matter.** -/
theorem Plan.ofTrees_reordered {text text' : String} (h : Reordered text text') :
    ((∃ t, Grammar.parse text = .ok t) ↔ ∃ t', Grammar.parse text' = .ok t') ∧
      ∀ t t', Grammar.parse text = .ok t → Grammar.parse text' = .ok t' → ∀ arguments strict,
        ofTrees [t] arguments strict = ofTrees [t'] arguments strict := by
  refine ⟨⟨?_, ?_⟩, ?_⟩
  · rintro ⟨t, ht⟩
    obtain ⟨t', ht', -⟩ := h.parse ht
    exact ⟨t', ht'⟩
  · rintro ⟨t', ht'⟩
    obtain ⟨t, ht, -⟩ := h.symm.parse ht'
    exact ⟨t, ht⟩
  · intro t t' ht ht' arguments strict
    obtain ⟨t'', ht'', hsame⟩ := h.parse ht
    obtain rfl := Except.ok.inj (ht'.symm.trans ht'')
    exact (hsame arguments strict).symm

/-- A query with all clauses. -/
def limitFirst : String := "SELECT a FROM t LIMIT 1 WHERE a = $1 ORDER BY a OFFSET 3 FOR UPDATE"

/-- The same query with its clauses from the last to the first. -/
def limitLast : String := "SELECT a FROM t FOR UPDATE OFFSET 3 ORDER BY a WHERE a = $1 LIMIT 1"

/-- What stands before the clauses of both. -/
def oneTable : List Token := tokenize "SELECT a FROM t"

/-- Their clauses in the order of the first. -/
def fiveClauses : List (List Token) :=
  [tokenize "LIMIT 1", tokenize "WHERE a = $1", tokenize "ORDER BY a", tokenize "OFFSET 3",
    tokenize "FOR UPDATE"]

/-- The text with the limit first has the tokens of the five clauses. -/
theorem alike_limitFirst :
    Alike (tokenize limitFirst) (oneTable ++ fiveClauses.flatten ++ []) := by
  show List.map _ _ = List.map _ _
  decide +kernel

/-- The text with the limit last has those of the clauses in reverse. -/
theorem alike_limitLast :
    Alike (tokenize limitLast) (oneTable ++ fiveClauses.reverse.flatten ++ []) := by
  show List.map _ _ = List.map _ _
  decide +kernel

/-- The two texts have the same clauses. -/
theorem reordered_limit : Reordered limitFirst limitLast :=
  ⟨oneTable, [], fiveClauses, fiveClauses.reverse, by decide +kernel, by decide +kernel,
    by decide +kernel, by decide +kernel, fiveClauses.reverse_perm, .inl rfl, alike_limitFirst,
    alike_limitLast⟩

/-- Both are read, as different trees with one plan. -/
theorem Plan.ofTrees_reordered_limit : ∃ t t', Grammar.parse limitFirst = .ok t ∧
    Grammar.parse limitLast = .ok t' ∧ t ≠ t' ∧
      ofTrees [t] [.integer 2] true = ofTrees [t'] [.integer 2] true := by
  let query (others : List Tree) : Tree :=
    .word .SELECT ([.leaf .ident "a", .word .FROM [.table "t" []],
      .word .WHERE [⟨.equal, "=", [.leaf .ident "a", .leaf .placeholder "$1"]⟩]] ++ others)
  let others : List Tree := [.word .LIMIT [.leaf .number "1"],
    ⟨.keyword .ORDER, "order by", [.word .ASC [.leaf .ident "a"]]⟩,
    .word .OFFSET [.leaf .number "3"], .word .FOR [.word .UPDATE []]]
  have hfirst : Grammar.parse limitFirst = .ok (query others) := by decide +kernel
  have hlast : Grammar.parse limitLast = .ok (query others.reverse) := by decide +kernel
  exact ⟨_, _, hfirst, hlast, by decide,
    (ofTrees_reordered reordered_limit).2 _ _ hfirst hlast [.integer 2] true⟩

end MiniSql
