/-
# Planning `LIMIT` and `OFFSET`

A query with `LIMIT n OFFSET k` is planned as it is without, but that its rows are skipped and cut
in between (`Plan.ofText_paged`). It does not matter where among its clauses they stand, and what
else the query has: nothing but the last step of its draft looks at them
(`Planning.Draft.query_withPages`).

| | without | with |
| --- | --- | --- |
| lists items | `project source` | `project (page source)` |
| calls functions | `aggregate source` | `page (aggregate source)` |
| refused | why | for the same reason |
-/

import MiniSql.Proofs.Plan.ClauseOrder

namespace MiniSql

open Grammar (Tree Token Keyword)
open Grammar.Spells (Clause)

/-! ## Texts -/

namespace Grammar

open Spells

/-- The clause is opened by this word. -/
def opens (w : Keyword) (C : List Token) : Bool := opener C == some (.keyword w)

/-- The clause is the word and a number of rows. -/
def Counts (w : Keyword) (n : Nat) (C : List Token) : Prop :=
  ∃ t m, C = [t, m] ∧ t.kind = .keyword w ∧ m.kind = .number ∧ Number.readCount m.lexeme = .ok n

/-- The second text is a query with one `LIMIT n` and one `OFFSET k` among its clauses, wherever
they stand, and the first one is the same query without them. -/
def Pages (plain paged : String) (n k : Nat) : Prop :=
  ∃ (head tail : List Token) (Cs : List (List Token)) (limit offset : List Token),
    Inner head ∧ opener head = some (.keyword .SELECT) ∧ (∀ C ∈ Cs, Piece C) ∧ Closing tail ∧
      Cs.filter (opens .LIMIT) = [limit] ∧ Counts .LIMIT n limit ∧
      Cs.filter (opens .OFFSET) = [offset] ∧ Counts .OFFSET k offset ∧
      Alike (tokenize plain)
        (head ++ (Cs.filter fun C => !(opens .LIMIT C || opens .OFFSET C)).flatten ++ tail) ∧
      Alike (tokenize paged) (head ++ Cs.flatten ++ tail)

/-- The tree is of a `LIMIT` or an `OFFSET`. -/
def Tree.pages (t : Tree) : Bool := t.isWord .LIMIT || t.isWord .OFFSET

variable {C : List Token} {Cs : List (List Token)} {c : Tree} {cs ts : List Tree} {w : Keyword}
  {n : Nat}

/-- A clause opens with the keyword it is of. -/
theorem opens_of_part (h : Part C c) (w : Keyword) : opens w C = c.isWord w := by
  obtain ⟨t, v, rfl, hkind, -⟩ := piece_of_part h
  simp [opens, opener, Tree.isWord, hkind]

/-- Such a clause is read as one. -/
theorem part_of_counts (hw : w = .LIMIT ∨ w = .OFFSET) (h : Counts w n C) : ∃ c, Part C c := by
  obtain ⟨t, m, rfl, ht, hm, hn⟩ := h
  exact ⟨_, .inr (.count ht hw hm hn)⟩

/-- Its tree tells the number. -/
theorem count_of_part (hw : w = .LIMIT ∨ w = .OFFSET) (h : Counts w n C) (hc : Part C c) :
    c.isWord w = true ∧ (Planning.operand c >>= fun m => Planning.count m.lexeme) = .ok n := by
  obtain ⟨t, m, rfl, ht, hm, hn⟩ := h
  have hother {k : Keyword} (hk : t.kind = .keyword k) (hne : k ≠ .LIMIT ∧ k ≠ .OFFSET) :
      False := by
    cases ht.symm.trans hk
    exact hw.elim hne.1 hne.2
  rcases hc with hc | hc
  · obtain ⟨hwhere, -⟩ := hc
    exact (hother hwhere (by decide)).elim
  · cases hc with
    | order ho => exact (hother ho (by decide)).elim
    | forUpdate hf => exact (hother hf (by decide)).elim
    | count ht' =>
      cases ht.symm.trans ht'
      refine ⟨by simp [Tree.isWord, Tree.word], ?_⟩
      show Planning.count m.lexeme = .ok n
      rw [Planning.count, hn]

/-- What stands before the clauses of a query is neither. -/
theorem pages_of_head {v : List Token} (h : Head v ts) : ∀ t ∈ ts, t.pages = false := by
  obtain ⟨hs, hi, hf, ht, hj⟩ := h
  intro t hmem
  rcases List.mem_append.1 hmem with hmem | hmem
  · obtain ⟨_, hitem⟩ := hi.exists_spelled t hmem
    rw [Tree.pages, isWord_of_item hitem rfl, isWord_of_item hitem rfl]
    rfl
  · rcases List.mem_cons.1 hmem with rfl | hmem
    · rfl
    · obtain ⟨_, ⟨ho, hn, hp⟩⟩ := hj.exists_spelled t hmem
      rfl

/-- What is related to some of a list is some of what is related to all of it. -/
theorem forall₂_of_filter {α β : Type} {R : α → β → Prop} {p : α → Bool} {q : β → Bool}
    {l : List α} {bs : List β} (hpq : ∀ a b, R a b → p a = q b)
    (h : List.Forall₂ R (l.filter p) bs) (hothers : ∀ a ∈ l, p a = false → ∃ b, R a b) :
    ∃ bs', List.Forall₂ R l bs' ∧ bs'.filter q = bs := by
  induction l generalizing bs with
  | nil =>
    cases h
    exact ⟨[], .nil, rfl⟩
  | cons a l ih =>
    obtain ⟨ha, hl⟩ := List.forall_mem_cons.1 hothers
    cases hp : p a with
    | true =>
      rw [List.filter_cons_of_pos hp] at h
      cases h with
      | cons hab h =>
        obtain ⟨bs', hbs', rfl⟩ := ih h hl
        exact ⟨_, .cons hab hbs', List.filter_cons_of_pos ((hpq _ _ hab).symm.trans hp)⟩
    | false =>
      rw [List.filter_cons_of_neg (by simp [hp])] at h
      obtain ⟨bs', hbs', rfl⟩ := ih h hl
      obtain ⟨b, hab⟩ := ha hp
      exact ⟨b :: bs', .cons hab hbs',
        List.filter_cons_of_neg (by simp [← hpq _ _ hab, hp])⟩

/-- Of clauses of which one is a `LIMIT n` the numbers to show are just `n`, and so for `OFFSET`. -/
theorem filterMap_counts {limit : List Token} {f : Tree → Option Nat}
    (hw : w = .LIMIT ∨ w = .OFFSET) (hf : ∀ c, f c = if c.isWord w then
      (Planning.operand c >>= fun m => Planning.count m.lexeme).toOption else none)
    (hCs : List.Forall₂ Part Cs cs) (hone : Cs.filter (opens w) = [limit])
    (hn : Counts w n limit) : cs.filterMap f = [n] := by
  have hfiltered : List.Forall₂ Part (Cs.filter (opens w)) (cs.filter (·.isWord w)) := by
    refine List.rel_filter (fun C c hC => ?_) hCs
    show opens w C = true ↔ c.isWord w = true
    rw [opens_of_part hC]
  rw [hone] at hfiltered
  obtain ⟨c, hc, htree⟩ : ∃ c, Part limit c ∧ cs.filter (·.isWord w) = [c] := by
    cases hcs : cs.filter (·.isWord w) with
    | nil =>
      rw [hcs] at hfiltered
      cases hfiltered
    | cons c rest =>
      rw [hcs] at hfiltered
      cases hfiltered with
      | cons hc hrest =>
        cases hrest
        exact ⟨c, hc, rfl⟩
  obtain ⟨hword, hcount⟩ := count_of_part hw hn hc
  have hsame : (fun c => if c.isWord w then f c else none) = f := by
    funext c
    rw [hf]
    split <;> rfl
  rw [← hsame, ← List.filterMap_filter, htree, List.filterMap_cons_some (b := n)]
  · rfl
  · rw [hf, if_pos hword, hcount]
    rfl

/-- Neither is a `WHERE`. -/
theorem pages_of_where (h : c.isWord .WHERE = true) : c.pages = false := by
  have hkind : c.kind = .keyword .WHERE := by simpa [Tree.isWord] using h
  rw [Tree.pages, Tree.isWord, Tree.isWord, hkind]
  rfl

/-- Without the clauses of pages there are the same WHEREs. -/
theorem wheres_unpaged (cs : List Tree) : wheres (cs.filter (!·.pages)) = wheres cs := by
  rw [wheres, wheres, List.filter_filter]
  refine List.filter_congr fun c _ => ?_
  cases hword : c.isWord .WHERE with
  | false => rfl
  | true =>
    rw [pages_of_where hword]
    rfl

/-- Leaving out the clauses of pages leaves the filter and the other clauses. -/
theorem ofParts_unpaged (cs : List Tree) : Parser.Clauses.ofParts (cs.filter (!·.pages)) =
    ⟨(Parser.Clauses.ofParts cs).filter, (Parser.Clauses.ofParts cs).others.filter (!·.pages)⟩ := by
  simp only [Parser.Clauses.ofParts, wheres_unpaged, List.filter_filter, Bool.and_comm]

/-- **The query with `LIMIT` and `OFFSET` is read as the one without,** with both among its
clauses. -/
theorem Pages.parse {plain paged : String} {k : Nat} {t : Tree} (h : Pages plain paged n k)
    (ht : Grammar.parse plain = .ok t) : ∃ ts Cs cs, (∀ c ∈ ts, c.pages = false) ∧
      List.Forall₂ Part Cs cs ∧ t = .selectOf ts (cs.filter (!·.pages)) ∧
      Grammar.parse paged = .ok (.selectOf ts cs) ∧
      cs.filterMap Planning.limitOf = [n] ∧ cs.filterMap Planning.offsetOf = [k] := by
  obtain ⟨head, tail, Cs, limit, offset, hhead, hselect, hCs, htail, hlimit, hn, hoffset, hk,
    hplain, hpaged⟩ := h
  have hwhole := blind_whole hplain.symm (parse_eq_ok_iff_whole.1 ht)
  have hkind : t.kind = .keyword .SELECT := by
    rw [List.append_assoc] at hwhole
    exact kind_of_whole hwhole hselect
  have hpieces : ∀ C ∈ Cs.filter fun C => !(opens .LIMIT C || opens .OFFSET C), Piece C :=
    fun C hC => hCs C (List.mem_filter.1 hC).1
  obtain ⟨ts, others, hts, hothers, hone, rfl⟩ :=
    (whole_pieces_iff hhead hpieces htail).1 ⟨hwhole, hkind⟩
  have hpart : ∀ C ∈ Cs, (!(opens .LIMIT C || opens .OFFSET C)) = false → ∃ c, Part C c := by
    intro C hC hopens
    rw [Bool.not_eq_false', Bool.or_eq_true] at hopens
    rcases hopens with hopens | hopens
    · have hmem : C ∈ Cs.filter (opens .LIMIT) := List.mem_filter.2 ⟨hC, hopens⟩
      rw [hlimit, List.mem_singleton] at hmem
      exact part_of_counts (.inl rfl) (hmem ▸ hn)
    · have hmem : C ∈ Cs.filter (opens .OFFSET) := List.mem_filter.2 ⟨hC, hopens⟩
      rw [hoffset, List.mem_singleton] at hmem
      exact part_of_counts (.inr rfl) (hmem ▸ hk)
  obtain ⟨cs, hparts, rfl⟩ := forall₂_of_filter (q := fun c => !c.pages)
    (fun C c hC => by rw [Tree.pages, opens_of_part hC, opens_of_part hC]) hothers hpart
  have hone' : OneWhere cs := by
    rw [OneWhere, wheres_unpaged] at hone
    exact hone
  obtain ⟨hwhole', -⟩ := (whole_pieces_iff hhead hCs htail).2 ⟨ts, cs, hts, hparts, hone', rfl⟩
  exact ⟨ts, Cs, cs, pages_of_head hts, hparts, rfl,
    parse_eq_ok_iff_whole.2 (blind_whole hpaged hwhole'),
    filterMap_counts (.inl rfl) (fun _ => rfl) hparts hlimit hn,
    filterMap_counts (.inr rfl) (fun _ => rfl) hparts hoffset hk⟩

end Grammar

/-! ## Plans -/

namespace Planning

open Grammar (Part pages_of_where ofParts_unpaged isWord_ofParts)

namespace Draft

variable {arguments : List Value} {d : Draft} {ts : List Tree}

/-- The draft with other numbers of rows to skip and to show. -/
def withPages (d : Draft) (offset limit : Option Nat) : Draft :=
  { d with offset := offset, limit := limit }

/-- The clauses of a query with `LIMIT` and `OFFSET` make of a draft what those without do, but for
its pages. -/
theorem foldl_behind_unpaged {n k : Nat} (hlimit : ts.filterMap limitOf = [n])
    (hoffset : ts.filterMap offsetOf = [k]) (d : Draft) :
    ts.foldl behind d =
      ((ts.filter (!·.pages)).foldl behind d).withPages (some k) (some n) ∧
    ((ts.filter (!·.pages)).foldl behind d).limit = d.limit ∧
    ((ts.filter (!·.pages)).foldl behind d).offset = d.offset := by
  have hkeys : (ts.filter (!·.pages)).flatMap keysOf = ts.flatMap keysOf := by
    refine flatMap_filter fun t _ ht => ?_
    rw [Bool.not_eq_false', Tree.pages, Tree.isWord, Tree.isWord, Bool.or_eq_true, beq_iff_eq,
      beq_iff_eq] at ht
    rw [keysOf, Tree.isWord]
    rcases ht with ht | ht <;> rw [ht] <;> rfl
  have hnone (f : Tree → Option Nat) (hf : ∀ t, t.pages = false → f t = none) :
      (ts.filter (!·.pages)).filterMap f = [] := by
    rw [List.filterMap_eq_nil_iff]
    exact fun t ht => hf t (by simpa using (List.mem_filter.1 ht).2)
  have hnoLimit : (ts.filter (!·.pages)).filterMap limitOf = [] := by
    refine hnone limitOf fun t ht => ?_
    rw [limitOf, (Bool.or_eq_false_iff.1 ht).1]
    rfl
  have hnoOffset : (ts.filter (!·.pages)).filterMap offsetOf = [] := by
    refine hnone offsetOf fun t ht => ?_
    rw [offsetOf, (Bool.or_eq_false_iff.1 ht).2]
    rfl
  rw [foldl_behind, foldl_behind, hkeys, hlimit, hoffset, hnoLimit, hnoOffset]
  exact ⟨rfl, rfl, rfl⟩

/-- The steps of a draft that reads tables: its pages come behind all others but the items. -/
theorem query_paged {d : Draft} {source : Query} (hsource : d.source = some source) :
    ∃ filtered : Query, ∀ offset limit, (d.withPages offset limit).query =
      if d.calls.isEmpty then
        .ok (.projection
          (.paged offset limit (if d.keys.isEmpty then filtered else .order filtered d.keys)) d.items)
      else if d.items.isEmpty then .ok (.paged offset limit (.aggregate filtered d.calls))
      else .error (.schema .mixedAggregates) := by
  cases hpredicate : d.predicate with
  | none =>
    refine ⟨source, fun offset limit => ?_⟩
    simp only [query, withPages, hsource, hpredicate]
    rfl
  | some p =>
    refine ⟨.filter source p, fun offset limit => ?_⟩
    simp only [query, withPages, hsource, hpredicate]
    rfl

/-- **What is skipped and cut is skipped and cut of the same rows.** -/
theorem query_withPages (d : Draft) :
    (∃ e, ∀ offset limit, (d.withPages offset limit).query = .error e) ∨
      (∃ (source : Query) (items : List SelectItem), ∀ offset limit,
        (d.withPages offset limit).query = .ok (.projection (source.paged offset limit) items)) ∨
      ∃ (source : Query) (calls : List AggregateCall), ∀ offset limit,
        (d.withPages offset limit).query =
          .ok ((Query.aggregate source calls).paged offset limit) := by
  cases hsource : d.source with
  | none =>
    refine .inl ⟨.internal .selectWithoutFrom, fun offset limit => ?_⟩
    simp only [query, withPages, hsource]
  | some source =>
    obtain ⟨filtered, hquery⟩ := query_paged hsource
    cases hcalls : d.calls with
    | nil => exact .inr (.inl ⟨_, d.items, fun offset limit => by rw [hquery, hcalls]; rfl⟩)
    | cons call calls =>
      cases hitems : d.items with
      | nil =>
        refine .inr (.inr ⟨filtered, call :: calls, fun offset limit => ?_⟩)
        rw [hquery, hcalls, hitems]
        rfl
      | cons item items =>
        refine .inl ⟨.schema .mixedAggregates, fun offset limit => ?_⟩
        rw [hquery, hcalls, hitems]
        rfl

end Draft

/-- How a query is planned without `LIMIT` and `OFFSET` and with them. -/
inductive PlannedPaged (offset limit : Option Nat) : Except Error Plan → Except Error Plan → Prop
  | refused (e : Error) : PlannedPaged offset limit (.error e) (.error e)
  | shown (source : Query) (items : List SelectItem) : PlannedPaged offset limit
      (.ok (.query (.projection source items)))
      (.ok (.query (.projection (source.paged offset limit) items)))
  | called (source : Query) (calls : List AggregateCall) : PlannedPaged offset limit
      (.ok (.query (.aggregate source calls)))
      (.ok (.query ((Query.aggregate source calls).paged offset limit)))

/-- A query without pages is planned with them put behind it. -/
theorem planned_withPages {d : Draft} (hoffset : d.offset = none) (hlimit : d.limit = none)
    (offset limit : Option Nat) : PlannedPaged offset limit (.query <$> d.query)
      (.query <$> (d.withPages offset limit).query) := by
  have hself : d.withPages none none = d := congrArg₂ d.withPages hoffset.symm hlimit.symm
  rcases d.query_withPages with ⟨e, hquery⟩ | ⟨source, items, hquery⟩ | ⟨source, calls, hquery⟩
  all_goals
    have hplain := hquery none none
    rw [hself] at hplain
    rw [hquery, hplain]
  · exact .refused e
  · exact .shown source items
  · exact .called source calls

/-- `LIMIT` and `OFFSET` change nothing else of the plan. -/
theorem select_paged {arguments : List Value} {Cs : List (List Token)} {ts cs : List Tree}
    {n k : Nat} (hts : ∀ c ∈ ts, c.pages = false) (hCs : List.Forall₂ Part Cs cs)
    (hlimit : cs.filterMap limitOf = [n]) (hoffset : cs.filterMap offsetOf = [k]) :
    PlannedPaged (some k) (some n) (select arguments (.selectOf ts (cs.filter (!·.pages))))
      (select arguments (.selectOf ts cs)) := by
  let c := Grammar.Parser.Clauses.ofParts cs
  have hclauses : ∀ t ∈ c.others, ∃ u, Clause u t := Grammar.clause_of_parts hCs
  have hplain : ∀ t ∈ c.others.filter (!·.pages), ∃ u, Clause u t :=
    fun t ht => hclauses t (List.mem_filter.1 ht).1
  -- A `WHERE` tells nothing about the page, so it may be left out.
  have hothers (f : Tree → Option Nat) (hf : ∀ t, t.isWord .WHERE = true → f t = none) :
      c.others.filterMap f = cs.filterMap f := by
    show (cs.filter (!·.isWord .WHERE)).filterMap f = cs.filterMap f
    rw [List.filterMap_filter]
    refine List.filterMap_congr fun t _ => ?_
    cases hword : t.isWord .WHERE with
    | false => rfl
    | true => exact (hf t hword).symm
  have hlimit : c.others.filterMap limitOf = [n] := by
    rw [hothers limitOf fun t ht => ?_, hlimit]
    rw [limitOf, (Bool.or_eq_false_iff.1 (pages_of_where ht)).1]
    rfl
  have hoffset : c.others.filterMap offsetOf = [k] := by
    rw [hothers offsetOf fun t ht => ?_, hoffset]
    rw [offsetOf, (Bool.or_eq_false_iff.1 (pages_of_where ht)).2]
    rfl
  have hread (others : List Tree) (hothers : ∀ t ∈ others, ∃ u, Clause u t) :
      select arguments (.word .SELECT (ts ++ c.filter :: others)) = (do
        let d ← (ts ++ [c.filter]).foldlM (Draft.add arguments) {}
        .query <$> (others.foldl Draft.behind d).query) := by
    unfold select
    simp only [Tree.word, List.foldlM_append, List.foldlM_cons, List.foldlM_nil,
      Draft.addAll_eq_behind hothers, bind_assoc, bind_pure_comp]
    rfl
  rw [Tree.selectOf, Tree.selectOf, ofParts_unpaged, hread _ hplain, hread _ hclauses]
  cases hd : (ts ++ [c.filter]).foldlM (Draft.add arguments) {} with
  | error e => exact .refused e
  | ok d =>
    -- What stands before these clauses sets neither of the two.
    have hbefore : ∀ t ∈ ts ++ [c.filter], t.pages = false := by
      rw [List.forall_mem_append, List.forall_mem_singleton]
      exact ⟨hts, pages_of_where (isWord_ofParts cs)⟩
    obtain ⟨hnoOffset, hnoLimit⟩ := Draft.pages_addAll hd
    obtain ⟨hpaged, hlimit', hoffset'⟩ := Draft.foldl_behind_unpaged hlimit hoffset d
    show PlannedPaged _ _ (.query <$> Draft.query _)
      (.query <$> (c.others.foldl Draft.behind d).query)
    rw [hpaged]
    exact planned_withPages
      (hoffset'.trans (hnoOffset fun t ht => (Bool.or_eq_false_iff.1 (hbefore t ht)).2))
      (hlimit'.trans (hnoLimit fun t ht => (Bool.or_eq_false_iff.1 (hbefore t ht)).1)) _ _

end Planning

/-- **A text with `LIMIT` and `OFFSET` is planned as without,** with its rows skipped and cut. -/
theorem Plan.ofText_paged {plain paged : String} {n k : Nat} {t : Tree}
    (h : Grammar.Pages plain paged n k) (ht : Grammar.parse plain = .ok t)
    (arguments : List Value) (strict : Bool) : Planning.PlannedPaged (some k) (some n)
      (ofText plain arguments strict) (ofText paged arguments strict) := by
  obtain ⟨ts, Cs, cs, hts, hCs, rfl, hpaged, hlimit, hoffset⟩ := h.parse ht
  have hnone : ∀ c ∈ (Grammar.Parser.Clauses.ofParts cs).others, Arguments.placeholders c = [] := by
    intro c hc
    obtain ⟨_, hclause⟩ := Grammar.clause_of_parts hCs c hc
    exact Arguments.placeholders_clause hclause
  have hplaceholders : Arguments.placeholders (.selectOf ts (cs.filter (!·.pages))) =
      Arguments.placeholders (.selectOf ts cs) := by
    simp only [Tree.selectOf, Arguments.placeholders_word, List.flatMap_append, List.flatMap_cons,
      Grammar.ofParts_unpaged]
    rw [Arguments.placeholders_flatMap hnone, Arguments.placeholders_flatMap fun c hc =>
      hnone c (List.mem_filter.1 hc).1]
  have hcheck := Arguments.check_congr hplaceholders arguments.length strict
  have hplanned : Planning.PlannedPaged (some k) (some n)
      (Planning.select arguments (.selectOf ts (cs.filter (!·.pages))))
      (Planning.select arguments (.selectOf ts cs)) :=
    Planning.select_paged hts hCs hlimit hoffset
  rw [ofText, ofText, ht, hpaged]
  show Planning.PlannedPaged _ _ (do
    Arguments.check (.selectOf ts (cs.filter (!·.pages))) arguments.length strict
    Planning.select arguments (.selectOf ts (cs.filter (!·.pages)))) (do
    Arguments.check (.selectOf ts cs) arguments.length strict
    Planning.select arguments (.selectOf ts cs))
  rw [hcheck]
  cases Arguments.check (.selectOf ts cs) arguments.length strict with
  | error e => exact .refused e
  | ok _ => exact hplanned

end MiniSql
