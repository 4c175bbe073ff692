/-
# Where a text is refused

A parser comes to the tokens ahead one by one. It takes none that is invalid, and what it refuses is
the token that it has come to, or the end of the text (`Located`). Each way to build a parser keeps
this, so it holds of every rule of the grammar, whatever the tokens are.

| a text | is |
| --- | --- |
| that is refused | refused at one of its tokens, with valid ones before it, or at its end |
| with an invalid token | refused at that token or at one before it |

`parse_refused` says so of every text.
-/

import MiniSql.Database
import MiniSql.Proofs.Grammar.Slices
import MiniSql.Proofs.Grammar.Soundness.Predicates

namespace MiniSql
namespace Grammar

/-- None of the tokens is invalid. -/
def Valid (u : List Token) : Prop := ∀ t ∈ u, t.kind ≠ .invalid

/-- An empty list of tokens has no invalid one. -/
@[simp] theorem valid_nil : Valid [] := by simp [Valid]

/-- Tokens are valid if the first one is and the others are. -/
@[simp] theorem valid_cons {t : Token} {u : List Token} :
    Valid (t :: u) ↔ t.kind ≠ .invalid ∧ Valid u := by simp [Valid]

/-- Tokens in a row are valid if both parts are. -/
@[simp] theorem valid_append {u v : List Token} : Valid (u ++ v) ↔ Valid u ∧ Valid v := by
  simp [Valid, or_imp, forall_and]

/-- The tokens begin with valid ones, and what is found is the token behind these, if there is
one. -/
def FoundIn (ahead : List Token) (found : Option Token) : Prop :=
  ∃ u v, ahead = u ++ v ∧ Valid u ∧ found = v.head?

/-- The token that a parser stands at is found behind no tokens at all. -/
theorem FoundIn.here (ahead : List Token) : FoundIn ahead ahead.head? :=
  ⟨[], ahead, rfl, by simp, rfl⟩

/-- What is found behind valid tokens is still found with more valid ones in front. -/
theorem FoundIn.behind {u ahead : List Token} {found : Option Token} (hu : Valid u)
    (h : FoundIn ahead found) : FoundIn (u ++ ahead) found := by
  obtain ⟨v, w, rfl, hv, hw⟩ := h
  exact ⟨u ++ v, w, by simp, by simp [hu, hv], hw⟩

namespace Parser

variable {α β σ : Type}

/-- The parser takes valid tokens only, and refuses the token behind those it could take. -/
structure Located (p : Parser α) : Prop where
  takes : ∀ {ahead a rest}, Reads p ahead a rest → ∃ u, ahead = u ++ rest ∧ Valid u
  stops : ∀ {ahead e}, p ahead = .error e → FoundIn ahead e.found

/-! ## Ways to build a parser -/

/-- A parser that takes nothing is located. -/
theorem located_pure (a : α) : Located (pure a) where
  takes h := by
    obtain ⟨rfl, rfl⟩ := reads_pure.1 h
    exact ⟨[], rfl, by simp⟩
  stops h := by cases h

/-- **One parser behind the other** is located if both are: the second stops behind what the first
has taken. -/
theorem located_bind {p : Parser α} {f : α → Parser β} (hp : Located p)
    (hf : ∀ a, Located (f a)) : Located (p >>= f) where
  takes h := by
    obtain ⟨a, mid, ha, hb⟩ := reads_bind.1 h
    obtain ⟨u, rfl, hu⟩ := hp.takes ha
    obtain ⟨v, rfl, hv⟩ := (hf a).takes hb
    exact ⟨u ++ v, by simp, by simp [hu, hv]⟩
  stops {ahead e} h := by
    change andThen p f ahead = _ at h
    unfold andThen at h
    split at h
    · cases h
      exact hp.stops (by assumption)
    · rename_i r hr
      split at h
      · cases h
        obtain ⟨u, hu, hvalid⟩ := hp.takes (reads_of_eq hr)
        rw [hu]
        exact .behind hvalid ((hf r.value).stops (by assumption))
      · cases h

/-- A parser that always refuses stops at the token it has come to. -/
theorem located_refuse (w : Wanted) : Located (refuse w : Parser α) where
  takes h := absurd h not_reads_refuse
  stops h := by
    cases h
    exact .here _

/-- Looking at the next token takes none. -/
theorem located_look : Located look where
  takes h := by
    obtain ⟨-, rfl⟩ := reads_look.1 h
    exact ⟨[], rfl, by simp⟩
  stops h := by cases h

/-- A token that must come is taken if it has its kind, and is refused otherwise. -/
theorem located_expect {k : Kind} (hk : k ≠ .invalid) : Located (expect k) where
  takes h := by
    obtain ⟨rfl, ht⟩ := reads_expect.1 h
    exact ⟨[_], rfl, by simp [ht, hk]⟩
  stops {ahead e} h := by
    unfold expect at h
    split at h
    · cases h
      exact .here []
    · split at h <;> cases h
      exact .here _

/-- A keyword that must come is a token of its kind. -/
theorem located_expectWord (k : Keyword) : Located (expectWord k) := located_expect (by simp)

/-- A token that may come is taken or left. -/
theorem located_accept {k : Kind} (hk : k ≠ .invalid) : Located (accept k) where
  takes {ahead a rest} h := by
    cases a with
    | true =>
      obtain ⟨t, rfl, ht⟩ := reads_accept_true.1 h
      exact ⟨[t], rfl, by simp [ht, hk]⟩
    | false =>
      obtain ⟨rfl, -⟩ := reads_accept_false.1 h
      exact ⟨[], rfl, by simp⟩
  stops {ahead e} h := by
    unfold accept at h
    split at h
    · cases h
    · split at h <;> cases h

/-- A keyword that may come is a token of its kind. -/
theorem located_acceptWord (k : Keyword) : Located (acceptWord k) := located_accept (by simp)

/-- A choice between two located parsers is located, whichever way it goes. -/
theorem located_ite {c : Prop} [Decidable c] {p q : Parser α} (hp : Located p) (hq : Located q) :
    Located (if c then p else q) := by
  split
  · exact hp
  · exact hq

/-- A loop makes its rounds at valid tokens. -/
theorem located_loop {round : Token → Option (σ → Parser σ)}
    (h : ∀ {t f}, round t = some f → t.kind ≠ .invalid ∧ ∀ s, Located (f s)) (s : σ) :
    Located (loop round s) where
  takes hreads := by
    obtain ⟨u, hu, hvalid⟩ := hreads.loop_invariant (I := fun u _ => Valid u) (u := [])
      (fun {u s t f tail s' mid} hu hf hread => by
        obtain ⟨v, rfl, hv⟩ := ((h hf).2 s).takes hread
        exact ⟨v, rfl, by simp [hu, hv, (h hf).1]⟩) (by simp)
    exact ⟨u, hu, hvalid⟩
  stops {ahead e} herror := by
    induction hn : ahead.length using Nat.strongRecOn generalizing ahead s with
    | ind n ih =>
      rw [loop.eq_def] at herror
      split at herror
      · cases herror
      · rename_i t rest
        split at herror
        · cases herror
        · rename_i f hf
          obtain ⟨ht, hlocated⟩ := h hf
          split at herror
          · cases herror
            exact .behind (u := [t]) (by simp [ht]) ((hlocated s).stops (by assumption))
          · rename_i r hr
            split at herror
            · rename_i e' he'
              cases herror
              have hle := r.rest_le
              simp only [List.length_cons] at hn
              obtain ⟨u, hu, hvalid⟩ := (hlocated s).takes (reads_of_eq hr)
              have hfound := ih r.rest.length (by omega) r.value he' rfl
              rw [hu]
              exact .behind (u := t :: u) (by simp [ht, hvalid]) hfound
            · cases herror

/-- A loop whose rounds all start with the same kind of token. -/
theorem located_rounds {k : Kind} (hk : k ≠ .invalid) {f : σ → Parser σ} (hf : ∀ s, Located (f s))
    (s : σ) : Located (loop (fun t => if t.kind = k then some f else none) s) := by
  refine located_loop (fun {t f'} hround => ?_) s
  split at hround
  · rename_i ht
    cases hround
    exact ⟨by rwa [ht], hf⟩
  · cases hround

/-- A list with commas is located if its items are. -/
theorem located_commaList {item : Parser α} (h : Located item) : Located (commaList item) :=
  located_bind h fun _ => located_rounds (by simp)
    (fun _ => located_bind h fun _ => located_pure _) _

/-- A chain of operands with one word between them is located if the operands are. -/
theorem located_chain (k : Keyword) {operand : Parser Tree} (h : Located operand) :
    Located (chain k operand) :=
  located_bind h fun _ => located_rounds (by simp)
    (fun _ => located_bind h fun _ => located_pure _) _

/-- A name is one token, which is refused if it spells none. -/
theorem located_name : Located name where
  takes h := by
    obtain ⟨t, rfl, ht⟩ := reads_name.1 h
    refine ⟨[t], rfl, ?_⟩
    rcases Token.kind_of_name? ht with hk | hk | ⟨k, hk, -⟩ <;> simp [hk]
  stops {ahead e} h := by
    unfold name at h
    split at h
    · cases h
      exact .here []
    · split at h
      · cases h
      · cases h
      · split at h <;> cases h
        exact .here _
      · cases h
        exact .here _

/-- The name of a table is a name. -/
theorem located_table : Located table := located_bind located_name fun _ => located_pure _

/-! ## Values and predicates -/

/-- A column is a name, or two names with a full stop between them. -/
theorem located_column : Located column :=
  located_bind located_name fun _ => located_bind (located_accept (by simp)) fun _ =>
    located_ite (located_bind located_name fun _ => located_pure _) (located_pure _)

/-- The current time is one word, or a word with brackets. -/
theorem located_currentTimestamp : Located currentTimestamp :=
  located_bind (located_acceptWord _) fun _ => located_ite
    (located_bind (located_expect (by simp)) fun _ =>
      located_bind (located_expect (by simp)) fun _ => located_pure _)
    (located_bind (located_expectWord _) fun _ => located_pure _)

/-- A leaf is one token of its kind. -/
theorem located_leafOf {k : Kind} (hk : k ≠ .invalid) : Located (leafOf k) :=
  located_bind (located_expect hk) fun _ => located_pure _

/-- A negative number is a sign and a number. -/
theorem located_negative : Located negative :=
  located_bind (located_expect (by simp)) fun _ =>
    located_bind (located_expect (by simp)) fun _ => located_pure _

/-- A value is chosen by the token that it begins with. -/
theorem located_value : Located value := by
  refine located_bind located_look fun ahead => ?_
  cases ahead with
  | nil => exact located_refuse _
  | cons t ahead =>
    dsimp only
    split
    · exact located_negative
    all_goals first
      | exact located_leafOf (by simp_all)
      | exact located_ite located_currentTimestamp located_column
      | exact located_column

/-- What follows `IS` stops at the first word that does not fit. -/
theorem located_nullTest (operand : Tree) : Located (nullTest operand) :=
  located_bind (located_acceptWord _) fun _ => located_ite
    (located_bind (located_expectWord _) fun _ => located_pure _)
    (located_bind (located_expectWord _) fun _ => located_pure _)

/-- What follows a value in a condition is a comparison, a test or nothing. -/
theorem located_atomRest (left : Tree) : Located (atomRest left) := by
  refine located_bind located_look fun ahead => ?_
  cases ahead with
  | nil => exact located_ite (located_pure _) (located_refuse _)
  | cons t ahead =>
    dsimp only
    split
    · rename_i ht
      have hk : t.kind ≠ .invalid := fun h => by
        rw [h] at ht
        cases ht
      exact located_bind (located_expect hk) fun _ =>
        located_bind located_value fun _ => located_pure _
    · exact located_ite
        (located_bind (located_expectWord _) fun _ => located_nullTest left)
        (located_ite (located_pure _) (located_refuse _))

/-- A condition is located if what may stand in its brackets is. -/
theorem located_atom {inner : Parser Tree} (h : Located inner) : Located (atom inner) :=
  located_bind (located_accept (by simp)) fun _ => located_ite
    (located_bind h fun _ => located_bind (located_expect (by simp)) fun _ => located_pure _)
    (located_bind located_value fun _ => located_atomRest _)

/-- Predicates with limited nesting are located, by induction on the limit. -/
theorem located_predicateWithin (depth : Nat) : Located (predicateWithin depth) := by
  induction depth with
  | zero => exact located_refuse _
  | succ depth ih => exact located_chain _ (located_chain _ (located_atom ih))

/-- A predicate is one whose nesting is limited by the number of its tokens. -/
theorem located_predicate : Located predicate where
  takes h := (located_predicateWithin _).takes h
  stops h := (located_predicateWithin _).stops h

/-! ## Queries -/

/-- A call of an aggregate stops inside its brackets or behind them. -/
theorem located_call (k : Keyword) : Located (call k) := by
  have hclose (argument : Tree) :
      Located (do let _ ← expect .closeParen; return Tree.word k [argument]) :=
    located_bind (located_expect (by simp)) fun _ => located_pure _
  exact located_bind (located_expectWord _) fun _ => located_bind (located_expect (by simp)) fun _ =>
    located_bind (located_accept (by simp)) fun _ => located_ite
      (located_ite (located_bind (located_pure _) hclose) (located_bind (located_refuse _) hclose))
      (located_bind located_column hclose)

/-- The star of a table is three tokens. -/
theorem located_tableStar : Located tableStar :=
  located_bind located_name fun _ => located_bind (located_expect (by simp)) fun _ =>
    located_bind (located_expect (by simp)) fun _ => located_pure _

/-- What is selected is chosen by the token that it begins with. -/
theorem located_selectItem : Located selectItem := by
  refine located_bind located_look fun ahead => ?_
  cases ahead with
  | nil => exact located_column
  | cons t ahead =>
    refine located_ite (located_leafOf (by simp)) ?_
    split
    · exact located_call _
    · exact located_ite located_tableStar located_column

/-- A joined table stops behind its condition. -/
theorem located_joined (marks : List Tree) : Located (joined marks) :=
  located_bind located_table fun _ => located_bind (located_expectWord _) fun _ =>
    located_bind located_predicate fun _ => located_pure _

/-- Joins follow each other as long as a round of the loop takes one. -/
theorem located_joins : Located (loop joinRound []) := by
  refine located_loop (fun {t f} hf => ?_) _
  unfold joinRound at hf
  split at hf <;> cases hf <;> rename_i ht <;> refine ⟨by simp [ht], fun read => ?_⟩
  · exact located_bind (located_acceptWord _) fun _ => located_bind (located_expectWord _) fun _ =>
      located_bind (located_joined _) fun _ => located_pure _
  · exact located_bind (located_expectWord _) fun _ =>
      located_bind (located_joined _) fun _ => located_pure _
  · exact located_bind (located_joined _) fun _ => located_pure _

/-- A sort key is a column with a direction or without. -/
theorem located_sortKey : Located sortKey :=
  located_bind located_column fun _ => located_bind (located_acceptWord _) fun _ =>
    located_ite (located_pure _) (located_bind (located_acceptWord _) fun _ => located_pure _)

/-- The number of a `LIMIT` or an `OFFSET` is refused where it stands, after it has been read. -/
theorem located_countOf (clause : Keyword) : Located (countOf clause) where
  takes hreads := by
    obtain ⟨number, mid, hnumber, h⟩ := reads_bind.1 hreads
    obtain ⟨rfl, hk⟩ := reads_expect.1 hnumber
    split at h
    · obtain ⟨-, rfl⟩ := reads_pure.1 h
      exact ⟨[number], rfl, by simp [hk]⟩
    · obtain ⟨_, h⟩ := h
      cases h
  stops {ahead e} h := by
    unfold countOf at h
    change andThen (expect .number) _ ahead = _ at h
    unfold andThen at h
    split at h
    · cases h
      exact (located_expect (k := .number) (by simp)).stops (by assumption)
    · rename_i r hr
      obtain ⟨hahead, -⟩ := reads_expect.1 (reads_of_eq hr)
      split at h
      · rename_i e' he'
        cases h
        cases hcount : Number.readCount r.value.lexeme with
        | ok n =>
          simp only [hcount] at he'
          cases he'
        | error fault =>
          simp only [hcount] at he'
          cases he'
          exact ⟨[], _, hahead, valid_nil, rfl⟩
      · cases h

/-- Clauses follow each other in any order, whatever has been collected before. -/
theorem located_clauses (c : Clauses) : Located (loop clauseRound c) := by
  refine located_loop (fun {t f} hf => ?_) _
  unfold clauseRound at hf
  split at hf <;> cases hf <;> rename_i ht <;> refine ⟨by simp [ht], fun read => ?_⟩
  · exact located_bind located_predicate fun _ => located_ite (located_pure _) (located_refuse _)
  · exact located_bind (located_expectWord _) fun _ =>
      located_bind (located_commaList located_sortKey) fun _ => located_pure _
  · exact located_bind (located_countOf _) fun _ => located_pure _
  · exact located_bind (located_countOf _) fun _ => located_pure _
  · exact located_bind (located_expectWord _) fun _ => located_pure _

/-- A `SELECT` stops in its items, its tables or its clauses. -/
theorem located_selectStatement : Located selectStatement :=
  located_bind (located_expectWord _) fun _ =>
    located_bind (located_commaList located_selectItem) fun _ =>
      located_bind (located_expectWord _) fun _ =>
        located_bind (located_commaList located_table) fun _ =>
          located_bind located_joins fun _ =>
            located_bind (located_clauses _) fun _ => located_pure _

/-! ## Other statements -/

/-- Something in parentheses that may be missing. -/
theorem located_parens {items : Parser (List α)} (h : Located items) :
    Located (do
      if ← accept .openParen then
        let read ← items
        let _ ← expect .closeParen
        return read
      else return []) :=
  located_bind (located_accept (by simp)) fun _ => located_ite
    (located_bind h fun _ => located_bind (located_expect (by simp)) fun _ => located_pure _)
    (located_pure _)

/-- A tuple is a list of values in brackets. -/
theorem located_tuple : Located tuple :=
  located_bind (located_expect (by simp)) fun _ =>
    located_bind (located_commaList located_value) fun _ =>
      located_bind (located_expect (by simp)) fun _ => located_pure _

/-- The columns of an `INSERT` are a list of names in brackets, or nothing. -/
theorem located_targetColumns : Located targetColumns :=
  located_parens (located_commaList (located_bind located_name fun _ => located_pure _))

/-- An `INSERT` stops in its columns, its tuples or its `RETURNING`. -/
theorem located_insertStatement : Located insertStatement :=
  located_bind (located_expectWord _) fun _ => located_bind (located_expectWord _) fun _ =>
    located_bind located_name fun _ => located_bind located_targetColumns fun _ =>
      located_bind (located_expectWord _) fun _ =>
        located_bind (located_commaList located_tuple) fun _ =>
          located_bind (located_acceptWord _) fun _ => located_ite
            (located_bind located_column fun _ => located_pure _) (located_pure _)

/-- An assignment is a name, a sign and a value. -/
theorem located_assignment : Located assignment :=
  located_bind located_name fun _ => located_bind (located_expect (by simp)) fun _ =>
    located_bind located_value fun _ => located_pure _

/-- A filter is a word and a predicate, or nothing. -/
theorem located_filter : Located filter :=
  located_bind (located_acceptWord _) fun _ => located_ite
    (located_bind located_predicate fun _ => located_pure _) (located_pure _)

/-- An `UPDATE` stops in its assignments or in its filter. -/
theorem located_updateStatement : Located updateStatement :=
  located_bind (located_expectWord _) fun _ => located_bind located_table fun _ =>
    located_bind (located_expectWord _) fun _ =>
      located_bind (located_commaList located_assignment) fun _ =>
        located_bind located_filter fun _ => located_pure _

/-- A `DELETE` stops in its table or in its filter. -/
theorem located_deleteStatement : Located deleteStatement :=
  located_bind (located_expectWord _) fun _ => located_bind (located_expectWord _) fun _ =>
    located_bind located_table fun _ => located_bind located_filter fun _ => located_pure _

/-- A `TRUNCATE` is words and a table. -/
theorem located_truncateStatement : Located truncateStatement :=
  located_bind (located_expectWord _) fun _ => located_bind (located_acceptWord _) fun _ =>
    located_bind located_table fun _ => located_pure _

/-- A `DROP` may have its condition in front of the table. -/
theorem located_dropStatement : Located dropStatement :=
  located_bind (located_expectWord _) fun _ => located_bind (located_expectWord _) fun _ =>
    located_bind (located_acceptWord _) fun _ => located_ite
      (located_bind (located_expectWord _) fun _ =>
        located_bind located_table fun _ => located_pure _)
      (located_bind located_table fun _ => located_pure _)

/-- Sizes are a list of numbers in brackets, or nothing. -/
theorem located_sizes : Located sizes :=
  located_parens (located_commaList (located_leafOf (by simp)))

/-- The type of a column is chosen by the token that it begins with. -/
theorem located_columnType : Located columnType := by
  refine located_bind located_look fun ahead => ?_
  cases ahead with
  | nil => exact located_refuse _
  | cons t ahead =>
    dsimp only
    split
    · exact located_bind (located_expectWord _) fun _ =>
        located_bind (located_acceptWord _) fun _ => located_ite
          (located_bind (located_expectWord _) fun _ =>
            located_bind (located_expectWord _) fun _ => located_pure _)
          (located_pure _)
    · exact located_ite
        (located_bind (located_expectWord _) fun _ =>
          located_bind located_sizes fun _ => located_pure _)
        (located_refuse _)
    · exact located_refuse _

/-- Modifiers of a column follow each other in any order. -/
theorem located_modifiers (modifiers : List Tree) : Located (loop modifierRound modifiers) := by
  refine located_loop (fun {t f} hf => ?_) _
  unfold modifierRound at hf
  split at hf <;> cases hf <;> rename_i ht <;> refine ⟨by simp [ht], fun read => ?_⟩
  · exact located_pure _
  · exact located_pure _
  · exact located_pure _
  · exact located_bind (located_expectWord _) fun _ => located_pure _
  · exact located_bind located_value fun _ => located_pure _
  · exact located_bind (located_expectWord _) fun _ =>
      located_bind located_currentTimestamp fun _ => located_pure _
  · exact located_bind (located_expectWord _) fun _ => located_pure _

/-- A column is defined by its name, its type and its modifiers. -/
theorem located_columnDefinition : Located columnDefinition :=
  located_bind located_name fun _ => located_bind located_columnType fun _ =>
    located_bind (located_modifiers _) fun _ => located_pure _

/-- A table is defined by its columns in brackets. -/
theorem located_tableDefinition : Located tableDefinition :=
  located_bind located_name fun _ => located_bind (located_expect (by simp)) fun _ =>
    located_bind (located_commaList located_columnDefinition) fun _ =>
      located_bind (located_expect (by simp)) fun _ => located_pure _

/-- A `CREATE` stops in its name or in its definition. -/
theorem located_createStatement : Located createStatement :=
  located_bind (located_expectWord _) fun _ => located_bind (located_expectWord _) fun _ =>
    located_bind (located_acceptWord _) fun _ => located_ite
      (located_bind (located_expectWord _) fun _ => located_bind (located_expectWord _) fun _ =>
        located_bind located_tableDefinition fun _ => located_pure _)
      (located_bind located_tableDefinition fun _ => located_pure _)

/-- A statement is chosen by the word that it begins with. -/
theorem located_statement : Located statement := by
  refine located_bind located_look fun ahead => ?_
  split
  · exact located_selectStatement
  · exact located_insertStatement
  · exact located_updateStatement
  · exact located_deleteStatement
  · exact located_createStatement
  · exact located_dropStatement
  · exact located_truncateStatement
  · exact located_refuse _

/-- A statement and the end of the text, with a semicolon between them or not. -/
theorem located_wholeStatement : Located wholeStatement := by
  refine located_bind located_statement fun read => located_bind (located_accept (by simp)) fun _ =>
    located_bind located_look fun ahead => ?_
  split
  · exact located_pure _
  · exact located_refuse _

/-- A statement that is read leaves no token. -/
theorem rest_of_wholeStatement {ahead rest : List Token} {t : Tree}
    (h : Reads wholeStatement ahead t rest) : rest = [] := by
  unfold wholeStatement at h
  obtain ⟨read, mid, -, h⟩ := reads_bind.1 h
  obtain ⟨closed, mid, -, h⟩ := reads_bind.1 h
  rw [reads_look_bind] at h
  split at h
  · exact (reads_pure.1 h).2.symm
  · exact absurd h not_reads_refuse

end Parser

/-- **A text that is read has valid tokens only.** -/
theorem valid_of_parse {s : String} {t : Tree} (h : parse s = .ok t) : Valid (tokenize s) := by
  unfold parse at h
  split at h
  · rename_i r hr
    have hreads := Parser.reads_of_eq hr
    obtain ⟨u, hu, hvalid⟩ := Parser.located_wholeStatement.takes hreads
    rwa [hu, Parser.rest_of_wholeStatement hreads, List.append_nil]
  · cases h

/-- **A text that is refused** is refused at the first token that could not be taken, or at its
end. -/
theorem foundIn_of_parse {s : String} {f : Fault} (h : parse s = .error f) :
    FoundIn (tokenize s) f.refusal.found ∧ f.stop = s.utf8ByteSize := by
  unfold parse at h
  split at h
  · cases h
  · cases h
    exact ⟨Parser.located_wholeStatement.stops (by assumption), (utf8ByteSize_eq_byteLength s).symm⟩

/-- **A text with an invalid token is refused,** since no parser takes one. -/
theorem exists_fault_of_invalid {s : String} (h : ¬Valid (tokenize s)) :
    ∃ f, parse s = .error f := by
  cases hparse : parse s with
  | ok t => exact absurd (valid_of_parse hparse) h
  | error f => exact ⟨f, rfl⟩

/-- **Every refusal is located.** -/
theorem parse_refused (s : String) :
    (∀ f, parse s = .error f →
      (∀ arguments strict, Plan.ofText s arguments strict = .error (.grammar f)) ∧
        ((∃ u t v, tokenize s = u ++ t :: v ∧ Valid u ∧ f.token = t.lexeme ∧
            f.position = t.position) ∨
          Valid (tokenize s) ∧ f.token = "" ∧ f.position = s.utf8ByteSize)) ∧
      ((∃ t ∈ tokenize s, t.kind = .invalid) → ∃ f, parse s = .error f) := by
  refine ⟨fun f hf => ⟨fun arguments strict => ?_, ?_⟩, fun ⟨t, ht, hk⟩ => ?_⟩
  · unfold Plan.ofText
    rw [hf]
  · obtain ⟨⟨u, v, htokens, hu, hfound⟩, hstop⟩ := foundIn_of_parse hf
    unfold Fault.token Fault.position
    rw [hfound]
    cases v with
    | nil =>
      rw [List.append_nil] at htokens
      exact .inr ⟨htokens ▸ hu, rfl, hstop⟩
    | cons t v => exact .inl ⟨u, t, v, htokens, hu, rfl, rfl⟩
  · exact exists_fault_of_invalid fun hvalid => hvalid t ht hk

/-- A sign that no token has, in a list of items, before a quote that is never closed. -/
theorem parse_refused_sign :
    parse "SELECT a, # FROM 'é" = .error ⟨⟨.name, some ⟨.invalid, "#", 10⟩⟩, 20⟩ ∧
      ∃ u t v, tokenize "SELECT a, # FROM 'é" = u ++ t :: v ∧ Valid u ∧ "#" = t.lexeme ∧
        10 = t.position := by
  have h : parse "SELECT a, # FROM 'é" = .error ⟨⟨.name, some ⟨.invalid, "#", 10⟩⟩, 20⟩ := by
    decide +kernel
  obtain hfound | ⟨-, hend, -⟩ := ((parse_refused _).1 _ h).2
  · exact ⟨h, hfound⟩
  · exact absurd hend (by decide)

end Grammar
end MiniSql
