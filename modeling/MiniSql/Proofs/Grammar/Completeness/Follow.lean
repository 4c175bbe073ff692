/-
# Reading up to what follows

A parser stops where the next token does not carry on what it reads, so what it reads is said
together with the tokens that would (`Parser.Takes`):

| behind | carries on |
| --- | --- |
| a column | a full stop |
| a value | that, and an opening parenthesis |
| an atom | that, a comparison and `IS` |
| a conjunction | that, and `AND` |
| a predicate | that, and `OR` |
| a list | what carries on its last item, and a comma |

A chain or a loop is read from the left although its relation is built from the right. What is
proved by induction is therefore that whatever the loop reads from where it stands, the whole
reads from the start (`Parser.LeadsTo`).
-/

import MiniSql.Proofs.Grammar.Soundness

namespace MiniSql
namespace Grammar

/-- The kinds that carry on a column. -/
def Kind.afterColumn (k : Kind) : Bool := k == .period

/-- The kinds that carry on a value, or make another one of it. -/
def Kind.afterValue (k : Kind) : Bool := k.afterColumn || k == .openParen

/-- The kinds that carry on an atom. -/
def Kind.afterAtom (k : Kind) : Bool := k.afterValue || k.isComparison || k == .keyword .IS

/-- The kinds that carry on a conjunction. -/
def Kind.afterConjunction (k : Kind) : Bool := k.afterAtom || k == .keyword .AND

/-- The kinds that carry on a predicate. -/
def Kind.afterPredicate (k : Kind) : Bool := k.afterConjunction || k == .keyword .OR

/-- The kinds that carry on a column to sort by. -/
def Kind.afterSortKey (k : Kind) : Bool :=
  k.afterColumn || k == .keyword .ASC || k == .keyword .DESC

/-- The kinds that carry on a clause of a query. -/
def Kind.afterClause (k : Kind) : Bool := k.afterPredicate || k.afterSortKey || k == .comma

/-- The kinds that neither open a clause of a query nor end a statement. -/
def Kind.opensNoClause : Kind → Bool
  | .keyword .WHERE | .keyword .ORDER | .keyword .LIMIT | .keyword .OFFSET | .keyword .FOR => false
  | .semicolon => false
  | _ => true

/-- The kinds that neither open a join or a clause nor end a statement. -/
def Kind.opensNoJoin : Kind → Bool
  | .keyword .LEFT | .keyword .INNER | .keyword .JOIN => false
  | k => k.opensNoClause

/-- The kinds that carry on a type. -/
def Kind.afterType (k : Kind) : Bool := k == .openParen || k == .keyword .WITH

/-- The kinds that carry on a modifier. -/
def Kind.afterModifier (k : Kind) : Bool := k.afterValue || k.afterType

/-- The kinds that do not end the definition of a column. -/
def Kind.endsNoColumn (k : Kind) : Bool := k != .comma && k != .closeParen

/-- A comparison sign does not go on with a value. -/
theorem Kind.afterValue_of_isComparison {k : Kind} (h : k.isComparison = true) :
    k.afterValue = false := by
  cases k <;> first | rfl | cases h

/-- What opens neither a join nor a clause opens no clause. -/
theorem Kind.opensNoClause_of_opensNoJoin {k : Kind} (h : k.opensNoJoin = true) :
    k.opensNoClause = true := by
  unfold Kind.opensNoJoin at h
  split at h <;> first | exact h | cases h

/-- What carries on a predicate opens no clause. -/
theorem Kind.opensNoClause_of_afterPredicate {k : Kind} (h : k.afterPredicate = true) :
    k.opensNoClause = true := by
  unfold Kind.opensNoClause
  split <;> first | rfl | cases h

namespace Parser

open Spells

variable {α β σ : Type}

/-- The token ahead, if there is one, is of no such kind. -/
def Ends (after : Kind → Bool) (ahead : List Token) : Prop :=
  ∀ t ∈ ahead.head?, after t.kind = false

/-- The tokens ahead end a construct when the first one does not go on with it. -/
@[simp] theorem ends_cons {after : Kind → Bool} {t : Token} {ahead : List Token} :
    Ends after (t :: ahead) ↔ after t.kind = false := by simp [Ends]

/-- A token of a kind that does not go on with a construct ends it. -/
theorem ends_of_kind {after : Kind → Bool} {t : Token} {k : Kind} {ahead : List Token}
    (ht : t.kind = k) (hk : after k = false) : Ends after (t :: ahead) :=
  ends_cons.2 (ht ▸ hk)

/-- What ends the longer construct ends the shorter one. -/
theorem Ends.mono {after after' : Kind → Bool} {ahead : List Token} (h : Ends after ahead)
    (hk : ∀ k, after' k = true → after k = true) : Ends after' ahead := by
  intro t ht
  have := h t ht
  grind

/-- Where a construct has ended, no token that would go on with it stands ahead. -/
theorem Ends.notAhead {after : Kind → Bool} {ahead : List Token} {k : Kind}
    (h : Ends after ahead) (hk : after k = true) : NotAhead k ahead := by
  rintro t ht rfl
  rw [h t ht] at hk
  cases hk

/-- The parser reads `a` off the tokens `u`, unless the token behind them carries it on. -/
def Takes (p : Parser α) (after : Kind → Bool) (u : List Token) (a : α) : Prop :=
  ∀ ⦃rest⦄, Ends after rest → Reads p (u ++ rest) a rest

/-- Whatever the grammar spells, the parser reads. -/
def Complete (p : Parser α) (G : List Token → α → Prop) (after : Kind → Bool) : Prop :=
  ∀ {u a}, G u a → Takes p after u a

/-- No token carries on what is read. -/
def nothing (_ : Kind) : Bool := false

/-- A construct that nothing goes on with ends everywhere. -/
theorem ends_nothing (ahead : List Token) : Ends nothing ahead := fun _ _ => rfl

/-- A name is read whole, and put into any node. -/
theorem name_complete (node : String → Tree) :
    Complete (do return node (← name)) (Name node) nothing := by
  rintro u t ⟨h⟩ rest -
  simp [h]

/-- The name of a table is read whole. -/
theorem table_complete : Complete table Table nothing := name_complete _

/-- A column is read with its qualifier, before anything but a full stop. -/
theorem column_complete : Complete column Column Kind.afterColumn := by
  intro u c h rest hr
  unfold column
  simp only [reads_bind, ↓reads_accept_bind, reads_name, reads_pure, if_true,
    Bool.false_eq_true, if_false]
  cases h with
  | plain h => exact ⟨_, _, ⟨_, rfl, h⟩, .inr ⟨hr.notAhead rfl, rfl, rfl⟩⟩
  | qualified ht hd hc =>
    exact ⟨_, _, ⟨_, rfl, ht⟩, .inl ⟨_, _, rfl, hd, _, _, ⟨_, rfl, hc⟩, rfl, rfl⟩⟩

/-- A token of the wanted kind is read as a leaf. -/
theorem leafOf_complete {t : Token} {k : Kind} (h : t.kind = k) {rest : List Token} :
    Reads (leafOf k) (t :: rest) (.ofToken t) rest := by
  unfold leafOf
  simp only [reads_bind, reads_expect, reads_pure]
  exact ⟨_, _, ⟨rfl, h⟩, rfl, rfl⟩

/-- Both spellings of the current time are read. -/
theorem currentTimestamp_complete : Complete currentTimestamp CurrentTime nothing := by
  intro u t h rest _
  unfold currentTimestamp
  simp only [reads_bind, ↓reads_acceptWord_bind, reads_expect, reads_expectWord,
    reads_pure, if_true, Bool.false_eq_true, if_false]
  cases h with
  | word h => exact .inr ⟨by simp [h], _, _, ⟨rfl, h⟩, rfl, rfl⟩
  | now ht ho hc => exact .inl ⟨_, _, rfl, ht, _, _, ⟨rfl, ho⟩, _, _, ⟨rfl, hc⟩, rfl, rfl⟩

/-- A token of the kind is seen ahead. -/
theorem aheadIs_eq_true {k : Kind} {t : Token} {ahead : List Token} (h : t.kind = k) :
    aheadIs k (t :: ahead) = true := by simp [aheadIs, h]

/-- Where none of the kind stands ahead, none is seen. -/
theorem aheadIs_eq_false {k : Kind} {ahead : List Token} (h : NotAhead k ahead) :
    aheadIs k ahead = false := by
  cases ahead with
  | nil => rfl
  | cons t ahead => simpa [aheadIs] using h

/-- A value that starts with a name is a column, unless the name is a string or a call. -/
theorem value_of_name {t : Token} {n : String} {tail rest : List Token} {c : Tree}
    (h : t.name? = some n) (ht : t.kind ≠ .string) (hp : NotAhead .openParen tail)
    (hc : Reads column (t :: tail) c rest) : Reads value (t :: tail) c rest := by
  unfold value
  rw [reads_look_bind]
  rcases Token.kind_of_name? h with hk | hk | ⟨k, hk, hr⟩
  · simpa [hk] using hc
  · exact absurd hk ht
  · simp only [hk]
    split <;> first | exact hc | simp_all [Keyword.reserved, aheadIs_eq_false hp]

/-- **A value** is read whole, whichever form it has. -/
theorem value_complete : Complete value Value Kind.afterValue := by
  intro u v h rest hr
  have hcol : Ends Kind.afterColumn rest := hr.mono (by simp +contextual [Kind.afterValue])
  cases h with
  | @literal t h =>
    have ht : Tree.leaf t.kind t.lexeme = .ofToken t := by
      unfold Tree.ofToken
      split
      · simp_all [Kind.isLiteral]
      · rfl
    unfold value
    rw [reads_look_bind, ht]
    simp only [List.cons_append, List.nil_append]
    split <;> first | exact leafOf_complete rfl | simp_all [Kind.isLiteral]
  | @negative m n hm hn =>
    unfold value
    rw [reads_look_bind]
    simp only [List.cons_append, hm]
    unfold negative
    simp only [reads_bind, reads_expect, reads_pure]
    exact ⟨_, _, ⟨rfl, hm⟩, _, _, ⟨rfl, hn⟩, rfl, rfl⟩
  | @word t k h hk =>
    have ht : Tree.word k [] = .ofToken t := by simp [Tree.ofToken, h]
    unfold value
    rw [reads_look_bind, ht]
    simp only [List.cons_append, List.nil_append, h]
    split <;> first | exact leafOf_complete h | simp_all [Keyword.isValue]
  | now h =>
    have hc := currentTimestamp_complete h (ends_nothing rest)
    unfold value
    rw [reads_look_bind]
    cases h with
    | @word t h => simpa [h, Tree.ofToken] using leafOf_complete h
    | now ht ho hc' => simpa [ht, aheadIs_eq_true ho] using hc
  | column h ht =>
    have hc := column_complete h hcol
    cases h with
    | plain hn => exact value_of_name hn ht (hr.notAhead rfl) hc
    | qualified hn hd hm => exact value_of_name hn ht (by simp [hd]) hc

/-! ## Loops -/

/-- The whole reads `u` and stands at its loop in state `s`: what the loop reads from there, the
whole reads from the start of `u`. -/
def LeadsTo (whole : Parser σ) (round : Token → Option (σ → Parser σ)) (after : Kind → Bool)
    (u : List Token) (s : σ) : Prop :=
  ∀ ⦃rest s' stop⦄, Ends after rest → Reads (loop round s) rest s' stop →
    Reads whole (u ++ rest) s' stop

section Loops

variable {whole : Parser σ} {round : Token → Option (σ → Parser σ)} {after : Kind → Bool}
  {u v : List Token} {s s' : σ}

/-- One more round takes the loop on by what the round takes. -/
theorem LeadsTo.step {t : Token} {f : σ → Parser σ} (h : LeadsTo whole round after u s)
    (hf : round t = some f) (ht : after t.kind = false)
    (hr : Takes (f s) after v s') : LeadsTo whole round after (u ++ t :: v) s' := by
  intro rest s'' stop hrest hloop
  have hround : Reads (loop round s) (t :: (v ++ rest)) s'' stop :=
    Reads.loop_round hf (hr hrest) hloop
  simpa using h (ends_cons.2 ht) hround

/-- The loop stops with what it holds where no round is opened. -/
theorem LeadsTo.stop (h : LeadsTo whole round after u s) {rest : List Token}
    (hrest : Ends after rest) (hround : ∀ t ∈ rest.head?, round t = none) :
    Reads whole (u ++ rest) s rest := h hrest (Reads.loop_stop hround)

/-- A loop that adds one thing in each round reads many. -/
theorem many_leadsTo {round : Token → Option (List α → Parser (List α))}
    {G : List Token → α → Prop}
    (step : ∀ {u a}, G u a → ∃ t v f, u = t :: v ∧ round t = some f ∧ after t.kind = false ∧
      ∀ read, Takes (f read) after v (read ++ [a]))
    {as : List α} (h : Many G u as) (start : List α) :
    LeadsTo (loop round start) round after u (start ++ as) := by
  induction h with
  | none =>
    intro rest read stop _ hl
    simpa using hl
  | more hs ha ih =>
    obtain ⟨t, v, f, rfl, hf, ht, hr⟩ := step ha
    simpa using ih.step hf ht (hr _)

end Loops

/-- The rounds of a list with commas. -/
abbrev commaRound (item : Parser α) (t : Token) : Option (List α → Parser (List α)) :=
  if t.kind = .comma then some fun read => do return read ++ [← item] else none

/-- After a comma a list goes on by the items of a further list. -/
theorem commaList_leadsTo {item : Parser α} {G : List Token → α → Prop} {after : Kind → Bool}
    (hi : Complete item G after) (hc : after .comma = false) {v : List Token} {as : List α}
    (h : CommaList G v as) {u : List Token} {read : List α} {c : Token} (hk : c.kind = .comma)
    (hu : LeadsTo (commaList item) (commaRound item) after u read) :
    LeadsTo (commaList item) (commaRound item) after (u ++ c :: v) (read ++ as) := by
  have step {w : List Token} {a : α} {read : List α} (ha : G w a) :
      Takes (do return read ++ [← item]) after w (read ++ [a]) := by
    intro rest hr
    simp only [reads_bind, reads_pure]
    exact ⟨_, _, hi ha hr, rfl, rfl⟩
  induction h generalizing u read c with
  | one ha => exact hu.step (if_pos hk) (hk ▸ hc) (step ha)
  | more ha hd hs ih => simpa using ih hd (hu.step (if_pos hk) (hk ▸ hc) (step ha))

/-- **A list** is read whole, before anything that neither an item nor the list goes on with. -/
theorem commaList_complete {item : Parser α} {G : List Token → α → Prop} {after : Kind → Bool}
    (hi : Complete item G after) (hc : after .comma = false) :
    Complete (commaList item) (CommaList G) fun k => after k || k == .comma := by
  have start {u : List Token} {a : α} (ha : G u a) :
      LeadsTo (commaList item) (commaRound item) after u [a] :=
    fun _ _ _ hr hl => reads_bind.2 ⟨_, _, hi ha hr, hl⟩
  intro u as h rest hr
  have hafter : Ends after rest := hr.mono (by simp +contextual)
  have hstop : ∀ t ∈ rest.head?, commaRound item t = none := fun t ht =>
    if_neg (hr.notAhead (k := .comma) (by simp) t ht)
  cases h with
  | one ha => exact (start ha).stop hafter hstop
  | more ha hk hs => exact (commaList_leadsTo hi hc hs hk (start ha)).stop hafter hstop

/-- What stands in parentheses is read up to the closing one. -/
theorem Complete.parens {p : Parser α} {G : List Token → α → Prop} {after : Kind → Bool}
    (hp : Complete p G after) (hc : after .closeParen = false) {u : List Token} {a : α}
    (h : Parens G u a) (rest : List Token) :
    ∃ o mid c, u ++ rest = o :: mid ∧ o.kind = .openParen ∧ Reads p mid a (c :: rest) ∧
      c.kind = .closeParen := by
  obtain ⟨ho, h, hclose⟩ := h
  exact ⟨_, _, _, by simp, ho, hp h (ends_of_kind hclose hc), hclose⟩

end Parser
end Grammar
end MiniSql
