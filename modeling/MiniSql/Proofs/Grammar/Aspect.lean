/-
# What the grammar looks at in a token

The grammar never looks at where a token stands, nor at how a keyword is written but for the name
that it spells. What is left is the aspect of a token:

| token | kind | name | lexeme |
| --- | --- | --- | --- |
| keyword that is not reserved | yes | in lower case | |
| any other keyword | yes | | |
| any other token | yes | if it spells one | yes |

Tokens with the same aspects spell the same things (`Blind`), one rule of the grammar after the
other, so texts with the same aspects are read alike (`parse_alike`).
-/

import MiniSql.Proofs.Grammar.Completeness

namespace MiniSql
namespace Grammar

open Spells

/-- The kind of a token, the name that it spells, and its lexeme unless it is a keyword. -/
def Token.aspect (t : Token) : Kind × Option String × Option String :=
  (t.kind, t.name?, if t.keyword? = none then some t.lexeme else none)

section Token

variable {t t' : Token}

/-- Tokens of one aspect have one kind. -/
theorem Token.kind_eq (h : t'.aspect = t.aspect) : t'.kind = t.kind := congrArg (·.1) h

/-- A kind is carried over to a token of the same aspect. -/
theorem Token.kind_of {k : Kind} (h : t'.aspect = t.aspect) (hk : t.kind = k) : t'.kind = k :=
  (Token.kind_eq h).trans hk

/-- A name is spelled by every token of the same aspect. -/
theorem Token.name_of {n : String} (h : t'.aspect = t.aspect) (hn : t.name? = some n) :
    t'.name? = some n :=
  (congrArg (·.2.1) h).trans hn

/-- Apart from keywords, tokens of one aspect have one spelling. -/
theorem Token.lexeme_eq (h : t'.aspect = t.aspect) (hk : ∀ k, t.kind ≠ .keyword k) :
    t'.lexeme = t.lexeme := by
  have hnone {t : Token} (hk : ∀ k, t.kind ≠ .keyword k) : t.keyword? = none := by
    unfold Token.keyword?
    split
    · rename_i k hkind
      exact absurd hkind (hk k)
    · rfl
  have hlexeme := congrArg (·.2.2) h
  simp only [Token.aspect, hnone hk, hnone fun k => Token.kind_eq h ▸ hk k] at hlexeme
  exact Option.some.inj hlexeme

/-- A token whose kind is no keyword has the lexeme of any token with its aspect. -/
theorem Token.lexeme_of {k : Kind} (h : t'.aspect = t.aspect) (hk : t.kind = k)
    (hkeyword : ∀ w, k ≠ .keyword w) : t'.lexeme = t.lexeme :=
  Token.lexeme_eq h (hk ▸ hkeyword)

end Token

/-- The tokens have the same aspects. -/
def Alike (u' u : List Token) : Prop := u'.map Token.aspect = u.map Token.aspect

namespace Alike

variable {u u' v v' : List Token} {a b c t : Token}

/-- Alike is a relation both ways. -/
theorem symm (h : Alike u' u) : Alike u u' := Eq.symm h

/-- Only no tokens are like no tokens. -/
theorem nil (h : Alike u' []) : u' = [] := List.map_eq_nil_iff.1 h

/-- Tokens like a first one and others are a token like the first, and others like the others. -/
theorem cons (h : Alike u' (t :: u)) : ∃ t' v', u' = t' :: v' ∧ t'.aspect = t.aspect ∧ Alike v' u :=
  List.map_eq_cons_iff.1 h

/-- Tokens like one token are one token. -/
theorem one (h : Alike u' [a]) : ∃ a', u' = [a'] ∧ a'.aspect = a.aspect :=
  List.map_eq_singleton_iff.1 h

/-- Tokens like two tokens are two tokens. -/
theorem two (h : Alike u' [a, b]) :
    ∃ a' b', u' = [a', b'] ∧ a'.aspect = a.aspect ∧ b'.aspect = b.aspect := by
  obtain ⟨a', _, rfl, ha, h⟩ := h.cons
  obtain ⟨b', rfl, hb⟩ := h.one
  exact ⟨a', b', rfl, ha, hb⟩

/-- Tokens like three tokens are three tokens. -/
theorem three (h : Alike u' [a, b, c]) : ∃ a' b' c', u' = [a', b', c'] ∧ a'.aspect = a.aspect ∧
    b'.aspect = b.aspect ∧ c'.aspect = c.aspect := by
  obtain ⟨a', _, rfl, ha, h⟩ := h.cons
  obtain ⟨b', c', rfl, hb, hc⟩ := h.two
  exact ⟨a', b', c', rfl, ha, hb, hc⟩

/-- Tokens like two parts in a row fall into parts that are like these. -/
theorem split (h : Alike u' (u ++ v)) : ∃ w w', u' = w ++ w' ∧ Alike w u ∧ Alike w' v := by
  obtain ⟨w, w', rfl, hw, hw'⟩ := List.map_eq_append_iff.1 (h.trans List.map_append)
  exact ⟨w, w', rfl, hw, hw'⟩

/-- Tokens that are alike have the same kinds in turn. -/
theorem kinds (h : Alike u' u) : u'.map (·.kind) = u.map (·.kind) := by
  have hkinds := congrArg (List.map (·.1)) h
  rwa [List.map_map, List.map_map] at hkinds

end Alike

/-- What is spelled is told by the aspects of the tokens. -/
def Blind {α : Type} (G : List Token → α → Prop) : Prop :=
  ∀ ⦃u u' a⦄, Alike u' u → G u a → G u' a

section Blind

variable {α : Type} {G : List Token → α → Prop}

/-- A list in which no item sees spellings does not see them either. -/
theorem blind_many (hG : Blind G) : Blind (Many G) := by
  intro u u' as h hs
  induction hs generalizing u' with
  | none =>
    rw [h.nil]
    exact .none
  | more _ ha ih =>
    obtain ⟨v, w, rfl, hv, hw⟩ := h.split
    exact (ih hv).more (hG hw ha)

/-- A list is blind if its items are, since commas say nothing. -/
theorem blind_commaList (hG : Blind G) : Blind (CommaList G) := by
  intro u u' as h hs
  induction hs generalizing u' with
  | one ha => exact .one (hG h ha)
  | more ha hc _ ih =>
    obtain ⟨v, _, rfl, hv, h⟩ := h.split
    obtain ⟨c, w, rfl, hc', hw⟩ := h.cons
    exact .more (hG hv ha) (Token.kind_of hc' hc) (ih hw)

/-- A phrase in brackets is blind if the phrase is. -/
theorem blind_parens (hG : Blind G) : Blind (Parens G) := by
  rintro _ u' a h ⟨ho, ha, hc⟩
  obtain ⟨_, _, rfl, h, hclose⟩ := h.split
  obtain ⟨o, v, rfl, ho', hv⟩ := h.cons
  obtain ⟨c, rfl, hc'⟩ := hclose.one
  exact .mk (Token.kind_of ho' ho) (hG hv ha) (Token.kind_of hc' hc)

/-! ## Predicates -/

/-- The name of a node is what its token spells, and an aspect has that. -/
theorem blind_name (node : String → Tree) : Blind (Name node) := by
  rintro _ u' _ h ⟨hn⟩
  obtain ⟨t, rfl, ht⟩ := h.one
  exact ⟨Token.name_of ht hn⟩

/-- A column is one name, or two with a full stop between them. -/
theorem blind_column : Blind Column := by
  intro u u' c h hc
  cases hc with
  | plain hn =>
    obtain ⟨t, rfl, ht⟩ := h.one
    exact .plain (Token.name_of ht hn)
  | qualified hn hd hm =>
    obtain ⟨t, d, c, rfl, ht, hd', hc⟩ := h.three
    exact .qualified (Token.name_of ht hn) (Token.kind_of hd' hd) (Token.name_of hc hm)

/-- The current time is spelled by words, of which only the kinds count. -/
theorem blind_currentTime : Blind CurrentTime := by
  intro u u' c h hc
  cases hc with
  | word hk =>
    obtain ⟨t, rfl, ht⟩ := h.one
    exact .word (Token.kind_of ht hk)
  | now hk ho hc =>
    obtain ⟨t, o, c, rfl, ht, ho', hc'⟩ := h.three
    exact .now (Token.kind_of ht hk) (Token.kind_of ho' ho) (Token.kind_of hc' hc)

/-- A value is blind in each of its forms. -/
theorem blind_value : Blind Value := by
  intro u u' c h hc
  cases hc with
  | @literal s hk =>
    obtain ⟨t, rfl, ht⟩ := h.one
    have hlexeme : t.lexeme = s.lexeme := Token.lexeme_eq ht fun k hkind => by
      rw [hkind] at hk
      cases hk
    rw [← hlexeme, ← Token.kind_eq ht]
    exact .literal (by rwa [Token.kind_eq ht])
  | negative hm hn =>
    obtain ⟨m, n, rfl, hm', hn'⟩ := h.two
    rw [← Token.lexeme_of hn' hn (by simp)]
    exact .negative (Token.kind_of hm' hm) (Token.kind_of hn' hn)
  | word hk hvalue =>
    obtain ⟨t, rfl, ht⟩ := h.one
    exact .word (Token.kind_of ht hk) hvalue
  | now hc => exact .now (blind_currentTime h hc)
  | column hc hk =>
    obtain ⟨t, v, rfl, ht, -⟩ := h.cons
    exact .column (blind_column h hc) (by rwa [Token.kind_eq ht])

/-- **Predicates are blind** at every level of precedence, by induction on how they are spelled. -/
theorem blind_predicate (level : Level) : Blind (Predicate level) := by
  intro u u' p h hp
  induction hp generalizing u' with
  | @comparison _ _ s _ _ hl hs hr =>
    obtain ⟨v, _, rfl, hv, h⟩ := h.split
    obtain ⟨s', w, rfl, hs', hw⟩ := h.cons
    have hlexeme : s'.lexeme = s.lexeme := Token.lexeme_eq hs' fun k hkind => by
      rw [hkind] at hs
      cases hs
    rw [← hlexeme, ← Token.kind_eq hs']
    exact .comparison (blind_value hv hl) (by rwa [Token.kind_eq hs']) (blind_value hw hr)
  | isNull ht hs hn =>
    obtain ⟨v, _, rfl, hv, h⟩ := h.split
    obtain ⟨s, n, rfl, hs', hn'⟩ := h.two
    exact .isNull (blind_value hv ht) (Token.kind_of hs' hs) (Token.kind_of hn' hn)
  | isNotNull ht hs hm hn =>
    obtain ⟨v, _, rfl, hv, h⟩ := h.split
    obtain ⟨s, m, n, rfl, hs', hm', hn'⟩ := h.three
    exact .isNotNull (blind_value hv ht) (Token.kind_of hs' hs) (Token.kind_of hm' hm)
      (Token.kind_of hn' hn)
  | literal ht halone => exact .literal (blind_value h ht) halone
  | parens ho _ hc ih =>
    obtain ⟨_, _, rfl, h, hclose⟩ := h.split
    obtain ⟨o, v, rfl, ho', hv⟩ := h.cons
    obtain ⟨c, rfl, hc'⟩ := hclose.one
    exact .parens (Token.kind_of ho' ho) (ih hv) (Token.kind_of hc' hc)
  | ofAtom _ ih => exact .ofAtom (ih h)
  | and _ ha _ ihl ihr =>
    obtain ⟨v, _, rfl, hv, h⟩ := h.split
    obtain ⟨a, w, rfl, ha', hw⟩ := h.cons
    exact .and (ihl hv) (Token.kind_of ha' ha) (ihr hw)
  | ofConjunction _ ih => exact .ofConjunction (ih h)
  | or _ ho _ ihl ihr =>
    obtain ⟨v, _, rfl, hv, h⟩ := h.split
    obtain ⟨o, w, rfl, ho', hw⟩ := h.cons
    exact .or (ihl hv) (Token.kind_of ho' ho) (ihr hw)

/-- A filter is blind as its predicate is. -/
theorem blind_filter (k : Keyword) : Blind (Filter k) := by
  rintro _ u' _ h ⟨hw, hp⟩
  obtain ⟨w, v, rfl, hw', hv⟩ := h.cons
  exact .mk (Token.kind_of hw' hw) (blind_predicate _ hv hp)

/-! ## Queries -/

/-- What is selected is blind in each of its forms. -/
theorem blind_item : Blind Item := by
  intro u u' i h hi
  cases hi with
  | star hs =>
    obtain ⟨s, rfl, hs'⟩ := h.one
    rw [← Token.lexeme_of hs' hs (by simp)]
    exact .star (Token.kind_of hs' hs)
  | starOf ht hd hs =>
    obtain ⟨t, d, s, rfl, ht', hd', hs'⟩ := h.three
    rw [← Token.lexeme_of hs' hs (by simp)]
    exact .starOf (Token.name_of ht' ht) (Token.kind_of hd' hd) (Token.kind_of hs' hs)
  | countAll ht ho hs hc =>
    obtain ⟨t, _, rfl, ht', h⟩ := h.cons
    obtain ⟨o, s, c, rfl, ho', hs', hc'⟩ := h.three
    exact .countAll (Token.kind_of ht' ht) (Token.kind_of ho' ho) (Token.kind_of hs' hs)
      (Token.kind_of hc' hc)
  | call ht hk ha =>
    obtain ⟨t, v, rfl, ht', hv⟩ := h.cons
    exact .call (Token.kind_of ht' ht) hk (blind_parens blind_column hv ha)
  | column hc => exact .column (blind_column h hc)

/-- What a join opens with are words, of which only the kinds count. -/
theorem blind_opening : Blind Opening := by
  intro u u' marks h ho
  cases ho with
  | left hl hj =>
    obtain ⟨l, j, rfl, hl', hj'⟩ := h.two
    exact .left (Token.kind_of hl' hl) (Token.kind_of hj' hj)
  | leftOuter hl ho hj =>
    obtain ⟨l, o, j, rfl, hl', ho', hj'⟩ := h.three
    exact .leftOuter (Token.kind_of hl' hl) (Token.kind_of ho' ho) (Token.kind_of hj' hj)
  | inner hi hj =>
    obtain ⟨i, j, rfl, hi', hj'⟩ := h.two
    exact .inner (Token.kind_of hi' hi) (Token.kind_of hj' hj)
  | plain hj =>
    obtain ⟨j, rfl, hj'⟩ := h.one
    exact .plain (Token.kind_of hj' hj)

/-- A join is blind in its marks, its table and its condition. -/
theorem blind_join : Blind Join := by
  rintro _ u' _ h ⟨ho, ht, hp⟩
  obtain ⟨_, z, rfl, h, hz⟩ := h.split
  obtain ⟨x, y, rfl, hx, hy⟩ := h.split
  exact .mk (blind_opening hx ho) (blind_name _ hy ht) (blind_filter _ hz hp)

/-- A sort key is blind with a direction or without. -/
theorem blind_sortKey : Blind SortKey := by
  intro u u' key h hkey
  cases hkey with
  | unmarked hc => exact .unmarked (blind_column h hc)
  | marked hc hd hk =>
    obtain ⟨v, _, rfl, hv, h⟩ := h.split
    obtain ⟨d, rfl, hd'⟩ := h.one
    exact .marked (blind_column hv hc) (Token.kind_of hd' hd) hk

/-- A clause is blind in each of its forms. -/
theorem blind_clause : Blind Clause := by
  intro u u' c h hc
  cases hc with
  | order ho hb hk =>
    obtain ⟨o, _, rfl, ho', h⟩ := h.cons
    obtain ⟨b, v, rfl, hb', hv⟩ := h.cons
    exact .order (Token.kind_of ho' ho) (Token.kind_of hb' hb)
      (blind_commaList blind_sortKey hv hk)
  | count ht hk hn hc =>
    obtain ⟨t, n, rfl, ht', hn'⟩ := h.two
    have hlexeme := Token.lexeme_of hn' hn (by simp)
    rw [← hlexeme] at hc ⊢
    exact .count (Token.kind_of ht' ht) hk (Token.kind_of hn' hn) hc
  | forUpdate hf hu =>
    obtain ⟨f, u, rfl, hf', hu'⟩ := h.two
    exact .forUpdate (Token.kind_of hf' hf) (Token.kind_of hu' hu)

/-- Clauses in a row are blind, by induction on the row. -/
theorem blind_clauses : Blind Clauses := by
  intro u u' c h hc
  induction hc generalizing u' with
  | none =>
    rw [h.nil]
    exact .none
  | filter _ hf ht ih =>
    obtain ⟨v, w, rfl, hv, hw⟩ := h.split
    exact (ih hv).filter hf (blind_filter _ hw ht)
  | other _ ht ih =>
    obtain ⟨v, w, rfl, hv, hw⟩ := h.split
    exact (ih hv).other (blind_clause hw ht)

/-! ## Statements -/

/-- The `WHERE` of a query is blind, written or left out. -/
theorem blind_where : Blind Where := by
  intro u u' c h hc
  cases hc with
  | none =>
    rw [h.nil]
    exact .none
  | some hf => exact .some (blind_filter _ h hf)

/-- A tuple is blind as its values are. -/
theorem blind_tuple : Blind Tuple := by
  rintro _ u' _ h ⟨ho, hv, hc⟩
  obtain ⟨_, _, rfl, h, hclose⟩ := h.split
  obtain ⟨o, v, rfl, ho', hv'⟩ := h.cons
  obtain ⟨c, rfl, hc'⟩ := hclose.one
  rw [← Token.lexeme_of ho' ho (by simp)]
  exact .mk (Token.kind_of ho' ho) (blind_commaList blind_value hv' hv) (Token.kind_of hc' hc)

/-- The table of an `INSERT` is blind, with its columns or without. -/
theorem blind_target : Blind Target := by
  intro u u' t h ht
  cases ht with
  | all hn =>
    obtain ⟨t, rfl, ht⟩ := h.one
    exact .all (Token.name_of ht hn)
  | columns hn hc =>
    obtain ⟨t, v, rfl, ht, hv⟩ := h.cons
    exact .columns (Token.name_of ht hn) (blind_parens (blind_commaList (blind_name _)) hv hc)

/-- What an `INSERT` returns is blind. -/
theorem blind_returning : Blind Returning := by
  intro u u' ts h hr
  cases hr with
  | none =>
    rw [h.nil]
    exact .none
  | some hr hc =>
    obtain ⟨r, v, rfl, hr', hv⟩ := h.cons
    exact .some (Token.kind_of hr' hr) (blind_column hv hc)

/-- An assignment is blind as its name and its value are. -/
theorem blind_assignment : Blind Assignment := by
  rintro _ u' _ h ⟨ht, hs, hv⟩
  obtain ⟨t, _, rfl, ht', h⟩ := h.cons
  obtain ⟨s, w, rfl, hs', hw⟩ := h.cons
  rw [← Token.lexeme_of hs' hs (by simp)]
  exact .mk (Token.name_of ht' ht) (Token.kind_of hs' hs) (blind_value hw hv)

/-- A size is a number, of which the spelling is part of the aspect. -/
theorem blind_size : Blind Size := by
  rintro _ u' _ h ⟨hk⟩
  obtain ⟨t, rfl, ht⟩ := h.one
  rw [← Token.lexeme_of ht hk (by simp)]
  exact .mk (Token.kind_of ht hk)

/-- The type of a column is spelled by keywords, and by sizes in brackets. -/
theorem blind_columnType : Blind ColumnType := by
  intro u u' c h hc
  cases hc with
  | plain ht hk =>
    obtain ⟨t, rfl, ht'⟩ := h.one
    exact .plain (Token.kind_of ht' ht) hk
  | sized ht hk hs =>
    obtain ⟨t, v, rfl, ht', hv⟩ := h.cons
    exact .sized (Token.kind_of ht' ht) hk (blind_parens (blind_commaList blind_size) hv hs)
  | withZone ht hw hm hz =>
    obtain ⟨t, _, rfl, ht', h⟩ := h.cons
    obtain ⟨w, m, z, rfl, hw', hm', hz'⟩ := h.three
    exact .withZone (Token.kind_of ht' ht) (Token.kind_of hw' hw) (Token.kind_of hm' hm)
      (Token.kind_of hz' hz)

/-- A modifier is blind in each of its forms. -/
theorem blind_modifier : Blind Modifier := by
  intro u u' m h hm
  cases hm with
  | flag ht hk =>
    obtain ⟨t, rfl, ht'⟩ := h.one
    exact .flag (Token.kind_of ht' ht) hk
  | notNull ht hn =>
    obtain ⟨t, n, rfl, ht', hn'⟩ := h.two
    exact .notNull (Token.kind_of ht' ht) (Token.kind_of hn' hn)
  | default hd hv =>
    obtain ⟨d, v, rfl, hd', hv'⟩ := h.cons
    exact .default (Token.kind_of hd' hd) (blind_value hv' hv)
  | onUpdate ho ht hn =>
    obtain ⟨o, _, rfl, ho', h⟩ := h.cons
    obtain ⟨t, v, rfl, ht', hv⟩ := h.cons
    exact .onUpdate (Token.kind_of ho' ho) (Token.kind_of ht' ht) (blind_currentTime hv hn)
  | primaryKey hp hk =>
    obtain ⟨p, k, rfl, hp', hk'⟩ := h.two
    exact .primaryKey (Token.kind_of hp' hp) (Token.kind_of hk' hk)

/-- The definition of a column is blind in its three parts. -/
theorem blind_columnDefinition : Blind ColumnDefinition := by
  rintro _ u' _ h ⟨ht, hu, hm⟩
  obtain ⟨_, w, rfl, h, hw⟩ := h.split
  obtain ⟨t, v, rfl, ht', hv⟩ := h.cons
  exact .mk (Token.name_of ht' ht) (blind_columnType hv hu) (blind_many blind_modifier hw hm)

/-- The definition of a table is columns in brackets. -/
theorem blind_tableDefinition : Blind TableDefinition := by
  rintro _ u' _ h ⟨ht, hc⟩
  obtain ⟨t, v, rfl, ht', hv⟩ := h.cons
  exact .mk (Token.name_of ht' ht) (blind_parens (blind_commaList blind_columnDefinition) hv hc)

/-- The condition on a table that is there, or not, is words. -/
theorem blind_condition (words : List Keyword) (lexeme : String) :
    Blind (Condition words lexeme) := by
  intro u u' ts h hc
  cases hc with
  | none =>
    rw [h.nil]
    exact .none
  | some hk => exact .some (h.kinds.trans hk)

/-- **Statements are blind**, each in its own form. -/
theorem blind_statement : Blind Statement := by
  intro u u' t h hs
  cases hs with
  | select hs hi hf ht hj hc =>
    obtain ⟨_, x, rfl, h, hx⟩ := h.split
    obtain ⟨_, w, rfl, h, hw⟩ := h.split
    obtain ⟨_, _, rfl, h, h'⟩ := h.split
    obtain ⟨s, u, rfl, hs', hu⟩ := h.cons
    obtain ⟨f, v, rfl, hf', hv⟩ := h'.cons
    exact .select (Token.kind_of hs' hs) (blind_commaList blind_item hu hi) (Token.kind_of hf' hf)
      (blind_commaList (blind_name _) hv ht) (blind_many blind_join hw hj) (blind_clauses hx hc)
  | insert hi ho ht hv hw hr =>
    obtain ⟨_, x, rfl, h, hx⟩ := h.split
    obtain ⟨_, _, rfl, h, h'⟩ := h.split
    obtain ⟨i, _, rfl, hi', h⟩ := h.cons
    obtain ⟨o, u, rfl, ho', hu⟩ := h.cons
    obtain ⟨v, w, rfl, hv', hw'⟩ := h'.cons
    exact .insert (Token.kind_of hi' hi) (Token.kind_of ho' ho) (blind_target hu ht)
      (Token.kind_of hv' hv) (blind_commaList blind_tuple hw' hw) (blind_returning hx hr)
  | update ht hu hs ha hw =>
    obtain ⟨_, x, rfl, h, hx⟩ := h.split
    obtain ⟨_, _, rfl, h, h'⟩ := h.split
    obtain ⟨t, u, rfl, ht', hu'⟩ := h.cons
    obtain ⟨s, v, rfl, hs', hv⟩ := h'.cons
    exact .update (Token.kind_of ht' ht) (blind_name _ hu' hu) (Token.kind_of hs' hs)
      (blind_commaList blind_assignment hv ha) (blind_where hx hw)
  | delete hd hf hu hw =>
    obtain ⟨_, x, rfl, h, hx⟩ := h.split
    obtain ⟨d, _, rfl, hd', h⟩ := h.cons
    obtain ⟨f, u, rfl, hf', hu'⟩ := h.cons
    exact .delete (Token.kind_of hd' hd) (Token.kind_of hf' hf) (blind_name _ hu' hu)
      (blind_where hx hw)
  | truncate ht hs hu =>
    obtain ⟨_, v, rfl, h, hv⟩ := h.split
    obtain ⟨t, s, rfl, ht', hs'⟩ := h.cons
    refine .truncate (Token.kind_of ht' ht) ?_ (blind_name _ hv hu)
    rwa [hs'.kinds]
  | drop hd ht hc hu =>
    obtain ⟨_, v, rfl, h, hv⟩ := h.split
    obtain ⟨d, _, rfl, hd', h⟩ := h.cons
    obtain ⟨t, u, rfl, ht', hu'⟩ := h.cons
    exact .drop (Token.kind_of hd' hd) (Token.kind_of ht' ht) (blind_condition _ _ hu' hc)
      (blind_name _ hv hu)
  | create hc ht hi hu =>
    obtain ⟨_, v, rfl, h, hv⟩ := h.split
    obtain ⟨c, _, rfl, hc', h⟩ := h.cons
    obtain ⟨t, u, rfl, ht', hu'⟩ := h.cons
    exact .create (Token.kind_of hc' hc) (Token.kind_of ht' ht) (blind_condition _ _ hu' hi)
      (blind_tableDefinition hv hu)

/-- What may stand behind a statement: nothing, or a semicolon. -/
abbrev Closing (v : List Token) : Prop := v.map (·.kind) = [] ∨ v.map (·.kind) = [.semicolon]

/-- The tokens spell a statement, with or without a semicolon behind it. -/
def Whole (tokens : List Token) (t : Tree) : Prop :=
  ∃ u v, tokens = u ++ v ∧ Statement u t ∧ Closing v

/-- A statement is blind with the end of the text behind it. -/
theorem blind_whole : Blind Whole := by
  rintro _ u' t h ⟨u, v, rfl, hu, hv⟩
  obtain ⟨u', v', rfl, hu', hv'⟩ := h.split
  have hclosing : Closing v' := by
    rw [Closing, hv'.kinds]
    exact hv
  exact ⟨u', v', rfl, blind_statement hu' hu, hclosing⟩

end Blind

/-- A text is parsed as a tree when its tokens spell a whole statement with that tree. -/
theorem parse_eq_ok_iff_whole {text : String} {t : Tree} :
    parse text = .ok t ↔ Whole (tokenize text) t := parse_eq_ok_iff

/-- **Texts whose tokens have the same aspects are read alike.** -/
theorem parse_alike {text text' : String} (h : Alike (tokenize text') (tokenize text)) {t : Tree} :
    parse text' = .ok t ↔ parse text = .ok t := by
  rw [parse_eq_ok_iff_whole, parse_eq_ok_iff_whole]
  exact ⟨fun ht => blind_whole h.symm ht, fun ht => blind_whole h ht⟩

end Grammar
end MiniSql
