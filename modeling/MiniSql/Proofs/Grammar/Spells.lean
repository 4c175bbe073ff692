/-
# The grammar as a relation

`Spells.Value u t` says that the tokens `u` spell the value `t`, and so on for every part of a
statement: the grammar without a parser, one constructor for each way to write a thing. The
parsers read what is spelled and nothing else; the two directions stand in
`MiniSql.Proofs.Grammar.Soundness` and `MiniSql.Proofs.Grammar.Completeness`.

A predicate has three levels,

| level | is |
| --- | --- |
| `disjunction` | conjunctions with `OR` between them |
| `conjunction` | atoms with `AND` between them |
| `atom` | a test of values, a literal, or a disjunction in parentheses |

and both connectives group to the left: what stands on the right of one is of the next level.
-/

import MiniSql.Grammar.Statement

namespace MiniSql
namespace Grammar

/-- The name that a token spells: an identifier and a string spell what they hold, a keyword that
is not reserved spells itself in lower case. -/
def Token.name? (t : Token) : Option String :=
  match t.kind with
  | .ident | .string => some t.lexeme
  | .keyword k => if k.reserved then none else some (Text.lower t.lexeme)
  | _ => none

/-- A token that spells a name is an identifier, a string or a keyword that is not reserved. -/
theorem Token.kind_of_name? {t : Token} {n : String} (h : t.name? = some n) :
    t.kind = .ident ∨ t.kind = .string ∨ ∃ k, t.kind = .keyword k ∧ k.reserved = false := by
  unfold Token.name? at h
  split at h <;> rename_i hk
  · exact .inl hk
  · exact .inr (.inl hk)
  · split at h
    · cases h
    · rename_i hr
      exact .inr (.inr ⟨_, hk, by simpa using hr⟩)
  · cases h

/-- A keyword that is a value by itself, other than the current time. -/
def Keyword.isValue : Keyword → Bool
  | .NULL | .TRUE | .FALSE | .DEFAULT => true
  | _ => false

/-- A modifier of a column that is one word. -/
def Keyword.isFlag : Keyword → Bool
  | .AUTOINCREMENT | .NULL | .UNIQUE => true
  | _ => false

/-- The kinds of tokens that are values by themselves, with the text that they carry. -/
def Kind.isLiteral : Kind → Bool
  | .number | .string | .placeholder => true
  | _ => false

namespace Spells

open MiniSql.Grammar.Parser (standsAlone isAggregate isSizedType)

variable {α : Type}

/-- One thing after another. -/
inductive Many (G : List Token → α → Prop) : List Token → List α → Prop where
  | none : Many G [] []
  | more {u v : List Token} {as : List α} {a : α} (hs : Many G u as) (h : G v a) :
      Many G (u ++ v) (as ++ [a])

/-- Each thing is spelled by some of the tokens. -/
theorem Many.exists_spelled {G : List Token → α → Prop} {u : List Token} {as : List α}
    (h : Many G u as) : ∀ a ∈ as, ∃ v, G v a := by
  induction h with
  | none => simp
  | more hs h ih =>
    intro a ha
    rcases List.mem_append.1 ha with ha | ha
    · exact ih a ha
    · obtain rfl := List.mem_singleton.1 ha
      exact ⟨_, h⟩

/-- At least one thing, with commas between them. -/
inductive CommaList (G : List Token → α → Prop) : List Token → List α → Prop where
  | one {u : List Token} {a : α} (h : G u a) : CommaList G u [a]
  | more {u v : List Token} {c : Token} {a : α} {as : List α} (h : G u a) (hc : c.kind = .comma)
      (hs : CommaList G v as) : CommaList G (u ++ c :: v) (a :: as)

/-- No list is spelt by nothing. -/
theorem CommaList.ne_nil {G : List Token → α → Prop} {u : List Token} {as : List α}
    (h : CommaList G u as) : as ≠ [] := by cases h <;> simp

/-- Each thing is spelled by some of the tokens. -/
theorem CommaList.exists_spelled {G : List Token → α → Prop} {u : List Token} {as : List α}
    (h : CommaList G u as) : ∀ a ∈ as, ∃ v, G v a := by
  induction h with
  | one h => simpa using ⟨_, h⟩
  | more h hc hs ih => exact List.forall_mem_cons.2 ⟨⟨_, h⟩, ih⟩

/-- A list in parentheses. -/
inductive Parens (G : List Token → α → Prop) : List Token → α → Prop where
  | mk {o c : Token} {u : List Token} {a : α} (ho : o.kind = .openParen) (h : G u a)
      (hc : c.kind = .closeParen) : Parens G (o :: u ++ [c]) a

/-- A name, as a table or as a leaf of the given kind. -/
inductive Name (node : String → Tree) : List Token → Tree → Prop where
  | mk {t : Token} {n : String} (h : t.name? = some n) : Name node [t] (node n)

/-- The node of a table's name. -/
abbrev Table : List Token → Tree → Prop := Name fun n => .table n []

/-- A column, with or without its table. -/
inductive Column : List Token → Tree → Prop where
  | plain {t : Token} {n : String} (h : t.name? = some n) : Column [t] (.leaf .ident n)
  | qualified {t d c : Token} {n m : String} (ht : t.name? = some n) (hd : d.kind = .period)
      (hc : c.name? = some m) : Column [t, d, c] ⟨.ident, m, [.table n []]⟩

/-- The current time. -/
inductive CurrentTime : List Token → Tree → Prop where
  | word {t : Token} (h : t.kind = .keyword .CURRENT_TIMESTAMP) :
      CurrentTime [t] (.word .CURRENT_TIMESTAMP [])
  | now {t o c : Token} (ht : t.kind = .keyword .NOW) (ho : o.kind = .openParen)
      (hc : c.kind = .closeParen) : CurrentTime [t, o, c] (.word .CURRENT_TIMESTAMP [])

/-- A value. A string is never a column's name here. -/
inductive Value : List Token → Tree → Prop where
  | literal {t : Token} (h : t.kind.isLiteral = true) : Value [t] (.leaf t.kind t.lexeme)
  | negative {m n : Token} (hm : m.kind = .minus) (hn : n.kind = .number) :
      Value [m, n] (.leaf .number ("-" ++ n.lexeme))
  | word {t : Token} {k : Keyword} (h : t.kind = .keyword k) (hk : k.isValue = true) :
      Value [t] (.word k [])
  | now {u : List Token} {t : Tree} (h : CurrentTime u t) : Value u t
  | column {t : Token} {u : List Token} {c : Tree} (h : Column (t :: u) c)
      (ht : t.kind ≠ .string) : Value (t :: u) c

/-- A literal that is a predicate by itself is a number or a truth value. -/
theorem kind_of_standsAlone {t : Tree} (h : standsAlone t = true) :
    t.kind = .number ∨ t.kind = .keyword .TRUE ∨ t.kind = .keyword .FALSE := by
  simpa [standsAlone, Tree.isWord, or_assoc] using h

/-- How tightly the parts of a predicate hold together. -/
inductive Level where
  | disjunction
  | conjunction
  | atom

/-- A predicate of the given level. -/
inductive Predicate : Level → List Token → Tree → Prop where
  | comparison {u v : List Token} {s : Token} {l r : Tree} (hl : Value u l)
      (hs : s.kind.isComparison = true) (hr : Value v r) :
      Predicate .atom (u ++ s :: v) ⟨s.kind, s.lexeme, [l, r]⟩
  | isNull {u : List Token} {s n : Token} {t : Tree} (h : Value u t) (hs : s.kind = .keyword .IS)
      (hn : n.kind = .keyword .NULL) :
      Predicate .atom (u ++ [s, n]) (.word .IS [t, .word .NULL []])
  | isNotNull {u : List Token} {s m n : Token} {t : Tree} (h : Value u t)
      (hs : s.kind = .keyword .IS) (hm : m.kind = .keyword .NOT) (hn : n.kind = .keyword .NULL) :
      Predicate .atom (u ++ [s, m, n]) (.word .IS [t, .word .NOT [.word .NULL []]])
  | literal {u : List Token} {t : Tree} (h : Value u t) (ht : standsAlone t = true) :
      Predicate .atom u t
  | parens {o c : Token} {u : List Token} {t : Tree} (ho : o.kind = .openParen)
      (h : Predicate .disjunction u t) (hc : c.kind = .closeParen) :
      Predicate .atom (o :: u ++ [c]) t
  | ofAtom {u : List Token} {t : Tree} (h : Predicate .atom u t) : Predicate .conjunction u t
  | and {u v : List Token} {a : Token} {l r : Tree} (hl : Predicate .conjunction u l)
      (ha : a.kind = .keyword .AND) (hr : Predicate .atom v r) :
      Predicate .conjunction (u ++ a :: v) (.word .AND [l, r])
  | ofConjunction {u : List Token} {t : Tree} (h : Predicate .conjunction u t) :
      Predicate .disjunction u t
  | or {u v : List Token} {o : Token} {l r : Tree} (hl : Predicate .disjunction u l)
      (ho : o.kind = .keyword .OR) (hr : Predicate .conjunction v r) :
      Predicate .disjunction (u ++ o :: v) (.word .OR [l, r])

/-- What a `WHERE` or an `ON` says. -/
inductive Filter (k : Keyword) : List Token → Tree → Prop where
  | mk {w : Token} {u : List Token} {p : Tree} (hw : w.kind = .keyword k)
      (hp : Predicate .disjunction u p) : Filter k (w :: u) (.word k [p])

/-- What a `SELECT` lists. -/
inductive Item : List Token → Tree → Prop where
  | star {s : Token} (h : s.kind = .asterisk) : Item [s] (.leaf .asterisk s.lexeme)
  | starOf {t d s : Token} {n : String} (ht : t.name? = some n) (hd : d.kind = .period)
      (hs : s.kind = .asterisk) : Item [t, d, s] ⟨.asterisk, s.lexeme, [.table n []]⟩
  | countAll {t o s c : Token} (ht : t.kind = .keyword .COUNT) (ho : o.kind = .openParen)
      (hs : s.kind = .asterisk) (hc : c.kind = .closeParen) :
      Item [t, o, s, c] (.word .COUNT [.leaf .asterisk "*"])
  | call {t : Token} {k : Keyword} {u : List Token} {a : Tree} (ht : t.kind = .keyword k)
      (hk : isAggregate k = true) (ha : Parens Column u a) : Item (t :: u) (.word k [a])
  | column {u : List Token} {c : Tree} (h : Column u c) : Item u c

/-- The words that open a join, and the marks that they leave in its node. -/
inductive Opening : List Token → List Tree → Prop where
  | left {l j : Token} (hl : l.kind = .keyword .LEFT) (hj : j.kind = .keyword .JOIN) :
      Opening [l, j] [.word .LEFT []]
  | leftOuter {l o j : Token} (hl : l.kind = .keyword .LEFT) (ho : o.kind = .keyword .OUTER)
      (hj : j.kind = .keyword .JOIN) : Opening [l, o, j] [.word .LEFT []]
  | inner {i j : Token} (hi : i.kind = .keyword .INNER) (hj : j.kind = .keyword .JOIN) :
      Opening [i, j] []
  | plain {j : Token} (hj : j.kind = .keyword .JOIN) : Opening [j] []

/-- A join with the tables before it. -/
inductive Join : List Token → Tree → Prop where
  | mk {u v w : List Token} {marks : List Tree} {table on : Tree} (ho : Opening u marks)
      (ht : Table v table) (hp : Filter .ON w on) :
      Join (u ++ v ++ w) (.word .JOIN (marks ++ [table, on]))

/-- A column to sort by. -/
inductive SortKey : List Token → Tree → Prop where
  | unmarked {u : List Token} {c : Tree} (h : Column u c) : SortKey u (.word .ASC [c])
  | marked {u : List Token} {d : Token} {k : Keyword} {c : Tree} (h : Column u c)
      (hd : d.kind = .keyword k) (hk : k = .ASC ∨ k = .DESC) : SortKey (u ++ [d]) (.word k [c])

/-- A clause behind the tables of a query, other than `WHERE`. -/
inductive Clause : List Token → Tree → Prop where
  | order {o b : Token} {u : List Token} {keys : List Tree} (ho : o.kind = .keyword .ORDER)
      (hb : b.kind = .keyword .BY) (hk : CommaList SortKey u keys) :
      Clause (o :: b :: u) ⟨.keyword .ORDER, "order by", keys⟩
  | count {t n : Token} {k : Keyword} {c : Nat} (ht : t.kind = .keyword k)
      (hk : k = .LIMIT ∨ k = .OFFSET) (hn : n.kind = .number)
      (hc : Number.readCount n.lexeme = .ok c) : Clause [t, n] (.word k [.leaf .number n.lexeme])
  | forUpdate {f u : Token} (hf : f.kind = .keyword .FOR) (hu : u.kind = .keyword .UPDATE) :
      Clause [f, u] (.word .FOR [.word .UPDATE []])

/-- The clauses of a query. A `WHERE` takes the place of the implicit one, and of one that says the
same. -/
inductive Clauses : List Token → Parser.Clauses → Prop where
  | none : Clauses [] ⟨.implicitWhere, []⟩
  | filter {u v : List Token} {c : Parser.Clauses} {t : Tree} (h : Clauses u c)
      (hf : c.filter = .implicitWhere) (ht : Filter .WHERE v t) :
      Clauses (u ++ v) { c with filter := t }
  | other {u v : List Token} {c : Parser.Clauses} {t : Tree} (h : Clauses u c)
      (ht : Clause v t) : Clauses (u ++ v) (c.add t)

/-- The `WHERE` of a statement that has no other clauses. -/
inductive Where : List Token → Tree → Prop where
  | none : Where [] .implicitWhere
  | some {u : List Token} {t : Tree} (h : Filter .WHERE u t) : Where u t

/-- The predicate of a query is a `WHERE`, and its other clauses are spelled by some of the
tokens. -/
theorem Clauses.exists_spelled {u : List Token} {c : Parser.Clauses} (h : Clauses u c) :
    (∃ v, Where v c.filter) ∧ ∀ t ∈ c.others, ∃ v, Clause v t := by
  induction h with
  | none => exact ⟨⟨[], .none⟩, by simp⟩
  | filter h hf ht ih => exact ⟨⟨_, .some ht⟩, ih.2⟩
  | @other u v c t h ht ih =>
    refine ⟨ih.1, fun t' hmem => ?_⟩
    rcases List.mem_append.1 hmem with hmem | hmem
    · exact ih.2 t' hmem
    · obtain rfl := List.mem_singleton.1 hmem
      exact ⟨v, ht⟩

/-- A tuple of values. -/
inductive Tuple : List Token → Tree → Prop where
  | mk {o c : Token} {u : List Token} {values : List Tree} (ho : o.kind = .openParen)
      (h : CommaList Value u values) (hc : c.kind = .closeParen) :
      Tuple (o :: u ++ [c]) ⟨.openParen, o.lexeme, values⟩

/-- The table of an `INSERT`, with the columns that it names. -/
inductive Target : List Token → Tree → Prop where
  | all {t : Token} {n : String} (h : t.name? = some n) : Target [t] (.table n [])
  | columns {t : Token} {n : String} {u : List Token} {columns : List Tree} (h : t.name? = some n)
      (hc : Parens (CommaList (Name (.leaf .ident))) u columns) :
      Target (t :: u) (.table n columns)

/-- What an `INSERT` returns. -/
inductive Returning : List Token → List Tree → Prop where
  | none : Returning [] []
  | some {r : Token} {u : List Token} {c : Tree} (hr : r.kind = .keyword .RETURNING)
      (h : Column u c) : Returning (r :: u) [.word .RETURNING [c]]

/-- `column = value` -/
inductive Assignment : List Token → Tree → Prop where
  | mk {t s : Token} {n : String} {u : List Token} {v : Tree} (ht : t.name? = some n)
      (hs : s.kind = .equal) (hv : Value u v) :
      Assignment (t :: s :: u) ⟨.equal, s.lexeme, [.leaf .ident n, v]⟩

/-- A size of a type. -/
inductive Size : List Token → Tree → Prop where
  | mk {t : Token} (h : t.kind = .number) : Size [t] (.leaf .number t.lexeme)

/-- The type of a column. -/
inductive ColumnType : List Token → Tree → Prop where
  | plain {t : Token} {k : Keyword} (h : t.kind = .keyword k)
      (hk : isSizedType k = true ∨ k = .TIMESTAMP) : ColumnType [t] (.word k [])
  | sized {t : Token} {k : Keyword} {u : List Token} {sizes : List Tree}
      (h : t.kind = .keyword k) (hk : isSizedType k = true) (hs : Parens (CommaList Size) u sizes) :
      ColumnType (t :: u) (.word k sizes)
  | withZone {t w m z : Token} (ht : t.kind = .keyword .TIMESTAMP) (hw : w.kind = .keyword .WITH)
      (hm : m.kind = .keyword .TIME) (hz : z.kind = .keyword .ZONE) :
      ColumnType [t, w, m, z] (.word .TIMESTAMP [.leaf (.keyword .WITH) "with time zone"])

/-- A modifier of a column. -/
inductive Modifier : List Token → Tree → Prop where
  | flag {t : Token} {k : Keyword} (h : t.kind = .keyword k) (hk : k.isFlag = true) :
      Modifier [t] (.word k [])
  | notNull {t n : Token} (ht : t.kind = .keyword .NOT) (hn : n.kind = .keyword .NULL) :
      Modifier [t, n] (.word .NOT [.word .NULL []])
  | default {d : Token} {u : List Token} {v : Tree} (hd : d.kind = .keyword .DEFAULT)
      (hv : Value u v) : Modifier (d :: u) (.word .DEFAULT [v])
  | onUpdate {o t : Token} {u : List Token} {now : Tree} (ho : o.kind = .keyword .ON)
      (ht : t.kind = .keyword .UPDATE) (hn : CurrentTime u now) :
      Modifier (o :: t :: u) (.word .ON [.word .UPDATE [now]])
  | primaryKey {p k : Token} (hp : p.kind = .keyword .PRIMARY) (hk : k.kind = .keyword .KEY) :
      Modifier [p, k] (.word .PRIMARY [.word .KEY []])

/-- A column of a table to create. -/
inductive ColumnDefinition : List Token → Tree → Prop where
  | mk {t : Token} {n : String} {u v : List Token} {type : Tree} {modifiers : List Tree}
      (ht : t.name? = some n) (hu : ColumnType u type) (hm : Many Modifier v modifiers) :
      ColumnDefinition (t :: u ++ v) ⟨.ident, n, type :: modifiers⟩

/-- A table to create. -/
inductive TableDefinition : List Token → Tree → Prop where
  | mk {t : Token} {n : String} {u : List Token} {columns : List Tree} (ht : t.name? = some n)
      (hc : Parens (CommaList ColumnDefinition) u columns) :
      TableDefinition (t :: u) (.table n columns)

/-- A condition on whether the table is there, or none. -/
inductive Condition (words : List Keyword) (lexeme : String) : List Token → List Tree → Prop where
  | none : Condition words lexeme [] []
  | some {u : List Token} (h : u.map (·.kind) = words.map .keyword) :
      Condition words lexeme u [.leaf (.keyword .IF) lexeme]

/-- A statement. -/
inductive Statement : List Token → Tree → Prop where
  | select {s f : Token} {u v w x : List Token} {items tables joins : List Tree}
      {clauses : Parser.Clauses} (hs : s.kind = .keyword .SELECT) (hi : CommaList Item u items)
      (hf : f.kind = .keyword .FROM) (ht : CommaList Table v tables) (hj : Many Join w joins)
      (hc : Clauses x clauses) :
      Statement (s :: u ++ f :: v ++ w ++ x)
        (.word .SELECT (items ++ .word .FROM tables :: joins ++ clauses.filter :: clauses.others))
  | insert {i o v : Token} {u w x : List Token} {target : Tree} {tuples returning : List Tree}
      (hi : i.kind = .keyword .INSERT) (ho : o.kind = .keyword .INTO) (ht : Target u target)
      (hv : v.kind = .keyword .VALUES) (hw : CommaList Tuple w tuples)
      (hr : Returning x returning) :
      Statement (i :: o :: u ++ v :: w ++ x)
        (.word .INSERT (.word .INTO [target] :: .word .VALUES tuples :: returning))
  | update {t s : Token} {u v w : List Token} {table clause : Tree} {assignments : List Tree}
      (ht : t.kind = .keyword .UPDATE) (hu : Table u table) (hs : s.kind = .keyword .SET)
      (ha : CommaList Assignment v assignments) (hw : Where w clause) :
      Statement (t :: u ++ s :: v ++ w) (.word .UPDATE [table, .word .SET assignments, clause])
  | delete {d f : Token} {u w : List Token} {table clause : Tree} (hd : d.kind = .keyword .DELETE)
      (hf : f.kind = .keyword .FROM) (hu : Table u table) (hw : Where w clause) :
      Statement (d :: f :: u ++ w) (.word .DELETE [.word .FROM [table], clause])
  | truncate {t : Token} {s u : List Token} {table : Tree} (ht : t.kind = .keyword .TRUNCATE)
      (hs : s.map (·.kind) = [] ∨ s.map (·.kind) = [.keyword .TABLE]) (hu : Table u table) :
      Statement (t :: s ++ u) (.word .TRUNCATE [table])
  | drop {d t : Token} {u v : List Token} {condition : List Tree} {table : Tree}
      (hd : d.kind = .keyword .DROP) (ht : t.kind = .keyword .TABLE)
      (hc : Condition [.IF, .EXISTS] "if exists" u condition) (hu : Table v table) :
      Statement (d :: t :: u ++ v) (.word .DROP (condition ++ [table]))
  | create {c t : Token} {u v : List Token} {condition : List Tree} {table : Tree}
      (hc : c.kind = .keyword .CREATE) (ht : t.kind = .keyword .TABLE)
      (hi : Condition [.IF, .NOT, .EXISTS] "if not exists" u condition)
      (hu : TableDefinition v table) :
      Statement (c :: t :: u ++ v) (.word .CREATE (condition ++ [table]))

end Spells

end Grammar
end MiniSql
