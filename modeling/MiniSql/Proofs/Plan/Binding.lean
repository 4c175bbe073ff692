/-
# Arguments are bound as values

Giving a statement its arguments has the same effect as writing their literals into it, as far as
they have literals (`Plan.ofText_fill`): the text with the literals is read as the tree with the
literals, and this tree is planned, without arguments, as the tree with its placeholders is planned
with them. What an argument holds is never read as a part of the statement, whatever its text is.

A literal gives the value that it is the literal of, so it may stand in the place of a placeholder
that refers to this value (`Planning.statement_replace`).
-/

import MiniSql.Proofs.Plan.Checked
import MiniSql.Proofs.Plan.Fill
import MiniSql.Proofs.Plan.Replaced

namespace MiniSql

open Grammar (Tree Keyword Kind Token)

/-! ## The arguments of a statement -/

namespace Arguments

/-- The placeholder refers to an argument, which has a literal. -/
def Supplied (arguments : List Value) (lexeme : String) : Prop :=
  ∃ v literal, argument arguments lexeme = .ok v ∧ v.literal? = some literal ∧
    literal? arguments lexeme = some literal

variable {arguments : List Value} {t : Tree} {n : Nat}

/-- The placeholders of a numbered tree refer to its arguments. -/
theorem Numbered.supplied (ht : Numbered t arguments.length)
    (hvalues : ∀ v ∈ arguments, v.literal?.isSome) : Each (Supplied arguments) [t] := by
  intro lexeme hlexeme
  obtain ⟨k, v, hk, hget, hargument⟩ :=
    ht.argument (Nat.le_refl _) (by simpa using hlexeme : lexeme ∈ placeholders t)
  obtain ⟨literal, hliteral⟩ := Option.isSome_iff_exists.1 (hvalues v (List.mem_of_getElem? hget))
  exact ⟨v, literal, hargument, hliteral, by simp [literal?, hk, hget, hliteral]⟩

/-- Nothing is left to check once the literals are written. -/
theorem check_of_eq_nil (h : placeholders t = []) (strict : Bool) :
    Arguments.check t 0 strict = .ok () :=
  Numbered.check ⟨by simp [h], fun _ hpos hle => by omega⟩ strict

mutual

/-- A tree that is filled in has no placeholders. -/
theorem placeholders_fill :
    ∀ t : Tree, Each (Supplied arguments) [t] → placeholders (t.fill arguments) = []
  | ⟨kind, lexeme, children⟩, h => by
    by_cases hkind : kind = .placeholder
    · subst hkind
      obtain ⟨v, literal, -, hv, hliteral⟩ := h lexeme (by simp [placeholders_mk])
      rw [Tree.fill_placeholder hliteral]
      obtain ⟨u, hu, -⟩ := Grammar.spelled_literal hv
      refine Grammar.placeholders_value hu ?_
      cases v with
      | boolean b => cases b <;> cases hv <;> simp [Tree.word]
      | _ => cases hv <;> simp [Tree.word, Tree.leaf]
    · rw [Tree.fill_mk hkind, placeholders_mk, if_neg hkind, List.nil_append,
        flatMap_placeholders_fill children ((each_mk hkind lexeme).1 h)]

/-- Trees that are filled in have no placeholders. -/
theorem flatMap_placeholders_fill : ∀ ts : List Tree, Each (Supplied arguments) ts →
    (ts.map (·.fill arguments)).flatMap placeholders = []
  | [], _ => rfl
  | t :: ts, h => by
    obtain ⟨ht, hts⟩ := each_cons.1 h
    rw [List.map_cons, List.flatMap_cons, placeholders_fill t ht,
      flatMap_placeholders_fill ts hts]
    rfl

end

end Arguments

/-! ## Planning what is filled in -/

namespace Planning

open Grammar.Spells
open Arguments (Each Supplied)

variable {arguments : List Value} {u : List Token} {t : Tree}

/-- An integer is read back from its digits. -/
theorem number_toString (i : Int64) : number (toString i.toInt) = .ok (.integer i) := by
  unfold number
  dsimp only
  rw [if_neg (by simpa using Number.not_mem_toString i), Number.readInteger_toString]

/-- A literal is planned as the value that it is the literal of. -/
theorem value_literal {v : Value} {literal : Tree} (h : v.literal? = some literal) :
    value [] literal = .ok (.constant v) := by
  cases v with
  | boolean b => cases b <;> cases h <;> rfl
  | integer i =>
    cases h
    show (number (toString i.toInt) >>= fun v => Except.ok (Expression.constant v)) = _
    rw [number_toString]
    rfl
  | _ => cases h <;> rfl

/-- **A statement is planned alike** from its literals and from its arguments. -/
theorem statement_fill (h : Statement u t) (ht : Each (Supplied arguments) [t]) :
    statement [] (t.fill arguments) = statement arguments t := by
  rw [Tree.fill_eq_replace]
  refine statement_replace h fun lexeme hlexeme => ?_
  obtain ⟨v, literal, hargument, hv, hliteral⟩ := ht lexeme hlexeme
  show value [] ((Arguments.literal? arguments lexeme).getD _) =
    (Arguments.argument arguments lexeme >>= fun v => Except.ok (Expression.constant v))
  rw [hliteral, hargument, Option.getD_some, value_literal hv]
  rfl

end Planning

/-! ## Whole texts -/

/-- **Arguments are bound as if their literals were written.** Where the placeholders of a text have
the numbers of its arguments, the tree with the literals in their places is written as a text that
reads as this tree, and it has the same plan, or is refused with the same error, without
arguments. -/
theorem Plan.ofText_fill {sql : String} {t : Tree} {arguments : List Value}
    (ht : Grammar.parse sql = .ok t) (hvalues : ∀ v ∈ arguments, v.literal?.isSome)
    (hused : Arguments.Numbered t arguments.length) (strict : Bool) :
    Grammar.parse (Tree.render [t.fill arguments]) = .ok (t.fill arguments) ∧
      Plan.ofText (Tree.render [t.fill arguments]) [] strict = Plan.ofText sql arguments strict := by
  obtain ⟨u, v, htokens, hu, -⟩ := Grammar.spells_of_parse ht
  have hg : Grammar.Genuine (u ++ v) := htokens ▸ Grammar.genuine_tokenize sql
  have hsupplied : Arguments.Each (Arguments.Supplied arguments) [t] := hused.supplied hvalues
  -- The text is read as the tree that was written.
  have hparse : Grammar.parse (Tree.render [t.fill arguments]) = .ok (t.fill arguments) := by
    obtain ⟨w, hw, hgw⟩ :=
      Grammar.spelled_statement arguments hu (Grammar.genuine_append.1 hg).1
    have hrender : Tree.render [t.fill arguments] = (t.fill arguments).renderStatement := by
      simp [Tree.render]
    have hspelled := (Grammar.lexes_statement hw hgw).alone
    rw [hrender]
    exact Grammar.parse_eq_ok_iff.2 ⟨_, [], (List.append_nil _).symm, hspelled, .inl rfl⟩
  -- Both checks pass, and both trees have one plan.
  have hcheck := Arguments.check_of_eq_nil (Arguments.placeholders_fill t hsupplied) strict
  have hplan : Planning.statement [] (t.fill arguments) = Planning.statement arguments t :=
    Planning.statement_fill hu hsupplied
  have hfilled : Plan.ofText (Tree.render [t.fill arguments]) [] strict =
      Planning.statement [] (t.fill arguments) := by
    unfold Plan.ofText
    rw [hparse]
    show (Arguments.check (t.fill arguments) 0 strict >>= fun _ => _) = _
    rw [hcheck]
    rfl
  have hbound : Plan.ofText sql arguments strict = Planning.statement arguments t := by
    unfold Plan.ofText
    rw [ht]
    show (Arguments.check t arguments.length strict >>= fun _ => _) = _
    rw [hused.check strict]
    rfl
  exact ⟨hparse, by rw [hfilled, hbound, hplan]⟩

/-- The smallest integer, a text that looks like the end of a statement, and `NULL`. -/
def unruly : List Value :=
  [.integer Int64.minValue, .text "it's'); DROP TABLE t; --", .null]

/-- They are written as literals that say the same. -/
theorem Plan.ofText_fill_unruly :
    ∃ t, Grammar.parse "INSERT INTO t VALUES ($1, $2), ($3, $1)" = .ok t ∧
      Tree.render [t.fill unruly] = "INSERT INTO t VALUES (-9223372036854775808, " ++
        "'it''s''); DROP TABLE t; --'), (NULL, -9223372036854775808)" ∧
      Plan.ofText (Tree.render [t.fill unruly]) [] true =
        Plan.ofText "INSERT INTO t VALUES ($1, $2), ($3, $1)" unruly true := by
  have ht : Grammar.parse "INSERT INTO t VALUES ($1, $2), ($3, $1)" = .ok
      (.word .INSERT [.word .INTO [.table "t" []], .word .VALUES [
        ⟨.openParen, "(", [.leaf .placeholder "$1", .leaf .placeholder "$2"]⟩,
        ⟨.openParen, "(", [.leaf .placeholder "$3", .leaf .placeholder "$1"]⟩]]) := by
    decide +kernel
  refine ⟨_, ht, by decide +kernel, (ofText_fill ht (by decide) ⟨?_, ?_⟩ true).2⟩
  · decide +kernel
  · intro k hpos hle
    have hk : k = 1 ∨ k = 2 ∨ k = 3 := by
      have hlength : unruly.length = 3 := rfl
      omega
    rcases hk with rfl | rfl | rfl <;> decide +kernel

end MiniSql
