/-
# What comparisons say of two operands

A comparison with its sign turned round and its operands exchanged says the same: `x < y` and
`y > x`, `x <= y` and `y >= x`, and `=` and `!=` are their own mirrors. What the six signs say of
one pair of operands fits together: either nothing, since the operands do not compare, or

| sign | holds |
| --- | --- |
| `<`, `=`, `>` | exactly one of them |
| `<=` | where `<` or `=` does |
| `>=` | where `>` or `=` does |
| `!=` | where `=` does not |
-/

import MiniSql.Proofs.Query.Matching
import MiniSql.Proofs.Value.Mirror

namespace MiniSql

open Timed

namespace Comparison

/-- The sign for the operands exchanged. -/
def mirror : Comparison → Comparison
  | equal => equal
  | notEqual => notEqual
  | less => greater
  | lessEqual => greaterEqual
  | greater => less
  | greaterEqual => lessEqual

/-- A mirrored sign holds for the swapped order. -/
theorem holds_mirror (sign : Comparison) (o : Ordering) :
    sign.mirror.holds o.swap = sign.holds o := by
  cases sign <;> cases o <;> rfl

/-- What the signs say fits together: each says what follows from `<`, `=` and `>`, of which
exactly one holds. -/
structure Decided (said : Comparison → Value) (lt eq gt : Bool) : Prop where
  one : [lt, eq, gt].count true = 1
  less : said .less = .boolean lt
  equal : said .equal = .boolean eq
  greater : said .greater = .boolean gt
  lessEqual : said .lessEqual = .boolean (lt || eq)
  greaterEqual : said .greaterEqual = .boolean (gt || eq)
  notEqual : said .notEqual = .boolean !eq

/-- An order decides all signs. -/
theorem decided_holds (o : Ordering) :
    Decided (fun sign => .boolean (sign.holds o)) (o == .lt) (o == .eq) (o == .gt) := by
  cases o <;> constructor <;> rfl

end Comparison

namespace Expression

variable {x y : Expression} {labels : List String} {row : Row} {a b : Value} {t t' : Time.Clock}

/-- Values compare alike both ways, with the sign mirrored. -/
theorem compared_mirror (sign : Comparison) (a b : Value) :
    compared sign.mirror b a = compared sign a b := by
  unfold compared
  rw [a.compare?_swap b]
  cases a.compare? b with
  | none => rfl
  | some o => exact congrArg Value.boolean (sign.holds_mirror o)

/-- The signs say nothing of two values, or what they say is decided. -/
theorem compared_cases (a b : Value) :
    (∀ sign, compared sign a b = .null) ∨
      ∃ lt eq gt, Comparison.Decided (fun sign => compared sign a b) lt eq gt := by
  unfold compared
  cases a.compare? b with
  | none => exact .inl fun _ => rfl
  | some o => exact .inr ⟨_, _, _, Comparison.decided_holds o⟩

/-- An expression that does not ask for the time has its value at all times. -/
theorem gives_always (hx : x.readsClock = false) (h : Gives (x.evaluate labels row) t a t')
    (u : Time.Clock) : Gives (x.evaluate labels row) u a u := by
  have htimeless : Timeless (x.evaluate labels row) := evaluate_timeless hx
  have hfixed := htimeless.eq_ofExcept
  rw [hfixed, gives_ofExcept] at h ⊢
  exact ⟨h.1, rfl⟩

/-- A comparison compares what its operands give. -/
theorem gives_compare (hx : Gives (x.evaluate labels row) t a t)
    (hy : Gives (y.evaluate labels row) t b t) (sign : Comparison) :
    Gives ((compare sign x y).evaluate labels row) t (compared sign a b) t := by
  simp only [evaluate, gives_bind, gives_pure]
  exact ⟨a, t, hx, b, t, hy, rfl, rfl⟩

end Expression

/-- **Comparisons mirror each other.** Two values compare in both orders or in none, and then one
order is the reverse of the other. So of two operands that do not ask for the time and have values
in a row, each sign says what its mirror says of them exchanged, and what the six signs say fits
together. -/
theorem comparisons_mirror :
    (∀ a b : Value, b.compare? a = (a.compare? b).map Ordering.swap) ∧
      ∀ (x y : Expression) (labels : List String) (row : Row), x.readsClock = false →
        y.readsClock = false → (∃ t a t', Gives (x.evaluate labels row) t a t') →
        (∃ t b t', Gives (y.evaluate labels row) t b t') →
        ∃ said : Comparison → Value,
          (∀ sign t, Gives ((Expression.compare sign x y).evaluate labels row) t (said sign) t) ∧
          (∀ sign t, Gives ((Expression.compare sign.mirror y x).evaluate labels row) t
            (said sign) t) ∧
          ((∀ sign, said sign = .null) ∨
            ∃ lt eq gt, Comparison.Decided said lt eq gt) := by
  refine ⟨Value.compare?_swap, ?_⟩
  rintro x y labels row hx hy ⟨_, a, _, ha⟩ ⟨_, b, _, hb⟩
  have ha' := Expression.gives_always hx ha
  have hb' := Expression.gives_always hy hb
  refine ⟨fun sign => Expression.compared sign a b, fun sign t => ?_, fun sign t => ?_, ?_⟩
  · exact Expression.gives_compare (ha' t) (hb' t) sign
  · show Gives _ t (Expression.compared sign a b) t
    rw [← Expression.compared_mirror sign a b]
    exact Expression.gives_compare (hb' t) (ha' t) sign.mirror
  · exact Expression.compared_cases a b

/-- A text that spells a number stands below a larger one, from either side. -/
theorem comparisons_mirror_textNumber :
    let x : Expression := .field ⟨none, "a"⟩
    let y : Expression := .constant (.integer 10)
    let row : Row := [.text "9.5"]
    x.readsClock = false ∧ y.readsClock = false ∧
      Gives ((Expression.compare .less x y).evaluate ["t.a"] row) ⟨0, []⟩ (.boolean true) ⟨0, []⟩ ∧
      Gives ((Expression.compare .greater y x).evaluate ["t.a"] row) ⟨0, []⟩ (.boolean true)
        ⟨0, []⟩ := by
  intro x y row
  have hx : Gives (x.evaluate ["t.a"] row) ⟨0, []⟩ (.text "9.5") ⟨0, []⟩ := by
    show @Eq (Except Error Value × Time.Clock) _ _
    decide +kernel
  have hy : Gives (y.evaluate ["t.a"] row) ⟨0, []⟩ (.integer 10) ⟨0, []⟩ := gives_pure.2 ⟨rfl, rfl⟩
  have hless : Gives ((Expression.compare .less x y).evaluate ["t.a"] row) ⟨0, []⟩
      (.boolean true) ⟨0, []⟩ := by
    show @Eq (Except Error Value × Time.Clock) _ _
    decide +kernel
  obtain ⟨said, hsaid, hmirror, -⟩ :=
    comparisons_mirror.2 x y ["t.a"] row rfl rfl ⟨_, _, _, hx⟩ ⟨_, _, _, hy⟩
  have htrue : said .less = .boolean true := by
    have hsame := (hsaid .less ⟨0, []⟩).symm.trans hless
    exact Except.ok.inj (Prod.mk.inj hsame).1
  exact ⟨rfl, rfl, hless, htrue ▸ hmirror .less ⟨0, []⟩⟩

end MiniSql
