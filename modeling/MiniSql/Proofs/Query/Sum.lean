/-
# Sums of integers

A sum is a running one: each integer is added to what is held so far, and only where that leaves
the 64 bits does a rounded number take its place, for good. So the order of the values counts, as
a total within 64 bits may be reached over one beyond them. With the running totals of the integers
of a column, in their order,

| running totals | sum |
| --- | --- |
| none, there is no integer | `NULL` |
| all of 64 bits | the exact total, an integer |
| one is not | what the exact total before the first such comes to when rounding goes on |

The step of the sum keeps this up (`Held.step`), and the run does by induction. The running totals
stay within 64 bits in every order of the values if and only if the positive integers alone and the
negative ones alone do (`runningFits_perm_iff`), because a running total lies between the two.
-/

import MiniSql.Query.Aggregate
import Mathlib.Algebra.BigOperators.Group.List.Basic
import Mathlib.Algebra.Ring.Int.Defs
import Mathlib.Data.List.Basic

namespace MiniSql
namespace Aggregate

open Number (Binary64)

variable {values : List Value} {seen ns ms : List Int} {n : Int} {total : Option Value}

/-! ## Running totals -/

/-- An integer of 64 bits. -/
def Fits (n : Int) : Prop := Int64.minValue.toInt ≤ n ∧ n ≤ Int64.maxValue.toInt

instance (n : Int) : Decidable (Fits n) := inferInstanceAs (Decidable (_ ∧ _))

/-- All running totals are of 64 bits. -/
def RunningFits (ns : List Int) : Prop := ∀ part, part <+: ns → Fits part.sum

/-- The sum that goes on with rounded numbers. -/
def roundedOn (x : Binary64) (ns : List Int) : Binary64 := ns.foldl (fun x n => x.add (.ofInt n)) x

/-- An integer of 64 bits fits. -/
theorem fits_toInt (i : Int64) : Fits i.toInt :=
  ⟨by rw [Int64.toInt_minValue]; exact Int64.le_toInt i,
    by rw [Int64.toInt_maxValue]; exact Int.le_sub_one_of_lt (Int64.toInt_lt i)⟩

/-- What fits is held as it is. -/
theorem toInt_ofInt_of_fits (h : Fits n) : (Int64.ofInt n).toInt = n := by
  have hlower := h.1
  have hupper := h.2
  rw [Int64.toInt_minValue] at hlower
  rw [Int64.toInt_maxValue] at hupper
  exact Int64.toInt_ofInt_of_le (by omega) (by omega)

/-- Without summands every running total fits. -/
theorem runningFits_nil : RunningFits [] := by
  intro part hpart
  rw [List.prefix_nil.1 hpart]
  decide

/-- If every running total fits, the last one does. -/
theorem RunningFits.sum (h : RunningFits ns) : Fits ns.sum := h ns List.prefix_rfl

/-- The totals of the first summands are among them. -/
theorem RunningFits.of_append (h : RunningFits (ns ++ ms)) : RunningFits ns :=
  fun part hpart => h part (hpart.trans (List.prefix_append ns ms))

/-- One more total is one more summand. -/
theorem runningFits_concat (h : RunningFits ns) (hn : Fits (ns.sum + n)) :
    RunningFits (ns ++ [n]) := by
  intro part hpart
  rcases List.prefix_concat_iff.1 hpart with rfl | hpart
  · simpa [List.sum_append_int] using hn
  · exact h part hpart

/-! ## What a sum holds -/

/-- What a sum holds after some integers. -/
inductive Held : List Int → Option Value → Prop
  | nothing : Held [] none
  | exact {seen : List Int} {s : Int64} (hseen : seen ≠ []) (hfits : RunningFits seen)
      (hs : s.toInt = seen.sum) : Held seen (some (.integer s))
  | rounded {before after : List Int} {n : Int} (hfits : RunningFits before)
      (hn : ¬Fits (before.sum + n)) :
      Held (before ++ n :: after)
        (some (.float (roundedOn (.ofInt before.sum) (n :: after))))

/-- Integers are added exactly while the sum fits. -/
theorem addIntegers_of_fits {a b : Int64} (h : Fits (a.toInt + b.toInt)) :
    addIntegers a b = .integer (Int64.ofInt (a.toInt + b.toInt)) := by
  have hlower := h.1
  have hupper := h.2
  rw [Int64.toInt_minValue] at hlower
  rw [Int64.toInt_maxValue] at hupper
  exact if_pos ⟨by omega, by omega⟩

/-- Integers whose sum does not fit are added as floating point numbers. -/
theorem addIntegers_of_not_fits {a b : Int64} (h : ¬Fits (a.toInt + b.toInt)) :
    addIntegers a b = .float (roundedOn (.ofInt a.toInt) [b.toInt]) := by
  refine if_neg fun hexact => h ⟨?_, ?_⟩
  · rw [Int64.toInt_minValue]
    omega
  · rw [Int64.toInt_maxValue]
    omega

/-- Before any summand there is no total. -/
theorem held_nil (h : Held [] total) : total = none := by
  generalize hseen : ([] : List Int) = seen at h
  cases h with
  | nothing => rfl
  | exact hne => exact absurd hseen.symm hne
  | rounded => simp at hseen

/-- While every total fits, the total held is the exact sum. -/
theorem Held.of_runningFits (h : Held seen total) (hseen : seen ≠ []) (hfits : RunningFits seen) :
    ∃ s : Int64, total = some (.integer s) ∧ s.toInt = seen.sum := by
  cases h with
  | nothing => exact absurd rfl hseen
  | @exact _ s _ _ hs => exact ⟨s, rfl, hs⟩
  | @rounded before after n _ hn =>
    refine absurd ?_ hn
    simpa [List.sum_append_int] using hfits (before ++ [n]) (by simp)

/-- From the first total that does not fit on, a floating point number is held. -/
theorem Held.of_not_runningFits (h : Held seen total) (hfits : ¬RunningFits seen) :
    ∃ before n after, seen = before ++ n :: after ∧ RunningFits before ∧ ¬Fits (before.sum + n) ∧
      total = some (.float (roundedOn (.ofInt before.sum) (n :: after))) := by
  cases h with
  | nothing => exact absurd runningFits_nil hfits
  | exact _ hexact => exact absurd hexact hfits
  | @rounded before after n hbefore hn => exact ⟨before, n, after, rfl, hbefore, hn, rfl⟩

/-- **One more integer.** A sum takes it, and holds afterwards what it should. -/
theorem Held.step (h : Held seen total) (i : Int64) :
    ∃ total', addTo total (.integer i) = .ok total' ∧ Held (seen ++ [i.toInt]) total' := by
  cases h with
  | nothing =>
    have hfits : RunningFits [i.toInt] :=
      runningFits_concat runningFits_nil (by simpa using fits_toInt i)
    exact ⟨_, rfl, .exact (List.cons_ne_nil _ _) hfits (by simp)⟩
  | @exact seen s hseen hfits hs =>
    refine ⟨some (addIntegers s i), rfl, ?_⟩
    by_cases hn : Fits (seen.sum + i.toInt)
    · rw [addIntegers_of_fits (by rwa [hs]), hs]
      exact .exact (by simp) (runningFits_concat hfits hn)
        (by simpa [List.sum_append_int] using toInt_ofInt_of_fits hn)
    · rw [addIntegers_of_not_fits (by rwa [hs]), hs]
      exact .rounded hfits hn
  | @rounded before after n hfits hn =>
    refine ⟨_, rfl, ?_⟩
    have hheld : Held (before ++ n :: (after ++ [i.toInt])) _ := .rounded hfits hn
    simpa [roundedOn, List.foldl_append, Value.nearest] using hheld

/-! ## The sum of a column -/

/-- The integers among some values, in their order. -/
def integersOf (values : List Value) : List Int :=
  values.filterMap fun
    | .integer i => some i.toInt
    | _ => none

/-- All values are integers or `NULL`. -/
def IntegersOrNull (values : List Value) : Prop := ∀ v ∈ values, v = .null ∨ ∃ i, v = .integer i

/-- **Adding** integers and NULLs holds the total of the integers. -/
theorem foldlM_addTo (hvalues : IntegersOrNull values) (h : Held seen total) :
    ∃ total', values.foldlM addTo total = .ok total' ∧
      Held (seen ++ integersOf values) total' := by
  induction values generalizing seen total with
  | nil => exact ⟨total, rfl, by simpa [integersOf] using h⟩
  | cons v rest ih =>
    have hrest : IntegersOrNull rest := fun w hw => hvalues w (List.mem_cons_of_mem v hw)
    rcases hvalues v List.mem_cons_self with rfl | ⟨i, rfl⟩
    · obtain ⟨total', hrun, hheld⟩ := ih hrest h
      exact ⟨total', by cases total <;> exact hrun, hheld⟩
    · obtain ⟨next, hnext, hheld⟩ := h.step i
      obtain ⟨total', hrun, hheld'⟩ := ih hrest hheld
      refine ⟨total', ?_, by simpa [integersOf] using hheld'⟩
      rw [List.foldlM_cons, hnext]
      exact hrun

/-- The sum is the total held, and NULL without summands. -/
theorem value_sum (hvalues : IntegersOrNull values) :
    ∃ total, value .sum values = .ok (total.getD .null) ∧ Held (integersOf values) total := by
  obtain ⟨total, hrun, hheld⟩ := foldlM_addTo hvalues .nothing
  refine ⟨total, ?_, hheld⟩
  simp only [value, hrun]
  rfl

/-- The sum is the exact total if and only if all running totals are of 64 bits. -/
theorem value_sum_exact_iff (hvalues : IntegersOrNull values) (hsome : integersOf values ≠ []) :
    (∃ s : Int64, value .sum values = .ok (.integer s) ∧ s.toInt = (integersOf values).sum) ↔
      RunningFits (integersOf values) := by
  obtain ⟨total, hvalue, hheld⟩ := value_sum hvalues
  constructor
  · rintro ⟨s, hs, -⟩
    by_contra hfits
    obtain ⟨_, _, _, -, -, -, rfl⟩ := hheld.of_not_runningFits hfits
    rw [hvalue] at hs
    cases hs
  · intro hfits
    obtain ⟨s, rfl, hs⟩ := hheld.of_runningFits hsome hfits
    exact ⟨s, hvalue, hs⟩

/-! ## Every order -/

/-- The order of values does not change that they are integers or NULL. -/
theorem IntegersOrNull.perm {other : List Value} (h : IntegersOrNull values)
    (hperm : other.Perm values) : IntegersOrNull other :=
  fun v hv => h v (hperm.mem_iff.1 hv)

/-- Values in another order have the same integers in another order. -/
theorem perm_integersOf {other : List Value} (h : other.Perm values) :
    (integersOf other).Perm (integersOf values) := h.filterMap _

/-- The integers that pass a test are those of the values that pass it. -/
theorem integersOf_filter (p : Int → Bool) :
    integersOf (values.filter fun | .integer i => p i.toInt | _ => false) =
      (integersOf values).filter p := by
  induction values with
  | nil => rfl
  | cons v rest ih =>
    cases v with
    | integer i =>
      cases hp : p i.toInt <;> simp_all [integersOf]
    | _ => simpa [integersOf] using ih

/-- A total lies between those of the negative and the positive integers alone, and so does zero. -/
theorem sum_between (ns : List Int) :
    ((ns.filter (· < 0)).sum ≤ ns.sum ∧ ns.sum ≤ (ns.filter (0 < ·)).sum) ∧
      (ns.filter (· < 0)).sum ≤ 0 ∧ 0 ≤ (ns.filter (0 < ·)).sum := by
  induction ns with
  | nil => decide
  | cons n rest ih =>
    rcases Int.lt_trichotomy n 0 with hn | rfl | hn
    · rw [List.filter_cons_of_pos (by simpa using hn),
        List.filter_cons_of_neg (by simpa using Int.le_of_lt hn), List.sum_cons, List.sum_cons]
      omega
    · simpa using ih
    · rw [List.filter_cons_of_neg (by simpa using Int.le_of_lt hn),
        List.filter_cons_of_pos (by simpa using hn), List.sum_cons, List.sum_cons]
      omega

/-- **The running totals in every order** are of 64 bits if and only if the positive integers alone
and the negative ones alone come to such a total. -/
theorem runningFits_perm_iff :
    (∀ other : List Value, other.Perm values → RunningFits (integersOf other)) ↔
      Fits ((integersOf values).filter (0 < ·)).sum ∧
        Fits ((integersOf values).filter (· < 0)).sum := by
  constructor
  · intro h
    -- the values that pass a test can come first, and their total is a running one
    have hpart : ∀ p : Int → Bool, Fits ((integersOf values).filter p).sum := by
      intro p
      have hfits := h _
        (List.filter_append_perm (fun | .integer i => p i.toInt | _ => false) values)
      rw [integersOf, List.filterMap_append] at hfits
      rw [← integersOf_filter]
      exact hfits.of_append.sum
    exact ⟨hpart _, hpart _⟩
  · rintro ⟨hpositive, hnegative⟩ other hother part ⟨rest, hrest⟩
    have hsame := perm_integersOf hother
    have hp := (hsame.filter (0 < ·)).sum_eq
    have hn := (hsame.filter (· < 0)).sum_eq
    rw [← hrest, List.filter_append, List.sum_append] at hp hn
    have hfirst := sum_between part
    have hlast := sum_between rest
    unfold Fits at *
    omega

/-! ## The law -/

/-- **The sum of integers.** It is `NULL` without an integer; it is the exact total where all
running totals are of 64 bits; else it is what the exact total before the first one that is not
comes to when rounding goes on. So it is the exact total in every order of the values if and only if
the positive integers alone and the negative ones alone have a total of 64 bits. -/
theorem sum_integers (hvalues : IntegersOrNull values) :
    (integersOf values = [] → value .sum values = .ok .null) ∧
    (integersOf values ≠ [] → RunningFits (integersOf values) →
      ∃ s : Int64, value .sum values = .ok (.integer s) ∧ s.toInt = (integersOf values).sum) ∧
    (¬RunningFits (integersOf values) →
      ∃ before n after, integersOf values = before ++ n :: after ∧ RunningFits before ∧
        ¬Fits (before.sum + n) ∧
        value .sum values = .ok (.float (roundedOn (.ofInt before.sum) (n :: after)))) ∧
    (integersOf values ≠ [] →
      ((∀ other : List Value, other.Perm values →
          ∃ s : Int64, value .sum other = .ok (.integer s) ∧ s.toInt = (integersOf values).sum) ↔
        Fits ((integersOf values).filter (0 < ·)).sum ∧
          Fits ((integersOf values).filter (· < 0)).sum)) := by
  obtain ⟨total, hvalue, hheld⟩ := value_sum hvalues
  refine ⟨fun hnone => ?_, fun hsome hfits => ?_, fun hfits => ?_, fun hsome => ?_⟩
  · rw [hnone] at hheld
    rw [hvalue, held_nil hheld]
    rfl
  · exact (value_sum_exact_iff hvalues hsome).2 hfits
  · obtain ⟨before, n, after, hsplit, hbefore, hn, rfl⟩ := hheld.of_not_runningFits hfits
    exact ⟨before, n, after, hsplit, hbefore, hn, hvalue⟩
  · rw [← runningFits_perm_iff]
    refine forall₂_congr fun other hother => ?_
    have hsame := perm_integersOf hother
    rw [← hsame.sum_eq]
    exact value_sum_exact_iff (hvalues.perm hother) (mt (fun h => (h ▸ hsame).nil_eq.symm) hsome)

/-- The largest integer, one and minus one come to an integer of 64 bits, but not in this order. -/
theorem sum_integers_beyond :
    let values : List Value := [.integer Int64.maxValue, .null, .integer 1, .integer (-1)]
    IntegersOrNull values ∧ Fits (integersOf values).sum ∧
      ∃ x, value .sum values = .ok (.float x) := by
  have hvalues : IntegersOrNull
      [.integer Int64.maxValue, .null, .integer 1, .integer (-1)] := by simp [IntegersOrNull]
  have hfits : ¬RunningFits [Int64.maxValue.toInt, 1, -1] := fun h =>
    absurd (h [Int64.maxValue.toInt, 1] (by decide)) (by decide)
  obtain ⟨_, _, _, -, -, -, hvalue⟩ := (sum_integers hvalues).2.2.1 hfits
  exact ⟨hvalues, by decide, _, hvalue⟩

end Aggregate
end MiniSql
