/-
# Which values sort together

The order of sorting compares any two values, and is reversed where they are named the other way
round. Whether it is an order of more values than two depends on their types. It is transitive on
the values of some types, `NULL` among them, exactly where every two of the types mix:

| | boolean | integer | text | timestamp | float |
| --- | --- | --- | --- | --- | --- |
| boolean | mix | mix | mix | mix | |
| integer | mix | mix | | | |
| text | mix | | mix | | |
| timestamp | mix | | | mix | |
| float | | | | | mix |

For two types that do not mix there are three values that run in a circle
(`Value.exists_circle`). Types that mix are ordered by keys: texts and truth values by what is
shown of them, all others by their place in their type, before the truth values, since numerals
stand before letters (`Value.sortOrder_eq_keyOrder`).

Where the comparison of predicates is defined, the order of sorting gives the same, but for a
negative zero and a positive one, which are one number to the comparison.
-/

import MiniSql.Proofs.Number.Decimal
import MiniSql.Proofs.Value.Mirror
import MiniSql.Proofs.Value.Same
import Mathlib.Data.List.Basic

namespace MiniSql

/-! ## Zeros -/

namespace Number
namespace Binary64

variable {x y : Binary64}

/-- The total order ranks numbers as the numeric order places them. -/
theorem rank_lt_of_place_lt (h : x.place < y.place) : x.rank < y.rank := by
  cases hx : x.negative <;> cases hy : y.negative <;>
    simp only [place, rank, hx, hy, if_true, if_false, Bool.false_eq_true] at h ⊢ <;> omega

/-- The total order of floating point numbers is one order both ways. -/
theorem compareTotal_swap (x y : Binary64) : y.compareTotal x = (x.compareTotal y).swap :=
  @Std.OrientedCmp.eq_swap _ (compareOn rank) _ _ _

/-- **The two orders agree**, except on the two zeros. -/
theorem compareTotal_eq_iff {o : Ordering} (h : x.compare? y = some o) :
    x.compareTotal y = o ↔ ¬∃ b, x = zero b ∧ y = zero !b := by
  have hplace : o = compare x.place y.place := by
    unfold compare? at h
    split at h
    · cases h
    · exact (Option.some.inj h).symm
  subst hplace
  unfold compareTotal
  constructor
  · rintro hsame ⟨b, rfl, rfl⟩
    revert hsame
    cases b <;> decide
  · intro hother
    rcases Int.lt_trichotomy x.place y.place with hlt | heq | hgt
    · rw [Int.compare_eq_lt.2 hlt, Int.compare_eq_lt.2 (rank_lt_of_place_lt hlt)]
    · rw [(same_or_zeros_of_place heq).resolve_right hother]
      exact Std.ReflCmp.compare_self.trans Std.ReflCmp.compare_self.symm
    · rw [Int.compare_eq_gt.2 hgt, Int.compare_eq_gt.2 (rank_lt_of_place_lt hgt)]

/-- A number has the magnitude that it is made of. -/
theorem magnitude_ofParts (negative : Bool) {m : Nat} (h : m < 2 ^ 63) :
    (ofParts negative m).magnitude = m := by
  unfold ofParts magnitude
  rw [UInt64.toNat_ofNat']
  split <;> omega

/-- A natural number other than zero rounds to no zero. -/
theorem roundMagnitude_pos {n : Nat} (h : n ≠ 0) : 0 < roundMagnitude n 1 := by
  have hone : Nat.log2 1 = 0 := by decide
  have horder : -1 ≤ binaryOrder n 1 := by
    unfold binaryOrder
    dsimp only
    rw [hone]
    split <;> omega
  unfold roundMagnitude
  rw [if_neg h]
  dsimp only
  refine Nat.lt_min.2 ⟨by decide, Nat.add_pos_left (Nat.mul_pos ?_ (by decide)) _⟩
  unfold leastExponent
  omega

/-- The magnitude of a rounded fraction fits the bits that are there for it. -/
theorem roundMagnitude_lt (n d : Nat) : roundMagnitude n d < 2 ^ 63 := by
  have hinfinite : infiniteMagnitude < 2 ^ 63 := by decide
  unfold roundMagnitude
  split
  · decide
  · exact Nat.lt_of_le_of_lt (Nat.min_le_left ..) hinfinite

end Binary64
end Number

namespace Value

open Number (Binary64)

/-- Only zero is rounded to a zero, and to the positive one. -/
theorem nearest_eq_zero_iff {i : Int64} {b : Bool} :
    nearest i = Binary64.zero b ↔ i = 0 ∧ b = false := by
  have hzero : nearest 0 = Binary64.zero false := by decide
  constructor
  · intro h
    have hmagnitude : (nearest i).magnitude = 0 := by
      rw [h]
      exact Binary64.magnitude_ofParts b (by decide)
    have hi : i = 0 := by
      by_contra hne
      have habs : i.toInt.natAbs ≠ 0 := fun h0 =>
        hne (Int64.toInt_inj.1 ((Int.natAbs_eq_zero.1 h0).trans Int64.toInt_zero.symm))
      have hpos := Binary64.roundMagnitude_pos habs
      unfold nearest Binary64.ofInt Binary64.round at hmagnitude
      rw [Binary64.magnitude_ofParts _ (Binary64.roundMagnitude_lt ..)] at hmagnitude
      omega
    subst hi
    exact ⟨rfl, (Binary64.zero_inj (hzero.symm.trans h)).symm⟩
  · rintro ⟨rfl, rfl⟩
    exact hzero

/-- The value is the number zero, with this sign. -/
def IsZero (negative : Bool) : Value → Prop
  | integer i => i = 0 ∧ negative = false
  | float x => x = Binary64.zero negative
  | _ => False

/-- A zero is an integer, or a floating point number with a sign. -/
theorem isZero_cases {a : Value} {negative : Bool} (h : a.IsZero negative) :
    a = integer 0 ∧ negative = false ∨ a = float (Binary64.zero negative) := by
  cases a with
  | integer i =>
    obtain ⟨rfl, hsign⟩ := h
    exact .inl ⟨rfl, hsign⟩
  | float x => exact .inr (congrArg float h)
  | _ => exact h.elim

/-- One of the values is the positive zero and the other the negative one. -/
def OppositeZeros (a b : Value) : Prop := ∃ negative, a.IsZero negative ∧ b.IsZero !negative

variable {a b c : Value}

/-- The floating point numbers that stand for two numbers, one of which is such a number. -/
def floats? : Value → Value → Option (Binary64 × Binary64)
  | integer i, float y => some (nearest i, y)
  | float x, integer j => some (x, nearest j)
  | float x, float y => some (x, y)
  | _, _ => none

/-- The floating point numbers that stand for two numbers change places with them. -/
theorem floats?_swap (a b : Value) : b.floats? a = (a.floats? b).map Prod.swap := by
  cases a <;> cases b <;> rfl

/-- Numbers of which one is floating are compared as floating point numbers. -/
theorem compare?_eq_of_floats? {x y : Binary64} (h : a.floats? b = some (x, y)) :
    a.compare? b = x.compare? y := by
  cases a <;> cases b <;> cases h <;> rfl

/-- Two numbers are the opposite zeros as those that stand for them are. -/
theorem oppositeZeros_iff_of_floats? {x y : Binary64} (h : a.floats? b = some (x, y)) :
    a.OppositeZeros b ↔ ∃ negative, x = Binary64.zero negative ∧ y = Binary64.zero !negative := by
  refine exists_congr fun negative => ?_
  cases a <;> cases b <;> cases h
  · exact and_congr_left' nearest_eq_zero_iff.symm
  · exact and_congr_right' nearest_eq_zero_iff.symm
  · exact Iff.rfl

/-- Numbers that no floating point number stands for are not zeros of both signs. -/
theorem not_oppositeZeros_of_floats? (h : a.floats? b = none) : ¬a.OppositeZeros b := by
  rintro ⟨negative, ha, hb⟩
  obtain ⟨rfl, rfl⟩ | rfl := isZero_cases ha <;> obtain ⟨rfl, hsign⟩ | rfl := isZero_cases hb
  · cases hsign
  all_goals cases h

/-! ## Any two values -/

/-- The order of sorting by its three steps: the total order of floating point numbers, the
comparison, and the kinds and texts. -/
theorem sortOrder_eq (a b : Value) :
    a.sortOrder b =
      match a.floats? b with
      | some (x, y) => x.compareTotal y
      | none => (a.compare? b).getD (a.fallbackOrder b) := by
  cases a <;> cases b <;> rfl

/-- The order that is left where values do not compare is one order both ways. -/
theorem fallbackOrder_swap (a b : Value) : b.fallbackOrder a = (a.fallbackOrder b).swap := by
  unfold fallbackOrder
  rw [Ordering.swap_then, ← Std.OrientedCmp.eq_swap, ← Std.OrientedCmp.eq_swap]

/-- **Named the other way round, two values sort the other way round.** -/
theorem sortOrder_swap (a b : Value) : b.sortOrder a = (a.sortOrder b).swap := by
  rw [sortOrder_eq b, sortOrder_eq a, a.floats?_swap]
  cases a.floats? b with
  | some numbers =>
    obtain ⟨x, y⟩ := numbers
    exact Binary64.compareTotal_swap x y
  | none =>
    dsimp only [Option.map_none]
    rw [a.compare?_swap b, a.fallbackOrder_swap b]
    cases a.compare? b <;> rfl

/-- No value is sorted before or behind itself. -/
theorem sortOrder_self (a : Value) : a.sortOrder a = .eq := by
  have hswap := a.sortOrder_swap a
  cases h : a.sortOrder a with
  | eq => rfl
  | lt =>
    rw [h] at hswap
    cases hswap
  | gt =>
    rw [h] at hswap
    cases hswap

/-- **Sorting agrees with the comparison** where that is defined, except on opposite zeros. -/
theorem sortOrder_eq_iff {o : Ordering} (h : a.compare? b = some o) :
    a.sortOrder b = o ↔ ¬a.OppositeZeros b := by
  rw [sortOrder_eq]
  cases hfloats : a.floats? b with
  | some numbers =>
    obtain ⟨x, y⟩ := numbers
    rw [compare?_eq_of_floats? hfloats] at h
    rw [oppositeZeros_iff_of_floats? hfloats]
    exact Binary64.compareTotal_eq_iff h
  | none =>
    rw [h]
    exact iff_of_true rfl (not_oppositeZeros_of_floats? hfloats)

/-! ## Numerals before letters -/

end Value

/-- The text starts with a character that stands before the letters. -/
def BeforeLetters (s : String) : Prop := ∃ c rest, s.toList = c :: rest ∧ c < 'A'

namespace BeforeLetters

/-- A text stands before the letters if its first part does. -/
theorem append {s : String} (h : BeforeLetters s) (t : String) : BeforeLetters (s ++ t) := by
  obtain ⟨c, rest, hs, hc⟩ := h
  refine ⟨c, rest ++ t.toList, ?_, hc⟩
  rw [String.toList_append, hs]
  rfl

/-- A text that starts with a digit stands before the letters. -/
theorem of_isDigit {s : String} {c : Char} {rest : List Char} (h : s.toList = c :: rest)
    (hc : c.isDigit = true) : BeforeLetters s := by
  unfold Char.isDigit at hc
  rw [Bool.and_eq_true, decide_eq_true_eq, decide_eq_true_eq] at hc
  have hletter : '9'.val < 'A'.val := by decide
  exact ⟨c, rest, h, UInt32.lt_of_le_of_lt hc.2 hletter⟩

/-- A number in full width stands before the letters. -/
theorem padded (width n : Nat) : BeforeLetters (Time.padded width n) := by
  obtain ⟨c, digits, hcons, hc, -⟩ := Number.toDigits_eq_cons n
  unfold Time.padded
  dsimp only
  rw [hcons]
  cases width - (c :: digits).length with
  | zero => exact of_isDigit String.toList_ofList hc
  | succ k => exact of_isDigit String.toList_ofList (c := '0') (by decide)

/-- A year stands before the letters, with a sign or without. -/
theorem yearText (year : Int) : BeforeLetters (Time.yearText year) := by
  have hminus : BeforeLetters "-" := ⟨'-', [], rfl, by decide⟩
  have hplus : BeforeLetters "+" := ⟨'+', [], rfl, by decide⟩
  unfold Time.yearText
  split
  · exact padded _ _
  · split
    · exact hminus.append _
    · exact hplus.append _

/-- The text of an instant stands before the letters. -/
theorem instantText (t : Time.Instant) : BeforeLetters t.text := by
  unfold Time.Instant.text Time.Moment.text
  simp only [String.append_assoc]
  exact (yearText _).append _

/-- The text of an integer stands before the letters, with a sign or without. -/
theorem integerText (i : Int) : BeforeLetters (toString i) := by
  cases i with
  | ofNat n =>
    obtain ⟨c, digits, hcons, hc, -⟩ := Number.toDigits_eq_cons n
    have hnumeral : n.repr.toList = c :: digits := Nat.toList_repr.trans hcons
    show BeforeLetters n.repr
    exact of_isDigit hnumeral hc
  | negSucc n =>
    have hminus : BeforeLetters "-" := ⟨'-', [], rfl, by decide⟩
    show BeforeLetters ("-" ++ (n + 1).repr)
    exact hminus.append _

/-- Such a text stands before a truth value. -/
theorem compare_shown {s : String} (h : BeforeLetters s) (b : Bool) :
    compare s (Value.boolean b).shown = .lt := by
  obtain ⟨c, rest, hs, hc⟩ := h
  have hletter : ∃ d word, (Value.boolean b).shown.toList = d :: word ∧ 'A' < d := by
    cases b
    · exact ⟨'F', _, rfl, by decide⟩
    · exact ⟨'T', _, rfl, by decide⟩
  obtain ⟨d, word, hshown, hd⟩ := hletter
  refine if_pos (String.lt_iff.2 ?_)
  rw [hs, hshown]
  exact List.cons_lt_cons_iff.2 (.inl (Char.lt_trans hc hd))

end BeforeLetters

/-! ## Values of types that mix -/

/-- Values of the two types sort together. -/
def DataType.Mixes (t u : DataType) : Prop :=
  t = u ∨ t ≠ .float ∧ u ≠ .float ∧ (t = .boolean ∨ u = .boolean)

instance (t u : DataType) : Decidable (t.Mixes u) :=
  inferInstanceAs (Decidable (t = u ∨ t ≠ .float ∧ u ≠ .float ∧ (t = .boolean ∨ u = .boolean)))

namespace Value

variable {a b c : Value}

/-- The value is `NULL` or of one of these types. -/
def Among (types : DataType → Prop) (v : Value) : Prop := ∀ t, v.type? = some t → types t

/-- `NULL` is among the values of any types. -/
theorem among_null (types : DataType → Prop) : null.Among types := fun _ h => nomatch h

/-- `NULL`, then what is ordered by its place in its type, then what is ordered by its text. -/
def tier : Value → Nat
  | null => 0
  | integer _ => 1
  | float _ => 1
  | timestamp _ => 1
  | boolean _ => 2
  | text _ => 2

/-- The place in the type, to the second. -/
def major : Value → Int
  | integer i => i.toInt
  | float x => x.rank
  | timestamp t => t.seconds
  | _ => 0

/-- The nanoseconds of an instant. -/
def minor : Value → Nat
  | timestamp t => t.nanos
  | _ => 0

/-- The text of a value that is ordered by its text. -/
def label : Value → String
  | boolean b => (boolean b).shown
  | text s => s
  | _ => ""

/-- The order of four keys, the first of them first. -/
def keyOrder : Value → Value → Ordering :=
  compareLex (compareOn tier) (compareLex (compareOn major)
    (compareLex (compareOn minor) (compareOn label)))

/-- The order of keys compares the first of them that differ. -/
theorem keyOrder_eq (a b : Value) : a.keyOrder b =
    (compare a.tier b.tier).then ((compare a.major b.major).then
      ((compare a.minor b.minor).then (compare a.label b.label))) := rfl

instance : Std.TransCmp keyOrder :=
  inferInstanceAs (Std.TransCmp (compareLex (compareOn tier) (compareLex (compareOn major)
    (compareLex (compareOn minor) (compareOn label)))))

/-- **The order of keys goes on** from one pair of values to the next. -/
theorem keyOrder_trans (hab : a.keyOrder b ≠ .gt) (hbc : b.keyOrder c ≠ .gt) :
    a.keyOrder c ≠ .gt := by
  have hac : (a.keyOrder c).isLE :=
    Std.TransCmp.isLE_trans (Ordering.isLE_iff_ne_gt.2 hab) (Ordering.isLE_iff_ne_gt.2 hbc)
  exact Ordering.isLE_iff_ne_gt.1 hac

/-- **Values of types that mix are ordered by keys.** -/
theorem sortOrder_eq_keyOrder
    (h : ∀ t u, a.type? = some t → b.type? = some u → t.Mixes u) :
    a.sortOrder b = a.keyOrder b := by
  rw [keyOrder_eq]
  cases a with
  | null => cases b <;> rfl
  | boolean p =>
    cases b with
    | null => rfl
    | boolean q => cases p <;> cases q <;> rfl
    | integer j =>
      -- They are compared by their texts, and numerals stand before letters.
      have hlt : (integer j).sortOrder (boolean p) = .lt :=
        (BeforeLetters.integerText j.toInt).compare_shown p
      rw [sortOrder_swap (integer j), hlt]
      rfl
    | float y => exact absurd (h _ _ rfl rfl) (by decide)
    | text s => rfl
    | timestamp t =>
      have hlt : (timestamp t).sortOrder (boolean p) = .lt :=
        (BeforeLetters.instantText t).compare_shown p
      rw [sortOrder_swap (timestamp t), hlt]
      rfl
  | integer i =>
    cases b with
    | null => rfl
    | boolean q => exact (BeforeLetters.integerText i.toInt).compare_shown q
    | integer j =>
      show compare i.toInt j.toInt = Ordering.then (compare i.toInt j.toInt) .eq
      exact Ordering.then_eq.symm
    | _ => exact absurd (h _ _ rfl rfl) (by decide)
  | float x =>
    cases b with
    | null => rfl
    | float y =>
      show compare x.rank y.rank = Ordering.then (compare x.rank y.rank) .eq
      exact Ordering.then_eq.symm
    | _ => exact absurd (h _ _ rfl rfl) (by decide)
  | text s =>
    cases b with
    | null => rfl
    | boolean q => rfl
    | text s' => rfl
    | _ => exact absurd (h _ _ rfl rfl) (by decide)
  | timestamp t =>
    cases b with
    | null => rfl
    | boolean q => exact (BeforeLetters.instantText t).compare_shown q
    | timestamp t' =>
      show (compare t.seconds t'.seconds).then (compare t.nanos t'.nanos) =
        (compare t.seconds t'.seconds).then ((compare t.nanos t'.nanos).then .eq)
      rw [Ordering.then_eq]
    | _ => exact absurd (h _ _ rfl rfl) (by decide)

/-- **The order of values goes on** from one pair to the next, whose types may be mixed. -/
theorem sortOrder_trans {types : DataType → Prop} (hmix : ∀ t u, types t → types u → t.Mixes u)
    (ha : a.Among types) (hb : b.Among types) (hc : c.Among types)
    (hab : a.sortOrder b ≠ .gt) (hbc : b.sortOrder c ≠ .gt) : a.sortOrder c ≠ .gt := by
  have byKeys {v w : Value} (hv : v.Among types) (hw : w.Among types) :
      v.sortOrder w = v.keyOrder w :=
    sortOrder_eq_keyOrder fun t u ht hu => hmix t u (hv t ht) (hw u hu)
  rw [byKeys ha hb] at hab
  rw [byKeys hb hc] at hbc
  rw [byKeys ha hc]
  exact keyOrder_trans hab hbc

/-- Sorting orders these values: of any two one is not greater than the other, and what is not
greater than a value is not greater than what that one is not greater than. -/
structure Preordered (values : Value → Prop) : Prop where
  total : ∀ a b, values a → values b → a.sortOrder b ≠ .gt ∨ b.sortOrder a ≠ .gt
  trans : ∀ a b c, values a → values b → values c →
    a.sortOrder b ≠ .gt → b.sortOrder c ≠ .gt → a.sortOrder c ≠ .gt

/-- **The values of one type** are ordered by sorting, `NULL` among them. -/
theorem preordered_ofType (type : DataType) : Preordered (Among (· = type)) := by
  constructor
  · intro a b _ _
    rw [a.sortOrder_swap b]
    cases a.sortOrder b <;> decide
  · intro a b c ha hb hc
    exact sortOrder_trans (fun t u ht hu => .inl (ht.trans hu.symm)) ha hb hc

/-! ## Values of types that do not mix -/

/-- Three values of two types that do not mix. -/
def circle : DataType → DataType → Value × Value × Value
  | .boolean, .float | .float, .boolean =>
    (float .notANumber, boolean true, float (.infinity false))
  | .integer, .float | .float, .integer =>
    (integer 9007199254740993, float (nearest 9007199254740992), integer 9007199254740992)
  | .integer, .text | .text, .integer => (text "10", text "9", integer 9)
  | .integer, .timestamp | .timestamp, .integer => (integer 10, timestamp ⟨0, 0⟩, integer 9)
  | .float, .text | .text, .float => (text "10", text "9", float (nearest 9))
  | .float, .timestamp | .timestamp, .float =>
    (float (nearest 10), timestamp ⟨0, 0⟩, float (nearest 9))
  | .text, .timestamp | .timestamp, .text => (text "2024-01-01", text "z", timestamp ⟨0, 0⟩)
  | _, _ => (null, null, null)

/-- **Types that do not mix** have three values that run in a circle: none of the first two is
greater than the next, yet the first is greater than the last. -/
theorem exists_circle {t u : DataType} (h : ¬t.Mixes u) :
    ∃ a b c : Value, (∀ v ∈ [a, b, c], v.type? = some t ∨ v.type? = some u) ∧
      a.sortOrder b ≠ .gt ∧ b.sortOrder c ≠ .gt ∧ a.sortOrder c = .gt := by
  refine ⟨(circle t u).1, (circle t u).2.1, (circle t u).2.2, ?_⟩
  revert h
  cases t <;> cases u <;> decide +kernel

/-! ## The laws of sorting -/

/-- **The laws of the order of sorting.** A value sorts beside itself, and two values sort the
other way round if they are named the other way round. Where the comparison is defined, sorting
gives the same unless the values are the positive zero and the negative one, and then it does not.
The order is transitive on the values of some types exactly if every two of the types mix. -/
theorem sortOrder_laws (a b : Value) (types : DataType → Prop) :
    a.sortOrder a = .eq ∧ b.sortOrder a = (a.sortOrder b).swap ∧
    (∀ o, a.compare? b = some o → (a.sortOrder b = o ↔ ¬a.OppositeZeros b)) ∧
    ((∀ x y z : Value, x.Among types → y.Among types → z.Among types →
        x.sortOrder y ≠ .gt → y.sortOrder z ≠ .gt → x.sortOrder z ≠ .gt) ↔
      ∀ t u, types t → types u → t.Mixes u) := by
  refine ⟨a.sortOrder_self, a.sortOrder_swap b, fun _ => sortOrder_eq_iff, ?_, ?_⟩
  · intro htrans t u ht hu
    by_contra hmix
    obtain ⟨x, y, z, htypes, hxy, hyz, hxz⟩ := exists_circle hmix
    have hamong : ∀ v ∈ [x, y, z], v.Among types := by
      intro v hv s hs
      rcases htypes v hv with htype | htype
      · cases hs.symm.trans htype
        exact ht
      · cases hs.symm.trans htype
        exact hu
    obtain ⟨hx, hy, hz⟩ : x.Among types ∧ y.Among types ∧ z.Among types := by
      simpa using hamong
    exact htrans x y z hx hy hz hxy hyz hxz
  · intro hmix x y z hx hy hz
    exact sortOrder_trans hmix hx hy hz

/-- The comparison finds the two zeros equal, and sorting does not. A day of 2024 written as a text,
a text that names no instant, and the first instant of 1970 run in a circle. -/
theorem sortOrder_laws_zerosAndTexts :
    (float (.zero true)).compare? (float (.zero false)) = some .eq ∧
    (float (.zero true)).sortOrder (float (.zero false)) ≠ .eq ∧
    ¬∀ x y z : Value, x.sortOrder y ≠ .gt → y.sortOrder z ≠ .gt → x.sortOrder z ≠ .gt := by
  obtain ⟨-, -, agrees, transitive⟩ :=
    sortOrder_laws (float (.zero true)) (float (.zero false)) fun _ => True
  have hequal : (float (.zero true)).compare? (float (.zero false)) = some .eq := by
    decide +kernel
  refine ⟨hequal, ?_, ?_⟩
  · intro hsort
    exact (agrees _ hequal).1 hsort ⟨true, rfl, rfl⟩
  · intro htrans
    have hmix := transitive.1 fun x y z _ _ _ => htrans x y z
    exact absurd (hmix .text .timestamp trivial trivial) (by decide)

end Value
end MiniSql
