/-
# When values compare as equal

Two values of one type that compare as equal are the same value, with one exception: the two zeros
are different floating point numbers and compare as equal (`Value.same_or_zeros`). What is not a
number does not even compare with itself, so it makes no second exception.
-/

import MiniSql.Value.Order

namespace MiniSql

namespace Number
namespace Binary64

variable {x y : Binary64}

/-- A number of magnitude zero is one of the two zeros. -/
theorem eq_zero_of_magnitude (h : x.magnitude = 0) : x = zero x.negative := by
  rw [zero, ← h, ofParts_negative_magnitude]

/-- The two zeros are different. -/
theorem zero_inj {b b' : Bool} (h : zero b = zero b') : b = b' := by
  revert b b'
  decide

/-- **Two numbers in one place** are the same, or they are the two zeros. -/
theorem same_or_zeros_of_place (h : x.place = y.place) :
    x = y ∨ ∃ b, x = zero b ∧ y = zero !b := by
  have hsign : x.negative = y.negative → x = y := by
    intro hsign
    have hmagnitude : x.magnitude = y.magnitude := by
      unfold place at h
      rw [hsign] at h
      split at h <;> omega
    rw [← ofParts_negative_magnitude x, ← ofParts_negative_magnitude y, hsign, hmagnitude]
  by_cases hsame : x.negative = y.negative
  · exact .inl (hsign hsame)
  · have hopposite : y.negative = !x.negative := Bool.eq_not.2 (Ne.symm hsame)
    have hzero : x.magnitude = 0 ∧ y.magnitude = 0 := by
      unfold place at h
      rw [hopposite] at h
      cases hx : x.negative <;> simp only [hx, Bool.not_true, Bool.not_false, if_true, if_false,
        Bool.false_eq_true] at h <;> omega
    exact .inr ⟨x.negative, eq_zero_of_magnitude hzero.1,
      hopposite ▸ eq_zero_of_magnitude hzero.2⟩

/-- Numbers that compare as equal are the same, or zeros of both signs. -/
theorem same_or_zeros (h : x.compare? y = some .eq) : x = y ∨ ∃ b, x = zero b ∧ y = zero !b := by
  unfold compare? at h
  split at h
  · cases h
  · exact same_or_zeros_of_place (Std.LawfulEqCmp.eq_of_compare (Option.some.inj h))

/-- The zeros compare as equal. -/
theorem compare?_zeros (b b' : Bool) : (zero b).compare? (zero b') = some .eq := by
  revert b b'
  decide

end Binary64
end Number

namespace Value

open Number (Binary64)

variable {v w : Value}

/-- The values are the two zeros. -/
def Zeros (v w : Value) : Prop :=
  ∃ b, v = .float (Binary64.zero b) ∧ w = .float (Binary64.zero !b)

/-- Zeros of both signs compare as equal. -/
theorem Zeros.compare? (h : v.Zeros w) : v.compare? w = some .eq := by
  obtain ⟨b, rfl, rfl⟩ := h
  exact Binary64.compare?_zeros b !b

/-- **Values of one type that compare as equal** are the same, or they are the two zeros. -/
theorem same_or_zeros (htype : v.type? = w.type?) (h : v.compare? w = some .eq) :
    v = w ∨ v.Zeros w := by
  cases v <;> cases w <;> cases htype
  case null => cases h
  case boolean a b =>
    rw [Std.LawfulEqCmp.eq_of_compare (Option.some.inj h)]
    exact .inl rfl
  case integer a b =>
    rw [Int64.toInt_inj.1 (Std.LawfulEqCmp.eq_of_compare (Option.some.inj h))]
    exact .inl rfl
  case float a b =>
    rcases Binary64.same_or_zeros h with rfl | ⟨b, rfl, rfl⟩
    · exact .inl rfl
    · exact .inr ⟨b, rfl, rfl⟩
  case text a b =>
    rw [Std.LawfulEqCmp.eq_of_compare (Option.some.inj h)]
    exact .inl rfl
  case timestamp a b =>
    have horder : (compare a.seconds b.seconds).then (compare a.nanos b.nanos) = .eq :=
      Option.some.inj h
    obtain ⟨hseconds, hnanos⟩ := Ordering.then_eq_eq.1 horder
    obtain ⟨_, _⟩ := a
    obtain ⟨_, _⟩ := b
    cases Std.LawfulEqCmp.eq_of_compare hseconds
    cases Std.LawfulEqCmp.eq_of_compare hnanos
    exact .inl rfl

/-- **Only the two zeros share an equal.** Different values of one type both compare as equal with
a third of this type when they are the two zeros. -/
theorem exists_equal_iff_zeros (htype : v.type? = w.type?) (hne : v ≠ w) :
    (∃ x, x.type? = v.type? ∧ v.compare? x = some .eq ∧ w.compare? x = some .eq) ↔ v.Zeros w := by
  constructor
  · rintro ⟨x, hx, hvx, hwx⟩
    rcases same_or_zeros hx.symm hvx with rfl | ⟨b, rfl, rfl⟩ <;>
      rcases same_or_zeros (htype ▸ hx.symm) hwx with rfl | ⟨b', rfl, hb⟩
    · exact absurd rfl hne
    · exact ⟨!b', hb, by rw [Bool.not_not]⟩
    · exact ⟨b, rfl, rfl⟩
    · rw [Bool.not_inj (Binary64.zero_inj (Value.float.inj hb))] at hne
      exact absurd rfl hne
  · rintro ⟨b, rfl, rfl⟩
    exact ⟨.float (Binary64.zero b), rfl, Binary64.compare?_zeros b b,
      Binary64.compare?_zeros (!b) b⟩

end Value

end MiniSql
