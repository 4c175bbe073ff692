/-
# Integers in decimal

The decimal digits of an integer, with a minus sign if it is negative, are read as the integer
again (`Number.readInteger_toString`). The smallest one of 64 bits is no exception: its sign is
read before its digits, and they may go one further than those of a positive number.
-/

import MiniSql.Number.Integer

namespace MiniSql
namespace Number

/-- A number read on is no less than before. -/
theorem le_ofDigitChars (digits : List Char) (read : Nat) :
    read ≤ Nat.ofDigitChars 10 digits read := by
  have hsplit : Nat.ofDigitChars 10 digits read =
      10 ^ digits.length * read + Nat.ofDigitChars 10 digits 0 :=
    Nat.ofDigitChars_eq_ofDigitChars_zero
  have hscale : 1 * read ≤ 10 ^ digits.length * read :=
    Nat.mul_le_mul_right _ (Nat.one_le_pow _ 10 (by omega))
  omega

/-- Digits whose number is in range are read as this number. -/
theorem readDigits_eq_ok {bound read : Nat} {beyond : IntegerFault} {digits : List Char}
    (hdigits : ∀ c ∈ digits, c.isDigit = true) (h : Nat.ofDigitChars 10 digits read ≤ bound) :
    readDigits bound beyond read digits = .ok (Nat.ofDigitChars 10 digits read) := by
  induction digits generalizing read with
  | nil => rfl
  | cons c digits ih =>
    obtain ⟨hc, hdigits⟩ := List.forall_mem_cons.1 hdigits
    rw [Nat.ofDigitChars_cons] at h ⊢
    have hnext : 10 * read + digitValue c ≤ bound := Nat.le_trans (le_ofDigitChars digits _) h
    unfold readDigits
    rw [if_pos hc]
    dsimp only
    rw [if_pos hnext]
    exact ih hdigits h

/-- The decimal digits of a number start with a digit, and more may follow. -/
theorem toDigits_eq_cons (n : Nat) : ∃ c digits, Nat.toDigits 10 n = c :: digits ∧
    c.isDigit = true ∧ ∀ d ∈ digits, d.isDigit = true := by
  have hdigit : ∀ d ∈ Nat.toDigits 10 n, d.isDigit = true := fun d hd =>
    Nat.isDigit_of_mem_toDigits (by omega) (by omega) hd
  obtain ⟨c, digits, h⟩ := List.exists_cons_of_ne_nil (Nat.toDigits_ne_nil (n := n) (b := 10))
  rw [h] at hdigit
  exact ⟨c, digits, h, (List.forall_mem_cons.1 hdigit).1, (List.forall_mem_cons.1 hdigit).2⟩

/-- A number within the bound is read back from its digits. -/
theorem readDigits_toDigits {bound n : Nat} {beyond : IntegerFault} (h : n ≤ bound) :
    readDigits bound beyond 0 (Nat.toDigits 10 n) = .ok n := by
  have hnumber : Nat.ofDigitChars 10 (Nat.toDigits 10 n) 0 = n := Nat.ofDigitChars_ten_toDigits
  have hdigits : ∀ c ∈ Nat.toDigits 10 n, c.isDigit = true := fun c hc =>
    Nat.isDigit_of_mem_toDigits (by omega) (by omega) hc
  rw [readDigits_eq_ok hdigits (by omega), hnumber]

/-- **An integer written in decimal** is read as this integer. -/
theorem readInteger_toString (i : Int64) : readInteger (toString i.toInt) = .ok i := by
  have hlower := Int64.le_toInt i
  have hupper := Int64.toInt_lt i
  cases hi : i.toInt with
  | ofNat n =>
    have hn : (n : Int) < 2 ^ 63 := by
      rw [hi] at hupper
      exact hupper
    have htext : (toString (Int.ofNat n)).toList = Nat.toDigits 10 n := Nat.toList_repr
    have hread : readDigits (2 ^ 63 - 1) .tooLarge 0 (Nat.toDigits 10 n) = .ok n :=
      readDigits_toDigits (by omega)
    obtain ⟨c, digits, hcons, hc, -⟩ := toDigits_eq_cons n
    unfold readInteger
    rw [htext]
    rw [hcons] at hread ⊢
    split <;> rename_i heq
    case h_6 =>
      rw [hread]
      show Except.ok (Int64.ofInt n) = .ok i
      rw [← Int64.ofInt_toInt i, hi]
      rfl
    all_goals
      cases heq
      try cases hc
  | negSucc n =>
    have htext : (toString (Int.negSucc n)).toList = '-' :: Nat.toDigits 10 (n + 1) := by
      show ("-" ++ (n + 1).repr).toList = _
      rw [String.toList_append, Nat.toList_repr]
      rfl
    have hread : readDigits (2 ^ 63) .tooSmall 0 (Nat.toDigits 10 (n + 1)) = .ok (n + 1) :=
      readDigits_toDigits (by omega)
    obtain ⟨c, digits, hcons, -, -⟩ := toDigits_eq_cons (n + 1)
    unfold readInteger
    rw [htext]
    rw [hcons] at hread ⊢
    show (do
      let n ← readDigits (2 ^ 63) .tooSmall 0 (c :: digits)
      return Int64.ofInt (-n)) = .ok i
    rw [hread]
    show Except.ok (Int64.ofInt (-((n + 1 : Nat) : Int))) = .ok i
    rw [← Int64.ofInt_toInt i, hi]
    rfl

/-- It is written without a full stop. -/
theorem not_mem_toString (i : Int64) : '.' ∉ (toString i.toInt).toList := by
  have hdigits (n : Nat) : '.' ∉ Nat.toDigits 10 n := fun h => by
    cases Nat.isDigit_of_mem_toDigits (by omega) (by omega) h
  cases i.toInt with
  | ofNat n =>
    show '.' ∉ n.repr.toList
    rw [Nat.toList_repr]
    exact hdigits n
  | negSucc n =>
    show '.' ∉ ("-" ++ (n + 1).repr).toList
    rw [String.toList_append, Nat.toList_repr]
    simpa using hdigits (n + 1)

end Number
end MiniSql
