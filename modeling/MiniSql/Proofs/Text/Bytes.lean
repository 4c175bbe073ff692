/-
# The order of texts

Texts are kept in the order of their characters. It is the order of their bytes too
(`lt_iff_bytes_lt`): UTF-8 gives the greater character the greater bytes, and the bytes of one
character never go on to be those of another.
-/

import Mathlib.Data.List.Lex
import Mathlib.Data.UInt

namespace MiniSql

/-- The bytes of a text in UTF-8. -/
def bytesOf (s : String) : List UInt8 := s.toUTF8.data.toList

/-- The bytes of a text are those of its characters in turn. -/
theorem bytesOf_eq (s : String) : bytesOf s = s.toList.flatMap String.utf8EncodeChar := by
  rw [bytesOf, String.toUTF8_eq_toByteArray, ← String.utf8Encode_toList]
  simp [List.utf8Encode]

/-- Of two numbers the order is that of the first digit in which they differ. -/
theorem digits_lt {m n : Nat} (h : m < n) (k : Nat) : m / k < n / k ∨ m / k = n / k ∧ m < n := by
  rcases Nat.lt_or_eq_of_le (Nat.div_le_div_right (c := k) h.le) with hlt | heq
  · exact .inl hlt
  · exact .inr ⟨heq, h⟩

/-- The order of two characters is decided within their own bytes. -/
theorem utf8EncodeChar_lt {c d : Char} (h : c < d) (cs ds : List UInt8) :
    String.utf8EncodeChar c ++ cs < String.utf8EncodeChar d ++ ds := by
  have hlt : c.val.toNat < d.val.toNat := UInt32.lt_iff_toNat_lt.1 (Char.lt_def.1 h)
  -- Four bytes hold every character: the first of them never overflows.
  have hlast : d.val.toNat < 1114112 := by
    rcases d.valid with hd | ⟨-, hd⟩
    · exact hd.trans (by decide)
    · exact hd
  have h3 := digits_lt hlt 262144
  have h2 := digits_lt hlt 4096
  have h1 := digits_lt hlt 64
  unfold String.utf8EncodeChar
  dsimp only
  split_ifs <;>
    simp (disch := omega) only [List.cons_append, List.nil_append, List.cons_lt_cons_iff,
      UInt8.lt_iff_toNat_lt, ← UInt8.toNat_inj, UInt8.toNat_ofNat', Nat.mod_eq_of_lt] <;>
    omega

/-- Texts are in the order of their bytes. -/
theorem flatMap_utf8EncodeChar_lt {cs ds : List Char} (h : cs < ds) :
    cs.flatMap String.utf8EncodeChar < ds.flatMap String.utf8EncodeChar := by
  induction h with
  | @nil d ds =>
    have hbytes : String.utf8EncodeChar d ≠ [] := String.utf8EncodeChar_ne_nil
    rw [List.flatMap_nil, List.flatMap_cons]
    cases hd : String.utf8EncodeChar d with
    | nil => exact absurd hd hbytes
    | cons b bs => exact .nil
  | rel h => exact utf8EncodeChar_lt h _ _
  | @cons c cs ds _ ih =>
    rw [List.flatMap_cons, List.flatMap_cons]
    induction String.utf8EncodeChar c with
    | nil => exact ih
    | cons b bs ih => exact .cons ih

/-- **The order of texts is the order of their bytes.** -/
theorem lt_iff_bytes_lt {a b : String} : a < b ↔ bytesOf a < bytesOf b := by
  rw [String.lt_iff, bytesOf_eq, bytesOf_eq]
  refine ⟨flatMap_utf8EncodeChar_lt, fun h => ?_⟩
  by_contra hge
  rcases List.le_iff_lt_or_eq.1 (List.not_lt.1 hge) with hgt | heq
  · exact List.lt_asymm h (flatMap_utf8EncodeChar_lt hgt)
  · rw [heq] at h
    exact List.lt_irrefl _ h

end MiniSql
