/-
# Row keys

Rows are kept under byte strings, in the order of the bytes. The key of a row is its id in eight
bytes, the most significant first, so the order of the keys is that of the ids: also where a number
needs one byte more than the one before it, as 256 does.

| theorem | what it says |
| --- | --- |
| `toId?_ofId` | the id is read back from its key |
| `ofId_lt_iff` | a smaller id has the smaller key |
-/

import MiniSql.Store.Record
import MiniSql.Store.SortedMap

namespace MiniSql

namespace RowKey

/-- The lowest bytes of a number, the most significant first. -/
def bytes : Nat → Nat → List UInt8
  | 0, _ => []
  | width + 1, n => UInt8.ofNat (n / 256 ^ width) :: bytes width (n % 256 ^ width)

/-- The number that some bytes spell. -/
def number : List UInt8 → Nat
  | [] => 0
  | b :: rest => b.toNat * 256 ^ rest.length + number rest

/-- The key of the row of an id. -/
def ofId (id : Nat) : List UInt8 := bytes 8 id

/-- The id that a key stands for, if it has the length of a key. -/
def toId? (key : List UInt8) : Option Nat := if key.length = 8 then some (number key) else none

/-- There are as many ids as numbers of 64 bits. -/
def limit : Nat := 256 ^ 8

/-- A number has as many bytes as its width. -/
@[simp] theorem length_bytes (width n : Nat) : (bytes width n).length = width := by
  induction width generalizing n with
  | zero => rfl
  | succ width ih => rw [bytes, List.length_cons, ih]

/-- The first of some bytes is the quotient by the place that it stands at. -/
theorem toNat_first {width n : Nat} (h : n < 256 ^ (width + 1)) :
    (UInt8.ofNat (n / 256 ^ width)).toNat = n / 256 ^ width := by
  have hlt : n / 256 ^ width < 256 := by
    rw [Nat.pow_succ] at h
    exact Nat.div_lt_of_lt_mul h
  rw [UInt8.toNat_ofNat']
  exact Nat.mod_eq_of_lt hlt

/-- A number is read back from its bytes. -/
theorem number_bytes {width n : Nat} (h : n < 256 ^ width) : number (bytes width n) = n := by
  induction width generalizing n with
  | zero =>
    have : n = 0 := by simpa using h
    rw [this]
    rfl
  | succ width ih =>
    have hrest : n % 256 ^ width < 256 ^ width := Nat.mod_lt _ (Nat.pow_pos (by decide))
    rw [bytes, number, toNat_first h, length_bytes, ih hrest]
    exact Nat.div_add_mod' n (256 ^ width)

/-- Numbers are in the order of their quotients, then of their remainders. -/
theorem lt_iff_div_mod {a b m : Nat} :
    a < b ↔ a / m < b / m ∨ a / m = b / m ∧ a % m < b % m := by
  have ha := Nat.div_add_mod a m
  have hb := Nat.div_add_mod b m
  constructor
  · intro h
    rcases Nat.lt_or_eq_of_le (Nat.div_le_div_right (c := m) (Nat.le_of_lt h)) with hq | hq
    · exact .inl hq
    · rw [hq] at ha
      exact .inr ⟨hq, by omega⟩
  · rintro (hq | ⟨hq, hr⟩)
    · exact Nat.lt_of_div_lt_div hq
    · rw [hq] at ha
      omega

/-- **Bytes are ordered as the numbers that they spell**, as long as these fit the width. -/
theorem bytes_lt_iff {width a b : Nat} (ha : a < 256 ^ width) (hb : b < 256 ^ width) :
    bytes width a < bytes width b ↔ a < b := by
  induction width generalizing a b with
  | zero =>
    have ha : a = 0 := by simpa using ha
    have hb : b = 0 := by simpa using hb
    simp [bytes, ha, hb]
  | succ width ih =>
    have hm : 0 < 256 ^ width := Nat.pow_pos (by decide)
    have hfirst : UInt8.ofNat (a / 256 ^ width) = UInt8.ofNat (b / 256 ^ width) ↔
        a / 256 ^ width = b / 256 ^ width := by
      rw [← UInt8.toNat_inj, toNat_first ha, toNat_first hb]
    rw [bytes, bytes, List.cons_lt_cons_iff, UInt8.lt_iff_toNat_lt, hfirst, toNat_first ha,
      toNat_first hb, ih (Nat.mod_lt _ hm) (Nat.mod_lt _ hm), ← lt_iff_div_mod]

/-- The number of a row is read back from its key. -/
theorem toId?_ofId {id : Nat} (h : id < limit) : toId? (ofId id) = some id := by
  rw [toId?, ofId, length_bytes, if_pos rfl, number_bytes h]

/-- Keys are in the order of their numbers. -/
theorem ofId_lt_iff {a b : Nat} (ha : a < limit) (hb : b < limit) : ofId a < ofId b ↔ a < b :=
  bytes_lt_iff ha hb

/-- Different numbers have different keys. -/
theorem ofId_inj {a b : Nat} (ha : a < limit) (hb : b < limit) : ofId a = ofId b ↔ a = b := by
  constructor
  · intro h
    have h := congrArg toId? h
    rw [toId?_ofId ha, toId?_ofId hb] at h
    exact Option.some.inj h
  · exact congrArg ofId

/-- 256 takes a second byte, and still comes after 255. -/
example : ofId 255 = [0, 0, 0, 0, 0, 0, 0, 255] ∧ ofId 256 = [0, 0, 0, 0, 0, 0, 1, 0] ∧
    ofId 255 < ofId 256 := by decide

end RowKey

/-- The rows as they are kept: in bytes, under their keys. -/
abbrev KeyedRows : Type := SortedMap (List UInt8) Record

/-- One write to the rows of a relation. -/
inductive RowWrite where
  | set (id : Nat) (record : Record)
  | remove (id : Nat)
  | clear

namespace KeyedRows

/-- The rows after a write. -/
def write (m : KeyedRows) : RowWrite → KeyedRows
  | .set id record => m.insert (RowKey.ofId id) record
  | .remove id => m.erase (RowKey.ofId id)
  | .clear => .empty

/-- The rows with their ids, in the order of their keys; nothing if a key is not that of an id. -/
def scan (m : KeyedRows) : Option (List (Nat × Row)) :=
  m.entries.mapM fun e => do return (← RowKey.toId? e.1, e.2.decode)

end KeyedRows

end MiniSql
