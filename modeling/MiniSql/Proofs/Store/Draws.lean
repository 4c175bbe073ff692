/-
# Drawing numbers from a counter

The autoincrement columns of a table draw their numbers from one counter, column by column and row
by row (`Draws`, `DrawsAll`). So the numbers of the rows of an insert are consecutive, from the
counter before it to the counter after it (`Relation.completeRows_draws`,
`DrawsAll.consecutive`). They ascend as long as none of them is the largest number, for then the
counter does not run over (`Consecutive.ascending`).
-/

import MiniSql.Proofs.Store.WellTyped

namespace MiniSql

open Timed
open MiniSql.Relation (Numbering valueAt)

/-! ## Consecutive numbers -/

/-- The numbers run from the first, one after the other, to the one before the last. -/
inductive Consecutive : Int64 → List Int64 → Int64 → Prop
  | nil (n : Int64) : Consecutive n [] n
  | cons {n n' : Int64} {ns : List Int64} (h : Consecutive (n + 1) ns n') :
      Consecutive n (n :: ns) n'

namespace Consecutive

variable {n m n' : Int64} {ns ms : List Int64}

/-- Numbers that follow those before are consecutive. -/
theorem append (h : Consecutive n ns m) (h' : Consecutive m ms n') :
    Consecutive n (ns ++ ms) n' := by
  induction h with
  | nil => exact h'
  | cons h ih => exact .cons (ih h')

/-- Consecutive numbers may be split anywhere. -/
theorem append_iff :
    Consecutive n (ns ++ ms) n' ↔ ∃ m, Consecutive n ns m ∧ Consecutive m ms n' := by
  constructor
  · intro h
    induction ns generalizing n with
    | nil => exact ⟨n, .nil n, h⟩
    | cons k ns ih =>
      cases h with
      | cons h =>
        obtain ⟨m, hns, hms⟩ := ih h
        exact ⟨m, .cons hns, hms⟩
  · rintro ⟨m, hns, hms⟩
    exact hns.append hms

/-- The next number is one greater while there is one. -/
theorem toInt_succ (h : n < Int64.maxValue) : (n + 1).toInt = n.toInt + 1 := by
  have hupper : n.toInt < 2 ^ 63 - 1 := by
    have := Int64.lt_iff_toInt_lt.1 h
    rwa [Int64.toInt_maxValue] at this
  have hlower := Int64.le_toInt n
  rw [Int64.toInt_add, Int64.toInt_one, Int.bmod_eq_of_le] <;> omega

/-- **Consecutive numbers that do not run over** ascend, from the first to below the last. -/
theorem ascending (h : Consecutive n ns n') (hbelow : ∀ m ∈ ns, m < Int64.maxValue) :
    n ≤ n' ∧ (∀ m ∈ ns, n ≤ m ∧ m < n') ∧ ns.Pairwise (· < ·) := by
  induction h with
  | nil n => exact ⟨Int64.le_refl n, by simp, .nil⟩
  | @cons n n' ns h ih =>
    obtain ⟨hn, hbelow⟩ := List.forall_mem_cons.1 hbelow
    obtain ⟨hle, hall, hascending⟩ := ih hbelow
    have hsucc := toInt_succ hn
    rw [Int64.le_iff_toInt_le, hsucc] at hle
    have hlater : ∀ m ∈ ns, n < m ∧ m < n' := by
      intro m hm
      obtain ⟨hge, hlt⟩ := hall m hm
      rw [Int64.le_iff_toInt_le, hsucc] at hge
      exact ⟨Int64.lt_iff_toInt_lt.2 (by omega), hlt⟩
    refine ⟨Int64.le_iff_toInt_le.2 (by omega), List.forall_mem_cons.2 ⟨⟨Int64.le_refl n, ?_⟩, ?_⟩,
      List.pairwise_cons.2 ⟨fun m hm => (hlater m hm).1, hascending⟩⟩
    · exact Int64.lt_iff_toInt_lt.2 (by omega)
    · exact fun m hm => ⟨Int64.le_of_lt (hlater m hm).1, (hlater m hm).2⟩

end Consecutive

/-! ## Drawing numbers -/

/-- The numbers in the autoincrement columns of a row. -/
def numbersOf : List Column → Row → List Int64
  | c :: columns, .integer i :: row =>
    if c.autoincrement then i :: numbersOf columns row else numbersOf columns row
  | _ :: columns, _ :: row => numbersOf columns row
  | _, _ => []

/-- The autoincrement columns of a row draw numbers, while the counter goes from the first to the
last. -/
inductive Draws : Int64 → List Column → Row → Int64 → Prop
  | nil (n : Int64) : Draws n [] [] n
  | drawn {n n' : Int64} {c : Column} {columns : List Column} {row : Row}
      (hc : c.autoincrement = true) (h : Draws (n + 1) columns row n') :
      Draws n (c :: columns) (.integer n :: row) n'
  | supplied {n n' : Int64} {c : Column} {columns : List Column} {row : Row} {v : Value}
      (hc : c.autoincrement = false) (h : Draws n columns row n') :
      Draws n (c :: columns) (v :: row) n'

/-- The same for some rows in turn. -/
inductive DrawsAll (columns : List Column) : Int64 → List Row → Int64 → Prop
  | nil (n : Int64) : DrawsAll columns n [] n
  | cons {n m n' : Int64} {row : Row} {rows : List Row} (h : Draws n columns row m)
      (hs : DrawsAll columns m rows n') : DrawsAll columns n (row :: rows) n'

section Draws

variable {n n' : Int64} {c : Column} {columns : List Column} {row : Row} {rows : List Row} {i : Nat}

/-- The numbers that a row draws are consecutive. -/
theorem Draws.consecutive (h : Draws n columns row n') :
    Consecutive n (numbersOf columns row) n' := by
  induction h with
  | nil n => exact .nil n
  | drawn hc h ih =>
    rw [numbersOf, if_pos hc]
    exact .cons ih
  | @supplied n n' c columns row v hc h ih =>
    have hskip : numbersOf (c :: columns) (v :: row) = numbersOf columns row := by
      cases v <;> simp [numbersOf, hc]
    rw [hskip]
    exact ih

/-- Each autoincrement column takes one of them. -/
theorem Draws.number (h : Draws n columns row n') (hi : columns[i]? = some c)
    (hc : c.autoincrement = true) : ∃ m ∈ numbersOf columns row, valueAt i row = .integer m := by
  induction h generalizing i with
  | nil => simp at hi
  | @drawn n n' d columns row hd h ih =>
    rw [numbersOf, if_pos hd]
    cases i with
    | zero => exact ⟨n, List.mem_cons_self, rfl⟩
    | succ i =>
      obtain ⟨m, hm, hvalue⟩ := ih hi
      exact ⟨m, List.mem_cons_of_mem _ hm, hvalue⟩
  | @supplied n n' d columns row v hd h ih =>
    cases i with
    | zero =>
      simp only [List.getElem?_cons_zero, Option.some.injEq] at hi
      rw [hi, hc] at hd
      cases hd
    | succ i =>
      obtain ⟨m, hm, hvalue⟩ := ih hi
      have hskip : numbersOf (d :: columns) (v :: row) = numbersOf columns row := by
        cases v <;> simp [numbersOf, hd]
      exact ⟨m, hskip ▸ hm, hvalue⟩

/-- What is kept of a row has drawn the same numbers. -/
theorem Draws.kept (h : Draws n columns row n') : Draws n columns (Record.kept row) n' := by
  induction h with
  | nil n => exact .nil n
  | drawn hc _ ih => exact .drawn hc ih
  | supplied hc _ ih => exact .supplied hc ih

/-- The numbers drawn are kept as they are. -/
theorem DrawsAll.kept (h : DrawsAll columns n rows n') :
    DrawsAll columns n (rows.map Record.kept) n' := by
  induction h with
  | nil n => exact .nil n
  | cons h _ ih => exact .cons h.kept ih

/-- All numbers that the rows drew are consecutive. -/
theorem DrawsAll.consecutive (h : DrawsAll columns n rows n') :
    Consecutive n (rows.flatMap (numbersOf columns)) n' := by
  induction h with
  | nil n => exact .nil n
  | cons h hs ih => exact h.consecutive.append ih

/-- In each autoincrement column the rows have some of these numbers, in order. -/
theorem DrawsAll.column (h : DrawsAll columns n rows n') (hi : columns[i]? = some c)
    (hc : c.autoincrement = true) : ∃ ms : List Int64, rows.map (valueAt i) = ms.map .integer ∧
      ms.Sublist (rows.flatMap (numbersOf columns)) := by
  induction h with
  | nil => exact ⟨[], rfl, .slnil⟩
  | @cons n k n' row rows h hs ih =>
    obtain ⟨m, hm, hvalue⟩ := h.number hi hc
    obtain ⟨ms, hms, hsub⟩ := ih
    refine ⟨m :: ms, by rw [List.map_cons, List.map_cons, hvalue, hms], ?_⟩
    rw [List.flatMap_cons]
    exact (List.singleton_sublist.2 hm).append hsub

end Draws

/-! ## Completing and storing rows -/

namespace Relation

variable {t t' : Time.Clock} {n n' : Numbering} {c : Column} {columns : List Column} {row : Row}

/-- An autoincrement column draws the next number, and another column none. -/
theorem complete_draws {slot : Option Value} {v : Value}
    (h : Gives (complete c slot n) t (v, n') t') :
    (c.autoincrement = true ∧ v = .integer n.next ∧ n'.next = n.next + 1) ∨
      (c.autoincrement = false ∧ n' = n) := by
  unfold complete at h
  split at h
  · rename_i hc
    split at h
    · obtain ⟨h, -⟩ := gives_pure.1 h
      cases h
      exact .inl ⟨hc, rfl, rfl⟩
    · obtain ⟨h, -⟩ := gives_pure.1 h
      cases h
      exact .inl ⟨hc, rfl, rfl⟩
    · cases not_gives_refuse h
  · rename_i hc
    refine .inr ⟨by simpa using hc, ?_⟩
    split at h
    · obtain ⟨h, -⟩ := gives_pure.1 h
      cases h
      rfl
    · obtain ⟨d, mid, -, h⟩ := gives_bind.1 h
      split at h
      · obtain ⟨h, -⟩ := gives_pure.1 h
        cases h
        rfl
      · cases not_gives_refuse h

/-- Completing the slots of a row draws its numbers in turn. -/
theorem completeAll_draws {slots : List (Option Value)} (hlength : slots.length = columns.length)
    (h : Gives (completeAll columns slots n) t (row, n') t') :
    Draws n.next columns row n'.next := by
  induction columns generalizing slots n t row n' t' with
  | nil =>
    obtain ⟨h, -⟩ := gives_pure.1 h
    cases h
    exact .nil n.next
  | cons c columns ih =>
    cases slots with
    | nil => cases hlength
    | cons slot slots =>
      simp only [completeAll, gives_bind, gives_pure, Prod.exists, Prod.mk.injEq] at h
      obtain ⟨v, m, mid, hv, row, _, _, hrow, ⟨rfl, rfl⟩, -⟩ := h
      have hrest := ih (by simpa using hlength) hrow
      rcases complete_draws hv with ⟨hc, rfl, hm⟩ | ⟨hc, rfl⟩
      · rw [hm] at hrest
        exact .drawn hc hrest
      · exact .supplied hc hrest

/-- A value that its column may hold is stored as it is. -/
theorem prepareValue_of_type {v w : Value} (hv : v = .null ∨ v.type? = some c.type)
    (h : prepareValue c v = .ok w) : w = v := by
  unfold prepareValue at h
  rw [Value.coerce_of_type hv] at h
  dsimp only at h
  split at h
  · cases h
  · cases h
    rfl

/-- Checking a row changes none of them. -/
theorem prepareValues_draws {n n' : Int64} {row' : Row} (hcolumns : ∀ c ∈ columns, c.WellFormed)
    (hrow : Draws n columns row n') (h : prepareValues columns row = .ok row') :
    Draws n columns row' n' := by
  induction hrow generalizing row' with
  | nil n =>
    cases h
    exact .nil n
  | drawn hc hrow ih =>
    obtain ⟨hwell, hcolumns⟩ := List.forall_mem_cons.1 hcolumns
    obtain ⟨w, hw, h⟩ := Except.bind_eq_ok.1 h
    obtain ⟨rest, hrest, h⟩ := Except.bind_eq_ok.1 h
    cases h
    rw [prepareValue_of_type (.inr (by rw [hwell.autoincrement_integer hc]; rfl)) hw]
    exact .drawn hc (ih hcolumns hrest)
  | supplied hc hrow ih =>
    obtain ⟨-, hcolumns⟩ := List.forall_mem_cons.1 hcolumns
    obtain ⟨w, hw, h⟩ := Except.bind_eq_ok.1 h
    obtain ⟨rest, hrest, h⟩ := Except.bind_eq_ok.1 h
    cases h
    exact .supplied hc (ih hcolumns hrest)

/-- **Completing a row** draws its numbers in turn. -/
theorem completeRow_draws {s : Schema} {slots : List (Option Value)} (hs : s.WellFormed)
    (h : Gives (completeRow s slots n) t (row, n') t') : Draws n.next s.columns row n'.next := by
  unfold completeRow at h
  split at h
  · cases not_gives_refuse h
  · rename_i hlength
    simp only [gives_bind, gives_ofExcept, gives_pure, Prod.exists, Prod.mk.injEq] at h
    obtain ⟨row, _, _, hrow, prepared, _, ⟨hprepared, -⟩, ⟨rfl, rfl⟩, -⟩ := h
    unfold prepare at hprepared
    split at hprepared
    · cases hprepared
    · exact prepareValues_draws hs.columns
        (completeAll_draws (by simpa [Schema.width] using hlength) hrow) hprepared

/-- **The rows of an insert** draw their numbers in turn. -/
theorem completeRows_draws {s : Schema} {slots : List (List (Option Value))} {rows : List Row}
    (hs : s.WellFormed) (h : Gives (completeRows s slots n) t (rows, n') t') :
    DrawsAll s.columns n.next rows n'.next := by
  induction slots generalizing n t rows t' with
  | nil =>
    obtain ⟨h, -⟩ := gives_pure.1 h
    cases h
    exact .nil _
  | cons slot slots ih =>
    simp only [completeRows, gives_bind, gives_pure, Prod.exists, Prod.mk.injEq] at h
    obtain ⟨row, m, mid, hrow, rows, _, _, hrows, ⟨rfl, rfl⟩, -⟩ := h
    exact .cons (completeRow_draws hs hrow) (ih hrows)

end Relation
end MiniSql
