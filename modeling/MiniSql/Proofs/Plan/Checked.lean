/-
# When arguments fit a statement

Before anything else the placeholders are checked against the arguments. The check compares the
highest number with how many there are, and never counts from 1 upwards; all the same it passes
exactly if the numbers are those from 1 to some `n`, and `n` arguments are given, or more where
parameters are not strict (`Arguments.check_eq_ok_iff`).

| placeholders | arguments given | refused |
| --- | --- | --- |
| one has the number 0, or one of more than 64 bits | any | yes |
| numbers that are not those from 1 to any `n` | any | yes |
| the numbers from 1 to `n` | fewer than `n` | yes |
| the numbers from 1 to `n` | more than `n` | where parameters are strict |
-/

import MiniSql.Proofs.Number.Decimal
import MiniSql.Proofs.Plan.Placeholders
import MiniSql.Proofs.Refused
import Mathlib.Data.List.Perm.Subperm

namespace MiniSql

open Grammar (Tree Kind)

/-- Digits whose number is not in range are too many. -/
theorem Number.readDigits_eq_error {bound read : Nat} {beyond : IntegerFault} {digits : List Char}
    (hdigits : ∀ c ∈ digits, c.isDigit = true) (hread : read ≤ bound)
    (h : bound < Nat.ofDigitChars 10 digits read) :
    readDigits bound beyond read digits = .error beyond := by
  induction digits generalizing read with
  | nil => exact absurd h (Nat.not_lt.2 hread)
  | cons c digits ih =>
    obtain ⟨hc, hdigits⟩ := List.forall_mem_cons.1 hdigits
    rw [Nat.ofDigitChars_cons] at h
    unfold readDigits
    rw [if_pos hc]
    dsimp only
    split
    · rename_i hnext
      exact ih hdigits hnext h
    · rfl

namespace Arguments

variable {t : Tree} {n m given : Nat} {strict : Bool} {lexeme : String}

/-! ## The numbers of a tree -/

/-- The placeholders of the tree have the numbers from 1 to `n`. -/
structure Numbered (t : Tree) (n : Nat) : Prop where
  valid : ∀ lexeme ∈ placeholders t, ∃ k, validIndex? lexeme = some k ∧ k ≤ n
  used : ∀ k, 0 < k → k ≤ n → ∃ lexeme ∈ placeholders t, validIndex? lexeme = some k

/-- An index counts from one. -/
theorem validIndex?_eq_some {k : Nat} :
    validIndex? lexeme = some k ↔ indexOf lexeme = .ok k ∧ 0 < k := by
  unfold validIndex?
  split
  · rename_i n hn
    rw [hn]
    simp only [Except.ok.injEq]
    grind
  · rename_i fault hfault
    simp [hfault]

/-- The distinct indexes are those that were seen and those that are there. -/
theorem mem_distinct {indexes seen : List Nat} {k : Nat} :
    k ∈ indexes.foldl (fun seen i => if i ∈ seen then seen else seen ++ [i]) seen ↔
      k ∈ seen ∨ k ∈ indexes := by
  induction indexes generalizing seen with
  | nil => simp
  | cons i indexes ih =>
    rw [List.foldl_cons, ih]
    split
    · rw [List.mem_cons]
      grind
    · rw [List.mem_append, List.mem_singleton, List.mem_cons, or_assoc]

/-- Among the distinct indexes none is there twice. -/
theorem nodup_distinct {indexes seen : List Nat} (h : seen.Nodup) :
    (indexes.foldl (fun seen i => if i ∈ seen then seen else seen ++ [i]) seen).Nodup := by
  induction indexes generalizing seen with
  | nil => exact h
  | cons i indexes ih =>
    rw [List.foldl_cons]
    split
    · exact ih h
    · rename_i hi
      refine ih (List.nodup_append.2 ⟨h, by simp, fun a ha b hb => ?_⟩)
      obtain rfl := List.mem_singleton.1 hb
      exact fun heq => hi (heq ▸ ha)

/-- The greatest is within a bound if all are. -/
theorem foldl_max_le_iff {l : List Nat} {a n : Nat} :
    l.foldl max a ≤ n ↔ a ≤ n ∧ ∀ k ∈ l, k ≤ n := by
  induction l generalizing a with
  | nil => simp
  | cons b l ih => rw [List.foldl_cons, ih, Nat.max_le, List.forall_mem_cons, and_assoc]

/-- **The highest of some positive numbers is how many they are** exactly if none is left out: there
is no room for as many below it otherwise. -/
theorem highest_eq_length_iff {l : List Nat} (hnodup : l.Nodup) (hpos : ∀ k ∈ l, 0 < k) :
    l.foldl max 0 = l.length ↔ ∀ k, k ∈ l ↔ 0 < k ∧ k ≤ l.length := by
  constructor
  · intro h
    have hle : ∀ k ∈ l, k ≤ l.length := (foldl_max_le_iff.1 (Nat.le_of_eq h)).2
    have hsubset : l ⊆ List.range' 1 l.length := fun k hk => by
      have := hpos k hk
      have := hle k hk
      rw [List.mem_range'_1]
      omega
    have hperm : l.Perm (List.range' 1 l.length) :=
      (List.subperm_of_subset hnodup hsubset).perm_of_length_le (by simp)
    intro k
    rw [hperm.mem_iff, List.mem_range'_1]
    omega
  · intro h
    have hle := (foldl_max_le_iff (a := 0)).2 ⟨Nat.zero_le _, fun k hk => ((h k).1 hk).2⟩
    have hge := ((foldl_max_le_iff (a := 0)).1 (Nat.le_refl (l.foldl max 0))).2
    rcases Nat.eq_zero_or_pos l.length with hzero | hpos
    · omega
    · exact Nat.le_antisymm hle (hge _ ((h _).2 ⟨hpos, Nat.le_refl _⟩))

/-- Different numbers that are those from 1 to `n` are `n`. -/
theorem length_eq_of_mem_iff {l : List Nat} (hnodup : l.Nodup)
    (h : ∀ k, k ∈ l ↔ 0 < k ∧ k ≤ n) : l.length = n := by
  have hperm : l.Perm (List.range' 1 n) := by
    refine (List.perm_ext_iff_of_nodup hnodup List.nodup_range').2 fun k => ?_
    rw [h, List.mem_range'_1]
    omega
  simpa using hperm.length_eq

/-! ## The check -/

/-- The distinct indexes are those of the placeholders. -/
theorem mem_distinct_placeholders {k : Nat} :
    k ∈ distinct ((placeholders t).filterMap validIndex?) ↔
      ∃ lexeme ∈ placeholders t, validIndex? lexeme = some k := by
  rw [distinct, mem_distinct, List.mem_filterMap]
  simp

/-- **The check passes** exactly if the placeholders are numbered from 1 to some `n` and as many
arguments are given, or more where parameters are not strict. -/
theorem check_eq_ok_iff :
    check t given strict = .ok () ↔
      ∃ n, Numbered t n ∧ n ≤ given ∧ (strict = true → given ≤ n) := by
  have hnodup : (distinct ((placeholders t).filterMap validIndex?)).Nodup :=
    nodup_distinct List.nodup_nil
  have hmem := @mem_distinct_placeholders t
  unfold check
  dsimp only
  generalize distinct ((placeholders t).filterMap validIndex?) = indexes at hnodup hmem ⊢
  have hpos : ∀ k ∈ indexes, 0 < k := fun k hk => by
    obtain ⟨lexeme, -, hindex⟩ := hmem.1 hk
    exact (validIndex?_eq_some.1 hindex).2
  -- A numbering of the tree ends with the number of its indexes.
  have hlength {n : Nat} (ht : Numbered t n) :
      indexes.length = n ∧ indexes.foldl max 0 = indexes.length := by
    have hiff (k : Nat) : k ∈ indexes ↔ 0 < k ∧ k ≤ n := by
      refine ⟨fun hk => ⟨hpos k hk, ?_⟩, fun ⟨hpos, hle⟩ => hmem.2 (ht.used k hpos hle)⟩
      obtain ⟨lexeme, hlexeme, hindex⟩ := hmem.1 hk
      obtain ⟨k', hindex', hle⟩ := ht.valid lexeme hlexeme
      rw [hindex] at hindex'
      cases hindex'
      exact hle
    have hn := length_eq_of_mem_iff hnodup hiff
    exact ⟨hn, (highest_eq_length_iff hnodup hpos).2 (hn ▸ hiff)⟩
  split
  · rename_i lexeme hfound
    refine ⟨fun h => (nomatch h), fun ⟨n, ht, _⟩ => ?_⟩
    obtain ⟨k, hindex, -⟩ := ht.valid lexeme (List.mem_reverse.1 (List.mem_of_find?_eq_some hfound))
    have hinvalid := List.find?_some hfound
    rw [hindex] at hinvalid
    cases hinvalid
  · rename_i hfound
    split
    · rename_i hgap
      exact ⟨fun h => (nomatch h), fun ⟨n, ht, _⟩ => absurd (hlength ht).2 hgap⟩
    · rename_i hfull
      have hiff := (highest_eq_length_iff hnodup hpos).1 (Decidable.not_not.1 hfull)
      have hnumbered : Numbered t indexes.length := by
        refine ⟨fun lexeme hlexeme => ?_, fun k hpos hle => hmem.1 ((hiff k).2 ⟨hpos, hle⟩)⟩
        have hvalid := List.find?_eq_none.1 hfound lexeme (List.mem_reverse.2 hlexeme)
        obtain ⟨k, hindex⟩ := Option.ne_none_iff_exists'.1 (by simpa using hvalid)
        exact ⟨k, hindex, ((hiff k).1 (hmem.2 ⟨lexeme, hlexeme, hindex⟩)).2⟩
      split
      · rename_i hcount
        refine ⟨fun h => (nomatch h), fun ⟨n, ht, hge, hle⟩ => ?_⟩
        rw [(hlength ht).1] at hcount
        rcases hcount with hlt | ⟨hstrict, hlt⟩
        · exact absurd hlt (Nat.not_lt.2 hge)
        · exact absurd hlt (Nat.not_lt.2 (hle hstrict))
      · rename_i hcount
        refine ⟨fun _ => ⟨indexes.length, hnumbered, by omega, fun hstrict => ?_⟩, fun _ => rfl⟩
        simp only [hstrict, true_and] at hcount
        omega

/-- **Numbered placeholders pass the check** with as many arguments as there are numbers. -/
theorem Numbered.check (ht : Numbered t n) (strict : Bool) :
    Arguments.check t n strict = .ok () :=
  check_eq_ok_iff.2 ⟨n, ht, Nat.le_refl n, fun _ => Nat.le_refl n⟩

/-- Every numbered placeholder has an argument, if as many are given. -/
theorem Numbered.argument {arguments : List Value} (ht : Numbered t n)
    (hgiven : n ≤ arguments.length) (hlexeme : lexeme ∈ placeholders t) :
    ∃ k v, validIndex? lexeme = some k ∧ arguments[k - 1]? = some v ∧
      Arguments.argument arguments lexeme = .ok v := by
  obtain ⟨k, hk, hle⟩ := ht.valid lexeme hlexeme
  obtain ⟨hindex, hpos⟩ := validIndex?_eq_some.1 hk
  obtain ⟨i, rfl⟩ := Nat.exists_eq_add_of_lt hpos
  rw [Nat.zero_add] at hindex hk hle
  have hget : arguments[i]? = some arguments[i] := List.getElem?_eq_getElem (by omega)
  exact ⟨i + 1, arguments[i], hk, hget, by simp only [Arguments.argument, hindex, hget]⟩

/-- The check is refused as a matter of the parameters. -/
theorem check_within (t : Tree) (given : Nat) (strict : Bool) :
    Except.Within (fun e => ∃ cause, e = .parameter cause) (check t given strict) := by
  unfold check
  dsimp only
  split
  · exact .error ⟨_, rfl⟩
  · split
    · exact .error ⟨_, rfl⟩
    · split
      · exact .error ⟨_, rfl⟩
      · exact .ok ()

/-! ## In decimal -/

/-- The number behind the sign of a placeholder. -/
def numberOf (lexeme : String) : Nat := Nat.ofDigitChars 10 (lexeme.toList.drop 1) 0

/-- The numbers of the placeholders are those from 1 to `n`. -/
def CountTo (t : Tree) (n : Nat) : Prop :=
  ∀ k, (∃ lexeme ∈ placeholders t, numberOf lexeme = k) ↔ 0 < k ∧ k ≤ n

/-- The arguments do not fit the placeholders. -/
inductive Unfit (t : Tree) (given : Nat) (strict : Bool) : Prop
  | number {lexeme : String} (h : lexeme ∈ placeholders t)
      (hnumber : numberOf lexeme = 0 ∨ 2 ^ 64 ≤ numberOf lexeme) : Unfit t given strict
  | gap (h : ∀ n, ¬CountTo t n) : Unfit t given strict
  | few {n : Nat} (h : CountTo t n) (hgiven : given < n) : Unfit t given strict
  | many {n : Nat} (h : CountTo t n) (hstrict : strict = true) (hgiven : n < given) :
      Unfit t given strict

/-- Placeholders count to one number only. -/
theorem CountTo.unique (h : CountTo t n) (h' : CountTo t m) : n = m := by
  have hle {n m : Nat} (h : CountTo t n) (h' : CountTo t m) : n ≤ m := by
    rcases Nat.eq_zero_or_pos n with rfl | hpos
    · exact Nat.zero_le m
    · exact ((h' n).1 ((h n).2 ⟨hpos, Nat.le_refl n⟩)).2
  exact Nat.le_antisymm (hle h h') (hle h' h)

/-- The sign of a placeholder is read past, and its number is read if it has 64 bits. -/
theorem validIndex?_of_carries (h : Kind.placeholder.Carries lexeme) :
    validIndex? lexeme =
      if 0 < numberOf lexeme ∧ numberOf lexeme < 2 ^ 64 then some (numberOf lexeme) else none := by
  obtain ⟨c, tail, rfl, hc, htail⟩ := h
  have hdigits : ∀ d ∈ c :: tail, d.isDigit = true :=
    List.forall_mem_cons.2 ⟨hc, List.all_eq_true.1 htail⟩
  have hplus : c ≠ '+' := by
    rintro rfl
    cases hc
  have hnumber : numberOf (String.ofList ('$' :: c :: tail)) = Nat.ofDigitChars 10 (c :: tail) 0 := by
    simp [numberOf]
  have hindex : indexOf (String.ofList ('$' :: c :: tail)) =
      Number.readDigits Number.maxCount .tooLarge 0 (c :: tail) := by
    unfold indexOf Number.readCount
    simp only [String.toList_ofList, List.drop_succ_cons, List.drop_zero]
    split <;> simp_all
  unfold validIndex?
  rw [hindex, hnumber]
  have hmax : Number.maxCount = 2 ^ 64 - 1 := rfl
  rcases Nat.lt_or_ge Number.maxCount (Nat.ofDigitChars 10 (c :: tail) 0) with hlarge | hfits
  · rw [Number.readDigits_eq_error hdigits (Nat.zero_le _) hlarge, if_neg (by omega)]
  · rw [Number.readDigits_eq_ok hdigits hfits]
    dsimp only
    split <;> rename_i hpos
    · rw [if_pos ⟨hpos, by omega⟩]
    · rw [if_neg (by omega)]

/-- The placeholders of a text are numbered if their decimal numbers are those from 1 on and have
64 bits. -/
theorem numbered_iff (h : ∀ lexeme ∈ placeholders t, Kind.placeholder.Carries lexeme) :
    Numbered t n ↔ CountTo t n ∧ ∀ lexeme ∈ placeholders t, numberOf lexeme < 2 ^ 64 := by
  have hindex {lexeme : String} {k : Nat} (hlexeme : lexeme ∈ placeholders t) :
      validIndex? lexeme = some k ↔ 0 < k ∧ k < 2 ^ 64 ∧ numberOf lexeme = k := by
    rw [validIndex?_of_carries (h lexeme hlexeme)]
    grind
  constructor
  · intro ht
    refine ⟨fun k => ⟨?_, fun ⟨hpos, hle⟩ => ?_⟩, fun lexeme hlexeme => ?_⟩
    · rintro ⟨lexeme, hlexeme, rfl⟩
      obtain ⟨k, hk, hle⟩ := ht.valid lexeme hlexeme
      obtain ⟨hpos, -, rfl⟩ := (hindex hlexeme).1 hk
      exact ⟨hpos, hle⟩
    · obtain ⟨lexeme, hlexeme, hk⟩ := ht.used k hpos hle
      exact ⟨lexeme, hlexeme, ((hindex hlexeme).1 hk).2.2⟩
    · obtain ⟨k, hk, -⟩ := ht.valid lexeme hlexeme
      obtain ⟨-, hlt, rfl⟩ := (hindex hlexeme).1 hk
      exact hlt
  · rintro ⟨hcount, hfits⟩
    refine ⟨fun lexeme hlexeme => ?_, fun k hpos hle => ?_⟩
    · obtain ⟨hpos, hle⟩ := (hcount _).1 ⟨lexeme, hlexeme, rfl⟩
      exact ⟨_, (hindex hlexeme).2 ⟨hpos, hfits lexeme hlexeme, rfl⟩, hle⟩
    · obtain ⟨lexeme, hlexeme, rfl⟩ := (hcount k).2 ⟨hpos, hle⟩
      exact ⟨lexeme, hlexeme, (hindex hlexeme).2 ⟨hpos, hfits lexeme hlexeme, rfl⟩⟩

/-- **The check refuses the arguments of a text** exactly if they do not fit. -/
theorem check_eq_ok_iff_not_unfit
    (h : ∀ lexeme ∈ placeholders t, Kind.placeholder.Carries lexeme) :
    check t given strict = .ok () ↔ ¬Unfit t given strict := by
  rw [check_eq_ok_iff]
  constructor
  · rintro ⟨n, ht, hge, hle⟩ hunfit
    obtain ⟨hcount, hfits⟩ := (numbered_iff h).1 ht
    cases hunfit with
    | number hlexeme hnumber =>
      have hpos := ((hcount _).1 ⟨_, hlexeme, rfl⟩).1
      have hlt := hfits _ hlexeme
      omega
    | gap hgap => exact hgap n hcount
    | few hcount' hgiven =>
      obtain rfl := hcount.unique hcount'
      omega
    | many hcount' hstrict hgiven =>
      obtain rfl := hcount.unique hcount'
      exact absurd (hle hstrict) (Nat.not_le.2 hgiven)
  · intro hfit
    have hfits : ∀ lexeme ∈ placeholders t, numberOf lexeme < 2 ^ 64 := fun lexeme hlexeme =>
      Nat.not_le.1 fun hge => hfit (.number hlexeme (.inr hge))
    obtain ⟨n, hcount⟩ : ∃ n, CountTo t n := by
      by_contra hgap
      exact hfit (.gap (not_exists.1 hgap))
    exact ⟨n, (numbered_iff h).2 ⟨hcount, hfits⟩, Nat.not_lt.1 fun hlt => hfit (.few hcount hlt),
      fun hstrict => Nat.not_lt.1 fun hlt => hfit (.many hcount hstrict hlt)⟩

end Arguments
end MiniSql
