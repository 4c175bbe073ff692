/-
# The least and the greatest value

`MIN` and `MAX` keep, of the values of a column that are not `NULL`, the first and then each that
compares to the kept one as wanted. What is not a number compares with nothing: standing first it is
kept for good, and standing later it is passed over (`Aggregate.best_foldl`):

| the first value | what is kept |
| --- | --- |
| there is none | `NULL` |
| is not a number | this value |
| any other | a best one of the values that are numbers, if any of them are |

So what is kept depends on the order of the values as far as one that is not a number may stand
first, and no further (`Aggregate.Best.same_iff`). The first and the last of sorted values are best
ones too, in this order and in the reverse (`Aggregate.best_head`, `Aggregate.best_last`).
-/

import MiniSql.Proofs.Value.SortOrder
import MiniSql.Query.Aggregate

namespace MiniSql

open Number (Binary64)

/-! ## Values of one type -/

namespace Value

variable {a b c : Value} {o : Ordering}

/-- The value is what is not a number. -/
def isNaN : Value → Bool
  | float x => x.isNaN
  | _ => false

/-- The values are identical, or they compare as equal. -/
def Same (a b : Value) : Prop := a = b ∨ a.compare? b = some .eq

/-- The values are identical, or both compare with the values of their type. -/
def Meet (a b : Value) : Prop := a = b ∨ a.isNaN = false ∧ b.isNaN = false

/-- The place of a value in its type. The two zeros have one place. -/
def place : Value → Int
  | float x => x.place
  | v => v.major

/-- The order of the places. -/
def placeOrder : Value → Value → Ordering :=
  compareLex (compareOn place) (compareLex (compareOn minor) (compareOn label))

instance : Std.TransCmp placeOrder :=
  inferInstanceAs (Std.TransCmp
    (compareLex (compareOn place) (compareLex (compareOn minor) (compareOn label))))

/-- **Values of one type compare by their places**, unless one is not a number. -/
theorem compare?_eq_placeOrder (htype : a.type? = b.type?) (hnull : a ≠ null)
    (ha : a.isNaN = false) (hb : b.isNaN = false) : a.compare? b = some (a.placeOrder b) := by
  have hplaces : a.placeOrder b = (compare a.place b.place).then
      ((compare a.minor b.minor).then (compare a.label b.label)) := rfl
  rw [hplaces]
  cases a <;> cases b <;> cases htype
  case null => exact absurd rfl hnull
  case boolean p q => cases p <;> cases q <;> rfl
  case integer i j =>
    show some (compare i.toInt j.toInt) = some (Ordering.then (compare i.toInt j.toInt) .eq)
    rw [Ordering.then_eq]
  case float x y =>
    have hx : x.isNaN = false := ha
    have hy : y.isNaN = false := hb
    show x.compare? y = some (Ordering.then (compare x.place y.place) .eq)
    rw [Ordering.then_eq, Binary64.compare?, hx, hy]
    rfl
  case text s s' => rfl
  case timestamp t t' =>
    show some ((compare t.seconds t'.seconds).then (compare t.nanos t'.nanos)) =
      some ((compare t.seconds t'.seconds).then ((compare t.nanos t'.nanos).then .eq))
    rw [Ordering.then_eq]

/-- What is not a number compares with no value of its type. -/
theorem compare?_of_isNaN (htype : a.type? = b.type?) (h : ¬(a.isNaN = false ∧ b.isNaN = false)) :
    a.compare? b = none := by
  cases a <;> cases b <;> cases htype
  case float x y =>
    have hnan : (x.isNaN || y.isNaN) = true := by
      by_contra hno
      exact h (Bool.or_eq_false_iff.1 (Bool.eq_false_iff.2 hno))
    show x.compare? y = none
    rw [Binary64.compare?, hnan]
    rfl
  all_goals exact absurd ⟨rfl, rfl⟩ h

/-- Where values of one type compare, both do. -/
theorem numbers_of_compare? (htype : a.type? = b.type?) (h : a.compare? b = some o) :
    a.isNaN = false ∧ b.isNaN = false := by
  by_contra hnan
  rw [compare?_of_isNaN htype hnan] at h
  cases h

/-- Values of one type that are the same meet. -/
theorem Same.meet (h : a.Same b) (htype : a.type? = b.type?) : a.Meet b :=
  h.imp_right (numbers_of_compare? htype)

/-- Opposite zeros compare as equal. -/
theorem OppositeZeros.compare? (h : a.OppositeZeros b) : a.compare? b = some .eq := by
  obtain ⟨negative, ha, hb⟩ := h
  obtain ⟨rfl, rfl⟩ | rfl := isZero_cases ha <;> obtain ⟨rfl, hsign⟩ | rfl := isZero_cases hb
  · cases hsign
  · decide
  · obtain rfl : negative = true := by simpa using hsign
    decide
  · exact Binary64.compare?_zeros negative !negative

/-- What compares as wanted to a value does so to any that does not. -/
theorem compare?_trans {type : DataType} {wanted : Ordering} (hw : wanted ≠ .eq)
    (ha : a.type? = some type) (hb : b.type? = some type) (hc : c.type? = some type)
    (hnumber : c.isNaN = false) (hab : a.compare? b = some wanted)
    (hcb : c.compare? b ≠ some wanted) : a.compare? c = some wanted := by
  obtain ⟨hna, hnb⟩ := numbers_of_compare? (ha.trans hb.symm) hab
  have places {v w : Value} (hv : v.type? = some type) (hw : w.type? = some type)
      (hnv : v.isNaN = false) (hnw : w.isNaN = false) : v.compare? w = some (v.placeOrder w) :=
    compare?_eq_placeOrder (hv.trans hw.symm) (fun h => by rw [h] at hv; cases hv) hnv hnw
  rw [places ha hb hna hnb, Option.some.injEq] at hab
  rw [places hc hb hnumber hnb, ne_eq, Option.some.injEq] at hcb
  rw [places ha hc hna hnumber, Option.some.injEq]
  have hswap : c.placeOrder b = (b.placeOrder c).swap := Std.OrientedCmp.eq_swap
  rw [hswap] at hcb
  cases wanted with
  | eq => exact absurd rfl hw
  | lt =>
    refine Std.TransCmp.lt_of_lt_of_isLE hab ?_
    cases hbc : b.placeOrder c <;> simp [hbc] at hcb ⊢
  | gt =>
    refine Std.TransCmp.gt_of_gt_of_isGE hab ?_
    cases hbc : b.placeOrder c <;> simp [hbc] at hcb ⊢

/-- A value does not compare as less or greater to itself. -/
theorem compare?_self_ne {wanted : Ordering} (hw : wanted ≠ .eq) (a : Value) :
    a.compare? a ≠ some wanted := by
  intro h
  have hswap := a.compare?_swap a
  rw [h] at hswap
  cases wanted <;> first | exact hw rfl | cases hswap

/-- What sorting does not put behind another value does not compare to it as greater. -/
theorem compare?_ne_gt (h : a.sortOrder b ≠ .gt) : a.compare? b ≠ some .gt := by
  intro hgt
  by_cases hzeros : a.OppositeZeros b
  · cases hgt.symm.trans hzeros.compare?
  · exact h ((sortOrder_eq_iff hgt).2 hzeros)

end Value

/-! ## The value that is kept -/

namespace Aggregate

open Value

variable {wanted : Ordering} {values others vs : List Value} {b r r' v w : Value}
  {type : DataType}

/-- The values that are not `NULL`. -/
def present (values : List Value) : List Value := values.filter fun v => !v.isNull

/-- A value that is there has the type of the column. -/
theorem type_of_mem_present (hvalues : ∀ v ∈ values, v.Among (· = type))
    (hv : v ∈ present values) : v.type? = some type := by
  obtain ⟨hmem, hpresent⟩ := List.mem_filter.1 hv
  cases htype : v.type? with
  | none =>
    rw [type?_eq_none_iff.1 htype] at hpresent
    cases hpresent
  | some type' => rw [hvalues v hmem type' htype]

/-- What is kept of some values: nothing of none, the first if it is not a number, and else one of
the numbers to which no other value compares as wanted. -/
structure Best (wanted : Ordering) (values : List Value) (r : Value) : Prop where
  none : present values = [] → r = .null
  stuck : ∀ v, (present values).head? = some v → v.isNaN = true → r = v
  best : ∀ v, (present values).head? = some v → v.isNaN = false →
    r ∈ present values ∧ r.isNaN = false ∧ ∀ w ∈ present values, w.compare? r ≠ some wanted

/-- `NULL` is passed over. -/
theorem foldl_present (best : Option Value) :
    values.foldl (extreme wanted) best = (present values).foldl (extreme wanted) best := by
  induction values generalizing best with
  | nil => rfl
  | cons v values ih =>
    cases hnull : v.isNull with
    | true =>
      have hstep : extreme wanted best v = best := if_pos hnull
      rw [List.foldl_cons, hstep, ih, present, present, List.filter_cons_of_neg (by simp [hnull])]
    | false =>
      rw [List.foldl_cons, ih, present, present, List.filter_cons_of_pos (by simp [hnull]),
        List.foldl_cons]

/-- One step between two values of one type. -/
theorem extreme_some (hv : v.type? = some type) : extreme wanted (some b) v =
    if v.compare? b = some wanted then some v else some b := by
  have hnull : ¬v.isNull = true := by cases v <;> first | exact Bool.false_ne_true | cases hv
  exact if_neg hnull

/-- What is not a number is kept for good. -/
theorem foldl_stuck (hvs : ∀ v ∈ vs, v.type? = some type) (hb : b.type? = some type)
    (hnan : b.isNaN = true) : vs.foldl (extreme wanted) (some b) = some b := by
  induction vs with
  | nil => rfl
  | cons v vs ih =>
    obtain ⟨hv, hvs⟩ := List.forall_mem_cons.1 hvs
    have hnone : v.compare? b = none :=
      compare?_of_isNaN (hv.trans hb.symm) fun h => by simp [h.2] at hnan
    rw [List.foldl_cons, extreme_some hv, hnone, if_neg (by simp), ih hvs]

/-- Of the others a best one is kept. -/
theorem foldl_number (hw : wanted ≠ .eq) (hvs : ∀ v ∈ vs, v.type? = some type)
    (hb : b.type? = some type) (hnumber : b.isNaN = false) :
    ∃ r, vs.foldl (extreme wanted) (some b) = some r ∧ r ∈ b :: vs ∧ r.isNaN = false ∧
      ∀ w ∈ b :: vs, w.compare? r ≠ some wanted := by
  induction vs generalizing b with
  | nil =>
    refine ⟨b, rfl, List.mem_cons_self, hnumber, fun w hmem => ?_⟩
    rw [List.mem_singleton.1 hmem]
    exact compare?_self_ne hw b
  | cons v vs ih =>
    have hall : ∀ w ∈ b :: v :: vs, w.type? = some type := List.forall_mem_cons.2 ⟨hb, hvs⟩
    obtain ⟨hv, hvs⟩ := List.forall_mem_cons.1 hvs
    rw [List.foldl_cons, extreme_some hv]
    by_cases hbetter : v.compare? b = some wanted
    · rw [if_pos hbetter]
      have hvNumber := (numbers_of_compare? (hv.trans hb.symm) hbetter).1
      obtain ⟨r, hr, hmem, hrNumber, hbest⟩ := ih hvs hv hvNumber
      refine ⟨r, hr, List.mem_cons_of_mem b hmem, hrNumber, List.forall_mem_cons.2 ⟨?_, hbest⟩⟩
      -- What was kept before is not better than the new one, and nothing is better than the last.
      have hrType : r.type? = some type := hall r (List.mem_cons_of_mem b hmem)
      intro hbr
      refine hbest v List.mem_cons_self (compare?_trans hw hv hb hrType hrNumber hbetter ?_)
      intro hrb
      rw [compare?_swap, hrb] at hbr
      cases wanted <;> first | exact hw rfl | cases hbr
    · rw [if_neg hbetter]
      obtain ⟨r, hr, hmem, hrNumber, hbest⟩ := ih hvs hb hnumber
      obtain ⟨hkept, hothers⟩ := List.forall_mem_cons.1 hbest
      have hsub : ∀ w ∈ b :: vs, w ∈ b :: v :: vs :=
        List.cons_subset_cons b (List.subset_cons_self v vs)
      have hrType : r.type? = some type := hall r (hsub r hmem)
      refine ⟨r, hr, hsub r hmem, hrNumber, ?_⟩
      refine List.forall_mem_cons.2 ⟨hkept, List.forall_mem_cons.2 ⟨fun hvr => ?_, hothers⟩⟩
      exact hbetter (compare?_trans hw hv hrType hb hnumber hvr hkept)

/-- **What is kept in the end** of values of one type. -/
theorem best_foldl (hw : wanted ≠ .eq) (hvalues : ∀ v ∈ values, v.Among (· = type)) :
    Best wanted values ((values.foldl (extreme wanted) none).getD .null) := by
  have htypes : ∀ v ∈ present values, v.type? = some type := fun _ => type_of_mem_present hvalues
  rw [foldl_present]
  cases hpresent : present values with
  | nil =>
    refine ⟨fun _ => rfl, fun _ h => ?_, fun _ h => ?_⟩ <;>
    · rw [hpresent] at h
      cases h
  | cons b vs =>
    rw [hpresent] at htypes
    obtain ⟨hb, hvs⟩ := List.forall_mem_cons.1 htypes
    have hfirst : extreme wanted none b = some b := by
      cases b <;> first | rfl | cases hb
    rw [List.foldl_cons, hfirst]
    cases hnan : b.isNaN with
    | true =>
      rw [foldl_stuck hvs hb hnan]
      refine ⟨fun h => by simp [hpresent] at h, fun v hv _ => ?_, fun v hv hnumber => ?_⟩
      · rw [hpresent] at hv
        exact Option.some.inj hv
      · rw [hpresent] at hv
        cases hv
        rw [hnan] at hnumber
        cases hnumber
    | false =>
      obtain ⟨r, hr, hbest⟩ := foldl_number hw hvs hb hnan
      rw [hr]
      refine ⟨fun h => by simp [hpresent] at h, fun v hv hstuck => ?_, fun v hv _ => ?_⟩
      · rw [hpresent] at hv
        cases hv
        rw [hnan] at hstuck
        cases hstuck
      · rw [hpresent]
        exact hbest

/-! ## In which order the values stand -/

/-- What is kept is a number where the first value is one. -/
theorem Best.isNaN_eq (h : Best wanted values r) (hv : (present values).head? = some v) :
    r.isNaN = v.isNaN := by
  cases hnan : v.isNaN with
  | true => rw [h.stuck v hv hnan, hnan]
  | false => exact (h.best v hv hnan).2.1

/-- The best of the values has their type. -/
theorem Best.type_eq (hvalues : ∀ v ∈ values, v.Among (· = type)) (h : Best wanted values r)
    (hv : (present values).head? = some v) : r.type? = some type := by
  have hmem := List.mem_of_head? hv
  cases hnan : v.isNaN with
  | true =>
    rw [h.stuck v hv hnan]
    exact type_of_mem_present hvalues hmem
  | false => exact type_of_mem_present hvalues (h.best v hv hnan).1

/-- Best ones of the same values are the same. -/
theorem Best.same (hw : wanted ≠ .eq) (hvalues : ∀ v ∈ values, v.Among (· = type))
    (hperm : others.Perm values) (h : Best wanted values r) (h' : Best wanted others r')
    (hv : (present values).head? = some v) (hv' : (present others).head? = some w)
    (hnv : v.isNaN = false) (hnw : w.isNaN = false) : r.Same r' := by
  obtain ⟨hmem, hnr, hbest⟩ := h.best v hv hnv
  obtain ⟨hmem', hnr', hbest'⟩ := h'.best w hv' hnw
  have hpresent (x : Value) : x ∈ present others ↔ x ∈ present values := (hperm.filter _).mem_iff
  have hr := type_of_mem_present hvalues hmem
  have hr' := type_of_mem_present hvalues ((hpresent r').1 hmem')
  have hplaces : r.compare? r' = some (r.placeOrder r') :=
    compare?_eq_placeOrder (hr.trans hr'.symm) (fun hnull => by rw [hnull] at hr; cases hr) hnr hnr'
  have hnot : r.compare? r' ≠ some wanted := hbest' r ((hpresent r).2 hmem)
  have hnot' : r'.compare? r ≠ some wanted := hbest r' ((hpresent r').1 hmem')
  rw [compare?_swap, hplaces] at hnot'
  rw [hplaces] at hnot
  refine .inr (hplaces.trans ?_)
  cases horder : r.placeOrder r' <;> cases wanted <;> simp [horder] at hw hnot hnot' ⊢

/-- **What is kept does not depend on the order of the values** where the first of them meet. -/
theorem Best.same_iff (hw : wanted ≠ .eq) (hvalues : ∀ v ∈ values, v.Among (· = type))
    (hperm : others.Perm values) (h : Best wanted values r) (h' : Best wanted others r')
    (hv : (present values).head? = some v) (hv' : (present others).head? = some w) :
    r.Same r' ↔ v.Meet w := by
  have hothers : ∀ v ∈ others, v.Among (· = type) := fun x hx => hvalues x (hperm.mem_iff.1 hx)
  have htype := (h.type_eq hvalues hv).trans (h'.type_eq hothers hv').symm
  have hr := h.isNaN_eq hv
  have hr' := h'.isNaN_eq hv'
  by_cases hnumbers : v.isNaN = false ∧ w.isNaN = false
  · exact iff_of_true (h.same hw hvalues hperm h' hv hv' hnumbers.1 hnumbers.2) (.inr hnumbers)
  constructor
  · intro hsame
    have hequal : r = r' := (hsame.meet htype).resolve_right (by rwa [hr, hr'])
    have hnan : v.isNaN = w.isNaN := by rw [← hr, ← hr', hequal]
    have hvNaN : v.isNaN = true := by
      by_contra hno
      exact hnumbers ⟨by simpa using hno, by simpa [hnan] using hno⟩
    exact .inl ((h.stuck v hv hvNaN).symm.trans (hequal.trans (h'.stuck w hv' (hnan ▸ hvNaN))))
  · intro hmeet
    obtain rfl := hmeet.resolve_right hnumbers
    have hvNaN : v.isNaN = true := by simpa using hnumbers
    exact .inl ((h.stuck v hv hvNaN).trans (h'.stuck v hv' hvNaN).symm)

/-- The first value is a best one if no other compares to it as wanted. -/
theorem best_of_head (hv : (present values).head? = some v)
    (h : ∀ w ∈ present values, w.compare? v ≠ some wanted) : Best wanted values v := by
  refine ⟨fun hnil => by simp [hnil] at hv, fun w hw _ => ?_, fun w hw hnumber => ?_⟩
  · exact Option.some.inj (hv.symm.trans hw)
  · obtain rfl := Option.some.inj (hv.symm.trans hw)
    exact ⟨List.mem_of_head? hv, hnumber, h⟩

/-- The first of sorted values is a least one. -/
theorem best_head (h : values.Pairwise fun a b => a.sortOrder b ≠ .gt)
    (hv : (present values).head? = some v) : Best .lt values v := by
  refine best_of_head hv fun w hw => ?_
  obtain ⟨rest, hpresent⟩ := List.head?_eq_some_iff.1 hv
  have hsorted : (v :: rest).Pairwise fun a b => a.sortOrder b ≠ .gt := hpresent ▸ h.filter _
  rw [hpresent] at hw
  rcases List.mem_cons.1 hw with rfl | hw
  · exact compare?_self_ne (by decide) w
  · intro hlt
    have hgt := compare?_ne_gt ((List.pairwise_cons.1 hsorted).1 w hw)
    rw [compare?_swap, hlt] at hgt
    exact hgt rfl

/-- The last of sorted values is a greatest one. -/
theorem best_last (h : values.Pairwise fun a b => a.sortOrder b ≠ .gt)
    (hv : (present values).getLast? = some v) : Best .gt values.reverse v := by
  have hreverse : present values.reverse = (present values).reverse := List.filter_reverse
  refine best_of_head (by rw [hreverse, List.head?_reverse, hv]) fun w hw => ?_
  obtain ⟨before, hpresent⟩ := List.getLast?_eq_some_iff.1 hv
  have hsorted : (before ++ [v]).Pairwise fun a b => a.sortOrder b ≠ .gt := hpresent ▸ h.filter _
  rw [hreverse, List.mem_reverse, hpresent] at hw
  rcases List.mem_append.1 hw with hw | hw
  · exact compare?_ne_gt ((List.pairwise_append.1 hsorted).2.2 w hw v List.mem_cons_self)
  · rw [List.mem_singleton.1 hw]
    exact compare?_self_ne (by decide) v

/-! ## Beside the sorted values -/

/-- What `MIN` and `MAX` give of some values, beside the same values sorted. -/
structure Extremes (values sorted : List Value) (least greatest : Value) : Prop where
  perm : sorted.Perm values
  inOrder : sorted.Pairwise fun a b => a.sortOrder b ≠ .gt
  bestLeast : Best .lt values least
  bestGreatest : Best .gt values greatest
  first : ∀ v w, (present values).head? = some v → (present sorted).head? = some w →
    (least.Same w ↔ v.Meet w)
  last : ∀ v w, (present values).head? = some v → (present sorted).getLast? = some w →
    (greatest.Same w ↔ v.Meet w)

/-- **The extremes** of the values are the first and the last of the sorted ones, exactly where
these meet. -/
theorem extremes_of_sorted {sorted : List Value} (hvalues : ∀ v ∈ values, v.Among (· = type))
    (hperm : sorted.Perm values) (hsorted : sorted.Pairwise fun a b => a.sortOrder b ≠ .gt) :
    Extremes values sorted ((values.foldl (extreme .lt) none).getD .null)
      ((values.foldl (extreme .gt) none).getD .null) := by
  have hleast := @best_foldl .lt values type (by decide) hvalues
  have hgreatest := @best_foldl .gt values type (by decide) hvalues
  refine ⟨hperm, hsorted, hleast, hgreatest, fun v w hv hw => ?_, fun v w hv hw => ?_⟩
  · exact hleast.same_iff (by decide) hvalues hperm (best_head hsorted hw) hv hw
  · refine hgreatest.same_iff (by decide) hvalues ((List.reverse_perm sorted).trans hperm)
      (best_last hsorted hw) hv ?_
    rw [present, List.filter_reverse, List.head?_reverse]
    exact hw

/-- The first value that is there is one of the values. -/
theorem mem_of_head_present (h : (present values).head? = some v) : v ∈ values :=
  (List.mem_filter.1 (List.mem_of_head? h)).1

/-- A permutation of values has a first one where they have one. -/
theorem exists_head_of_perm (hperm : others.Perm values) (hw : present others ≠ []) :
    ∃ v, (present values).head? = some v := by
  have hpresent : (present others).Perm (present values) := hperm.filter _
  cases hvalues : present values with
  | nil =>
    rw [hvalues] at hpresent
    exact absurd hpresent.eq_nil hw
  | cons v vs => exact ⟨v, rfl⟩

variable {sorted sorted' : List Value} {least greatest least' greatest' : Value}

/-- **Where all values are numbers** the least one is the same as the first of the sorted values and
the greatest one the same as the last. -/
theorem Extremes.of_numbers (h : Extremes values sorted least greatest)
    (hnumbers : ∀ v ∈ values, v.isNaN = false) :
    (∀ w, (present sorted).head? = some w → least.Same w) ∧
      ∀ w, (present sorted).getLast? = some w → greatest.Same w := by
  have hmeet {w : Value} (hmem : w ∈ present sorted) :
      ∃ v, (present values).head? = some v ∧ v.Meet w := by
    obtain ⟨v, hv⟩ := exists_head_of_perm h.perm (List.ne_nil_of_mem hmem)
    have hw : w ∈ values := h.perm.mem_iff.1 (List.mem_filter.1 hmem).1
    exact ⟨v, hv, .inr ⟨hnumbers v (mem_of_head_present hv), hnumbers w hw⟩⟩
  constructor
  · intro w hw
    obtain ⟨v, hv, hvw⟩ := hmeet (List.mem_of_head? hw)
    exact (h.first v w hv hw).2 hvw
  · intro w hw
    obtain ⟨v, hv, hvw⟩ := hmeet (List.mem_of_getLast? hw)
    exact (h.last v w hv hw).2 hvw

/-- **The same values in another order** have the same least and greatest one exactly where the
first of them meet, and so where all are numbers. -/
theorem Extremes.same_of_perm (hvalues : ∀ v ∈ values, v.Among (· = type))
    (hperm : others.Perm values) (h : Extremes values sorted least greatest)
    (h' : Extremes others sorted' least' greatest') :
    (∀ v w, (present values).head? = some v → (present others).head? = some w →
      (least.Same least' ↔ v.Meet w) ∧ (greatest.Same greatest' ↔ v.Meet w)) ∧
      ((∀ v ∈ values, v.isNaN = false) → least.Same least' ∧ greatest.Same greatest') := by
  have hsame (v w : Value) (hv : (present values).head? = some v)
      (hw : (present others).head? = some w) :
      (least.Same least' ↔ v.Meet w) ∧ (greatest.Same greatest' ↔ v.Meet w) :=
    ⟨h.bestLeast.same_iff (by decide) hvalues hperm h'.bestLeast hv hw,
      h.bestGreatest.same_iff (by decide) hvalues hperm h'.bestGreatest hv hw⟩
  refine ⟨hsame, fun hnumbers => ?_⟩
  by_cases hnone : present others = []
  · have hnone' : present values = [] := by
      have hpresent : (present others).Perm (present values) := hperm.filter _
      rw [hnone] at hpresent
      exact hpresent.symm.eq_nil
    refine ⟨.inl ?_, .inl ?_⟩
    · rw [h.bestLeast.none hnone', h'.bestLeast.none hnone]
    · rw [h.bestGreatest.none hnone', h'.bestGreatest.none hnone]
  · obtain ⟨v, hv⟩ := exists_head_of_perm hperm hnone
    obtain ⟨w, hw⟩ := exists_head_of_perm hperm.symm (List.ne_nil_of_mem (List.mem_of_head? hv))
    have hvw : v.Meet w := .inr ⟨hnumbers v (mem_of_head_present hv),
      hnumbers w (hperm.mem_iff.1 (mem_of_head_present hw))⟩
    exact ⟨(hsame v w hv hw).1.2 hvw, (hsame v w hv hw).2.2 hvw⟩

end Aggregate
end MiniSql
