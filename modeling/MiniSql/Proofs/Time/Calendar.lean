/-
# Dates and clocks

The date of a day tells the day (`dayOf_dateOf`). Its year is guessed from the average length of a
year and put right by one; it is the year that has begun by then and whose successor has not
(`daysBefore_yearOf`). Month and day are what is left when whole months are counted off
(`monthAndDay_spec`).

What a clock of universal time shows at an instant tells the instant in the same way, before 1970
too, since days and seconds are divided downwards. This holds for the instants that are `Genuine`,
whose leap seconds stand at the end of a minute, and for no others (`Instant.readBack_eq_self_iff`).
Moments and the clock give no others.

| instant | shown as | read back as |
| --- | --- | --- |
| in an ordinary second | that second | itself |
| in the leap second of a minute's end | second 60 | itself |
| in a leap second inside a minute | the second behind it | that second |
-/

import MiniSql.Time.Clock

namespace MiniSql
namespace Time

-- A sum begins with the numeral here too.
attribute [local instance (high)] Zero.ofOfNat0

/-! ## Years -/

/-- Every fourth year is a leap year, but of the full centuries only every fourth. -/
theorem isLeap_iff (year : Int) :
    isLeap year = true ↔ year % 4 = 0 ∧ (year % 100 ≠ 0 ∨ year % 400 = 0) := by
  simp [isLeap]

/-- A year has 365 days, and a leap year has one more. -/
theorem daysBefore_succ (year : Int) :
    daysBefore (year + 1) = daysBefore year + if isLeap year then 366 else 365 := by
  unfold daysBefore
  split <;> rename_i h <;> rw [isLeap_iff] at h <;> omega

/-- **The year of a day** has begun by then, and the next one has not. -/
theorem daysBefore_yearOf (n : Int) :
    daysBefore (yearOf n) ≤ n ∧ n < daysBefore (yearOf n + 1) := by
  unfold yearOf
  dsimp only
  split
  · unfold daysBefore at *
    omega
  · split
    · unfold daysBefore at *
      omega
    · omega

/-- A leap year has one day more. -/
theorem sum_monthLengths (year : Int) :
    (monthLengths year).sum = if isLeap year then 366 else 365 := by
  unfold monthLengths
  split <;> rfl

/-- The day of the year is a day of one of its months. -/
theorem toNat_lt_sum_monthLengths (n : Int) :
    (n - daysBefore (yearOf n)).toNat < (monthLengths (yearOf n)).sum := by
  obtain ⟨hle, hlt⟩ := daysBefore_yearOf n
  rw [daysBefore_succ] at hlt
  rw [sum_monthLengths]
  split <;> simp_all <;> omega

/-! ## Months -/

/-- Counting off whole months leaves a day of the month that is then ahead. -/
theorem monthAndDay_spec (month : Nat) {n : Nat} {lengths : List Nat} (h : n < lengths.sum) :
    ∃ k day length, monthAndDay month n lengths = (month + k, day) ∧ lengths[k]? = some length ∧
      1 ≤ day ∧ day ≤ length ∧ (lengths.take k).sum + day = n + 1 := by
  induction lengths generalizing month n with
  | nil => cases h
  | cons length lengths ih =>
    by_cases hn : n < length
    · exact ⟨0, n + 1, length, by simp [monthAndDay, hn], rfl, by omega, by omega, by simp⟩
    · rw [List.sum_cons] at h
      obtain ⟨k, day, length', hread, hlength, hpos, hle, hsum⟩ :=
        ih (month + 1) (n := n - length) (by omega)
      refine ⟨k + 1, day, length', ?_, hlength, hpos, hle, ?_⟩
      · rw [monthAndDay, if_neg hn, hread, Nat.add_assoc, Nat.add_comm 1 k]
      · rw [List.take_succ_cons, List.sum_cons]
        omega

/-! ## Dates -/

/-- The months before a date and its day make up the days of the year so far. -/
theorem dateOf_spec (day : Int) : ∃ k length,
    (dateOf day).month = k + 1 ∧ k < 12 ∧ (monthLengths (dateOf day).year)[k]? = some length ∧
      1 ≤ (dateOf day).day ∧ (dateOf day).day ≤ length ∧
      daysBefore (dateOf day).year + ((monthLengths (dateOf day).year).take k).sum +
        (dateOf day).day = day + daysBeforeEpoch + 1 := by
  obtain ⟨hle, -⟩ := daysBefore_yearOf (day + daysBeforeEpoch)
  obtain ⟨k, d, length, hread, hlength, hpos, hday, hsum⟩ :=
    monthAndDay_spec 1 (toNat_lt_sum_monthLengths (day + daysBeforeEpoch))
  have hk : k < 12 := (List.getElem?_eq_some_iff.1 hlength).1
  have hdate : dateOf day = ⟨yearOf (day + daysBeforeEpoch), 1 + k, d⟩ := by
    simp only [dateOf, hread]
  rw [hdate]
  exact ⟨k, length, Nat.add_comm 1 k, hk, hlength, hpos, hday, by dsimp only; omega⟩

/-- **The date of a day tells the day.** -/
theorem dayOf_dateOf (day : Int) : (dateOf day).dayOf = day := by
  obtain ⟨k, length, hmonth, -, -, -, -, hsum⟩ := dateOf_spec day
  unfold Date.dayOf
  rw [hmonth, Nat.add_sub_cancel]
  omega

/-- A second has a billion nanoseconds, and the last one of a minute may be followed by a leap second
of as many. Instants of this kind are named by texts, and the clock hands them out. -/
def Instant.Genuine (t : Instant) : Prop := t.nanos < nanosPerSecond ∨ t.seconds % 60 = 59

instance : DecidablePred Instant.Genuine := fun _ => inferInstanceAs (Decidable (_ ∨ _))

namespace Instant

variable {t : Instant}

/-- A clock shows an ordinary second, or a leap second as the one behind it. -/
theorem moment_cases (t : Instant) :
    t.moment.hour ≤ 23 ∧ t.moment.minute ≤ 59 ∧
      (t.moment.second ≤ 59 ∧ t.nanos.val = t.moment.nanos ∧
          t.seconds % secondsPerDay =
            (t.moment.hour * 3600 + t.moment.minute * 60 + t.moment.second : Nat) ∨
        1 ≤ t.moment.second ∧ t.moment.second ≤ 60 ∧
          t.nanos.val = nanosPerSecond + t.moment.nanos ∧
          t.seconds % secondsPerDay + 1 =
            (t.moment.hour * 3600 + t.moment.minute * 60 + t.moment.second : Nat)) := by
  unfold moment secondsPerDay
  dsimp only
  by_cases hleap : nanosPerSecond ≤ t.nanos
  · simp only [hleap, if_true, dif_pos]
    exact ⟨by omega, by omega, .inr ⟨by omega, by omega, by omega, by omega⟩⟩
  · simp only [hleap, if_false, dif_neg, not_false_eq_true]
    exact ⟨by omega, by omega, .inl ⟨by omega, trivial, by omega⟩⟩

/-- **What a clock of universal time shows tells the instant,** if it is genuine. -/
theorem readBack_of_genuine (h : t.Genuine) : t.readBack = t := by
  have hday : t.moment.date.dayOf = t.seconds / secondsPerDay := dayOf_dateOf _
  have hsplit := Int.ediv_mul_add_emod t.seconds secondsPerDay
  unfold Genuine at h
  unfold readBack Moment.instant
  obtain ⟨-, -, ⟨hsecond, hnanos, hseconds⟩ | ⟨hpos, hsecond, hnanos, hseconds⟩⟩ :=
    moment_cases t
  · have hleap : (t.moment.second == 60) = false := by simpa using by omega
    simp only [hleap, hday, Bool.false_eq_true, if_false]
    ext
    · dsimp only
      omega
    · exact hnanos.symm
  · have hlast : t.moment.second = 60 := by
      unfold secondsPerDay at hseconds
      omega
    have hleap : (t.moment.second == 60) = true := by simpa using hlast
    simp only [hleap, hday, if_true]
    ext
    · dsimp only
      omega
    · exact hnanos.symm

/-- A leap second inside a minute is read as the second behind it. -/
theorem readBack_of_not_genuine (h : ¬t.Genuine) :
    t.readBack.seconds = t.seconds + 1 ∧ t.readBack.nanos.val + nanosPerSecond = t.nanos := by
  have hday : t.moment.date.dayOf = t.seconds / secondsPerDay := dayOf_dateOf _
  have hsplit := Int.ediv_mul_add_emod t.seconds secondsPerDay
  unfold Genuine at h
  unfold readBack Moment.instant
  obtain ⟨-, -, ⟨hsecond, hnanos, hseconds⟩ | ⟨-, hsecond, hnanos, hseconds⟩⟩ := moment_cases t
  · omega
  · have hinside : t.moment.second ≠ 60 := by
      unfold secondsPerDay at hseconds
      omega
    have hleap : (t.moment.second == 60) = false := by simpa using hinside
    simp only [hleap, hday, Bool.false_eq_true, if_false]
    omega

/-- What is read is genuine. -/
theorem genuine_readBack (t : Instant) : t.readBack.Genuine := by
  by_cases h : t.Genuine
  · exact (readBack_of_genuine h).symm ▸ h
  · obtain ⟨-, hnanos⟩ := readBack_of_not_genuine h
    exact .inl (by omega)

/-- An instant is read back as itself exactly if it is genuine. -/
theorem readBack_eq_self_iff : t.readBack = t ↔ t.Genuine :=
  ⟨fun h => h ▸ t.genuine_readBack, readBack_of_genuine⟩

/-- A clock shows the same at the instant that is read. -/
theorem moment_readBack (t : Instant) : t.readBack.moment = t.moment := by
  by_cases h : t.Genuine
  · rw [readBack_of_genuine h]
  · obtain ⟨hseconds, hnanos⟩ := readBack_of_not_genuine h
    unfold Genuine at h
    have hlt := t.nanos.isLt
    have hordinary : ¬nanosPerSecond ≤ t.readBack.nanos := by omega
    have hleap : nanosPerSecond ≤ t.nanos := by omega
    have hday : (t.seconds + 1) / 86400 = t.seconds / 86400 := by omega
    unfold moment secondsPerDay
    simp only [hordinary, hleap, hseconds, hday, if_true, if_false, dif_pos, dif_neg,
      not_false_eq_true]
    exact Moment.ext rfl (by dsimp only; omega) (by dsimp only; omega) (by dsimp only; omega)
      (Fin.ext (by dsimp only; omega))

end Instant

/-- A moment that exists is one of a genuine instant, by any clock that is whole minutes ahead. -/
theorem Moment.genuine_instant (m : Moment) {ahead : Int} (hahead : ahead % 60 = 0) :
    (m.instant ahead).Genuine := by
  unfold Moment.instant Instant.Genuine secondsPerDay
  by_cases hleap : m.second = 60
  · simp only [hleap, beq_self_eq_true, if_true]
    exact .inr (by omega)
  · have hordinary : (m.second == 60) = false := by simpa using hleap
    simp only [hordinary, Bool.false_eq_true, if_false]
    exact .inl m.nanos.isLt

/-- The clock hands out genuine instants. -/
theorem Clock.genuine_instantOf (micros : Int) : (Clock.instantOf micros).Genuine := by
  unfold Clock.instantOf Instant.Genuine nanosPerSecond
  dsimp only
  omega

end Time
end MiniSql
