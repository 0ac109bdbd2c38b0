import Mathlib.Order.Monotone.Basic
import MockTree.Proofs.Offsets

/-! Dates and moments that there are. Every date of the years 1 to 9999 has a number of its own in the count of
days, so every moment of these years is the only one that a clock shows at its time. -/
namespace MockTree.Calendar

/-! ### Years and months -/

def daysInYear (year : Nat) : Nat := if isLeap year then 366 else 365

theorem isLeap_iff {year : Nat} :
    isLeap year = true ↔ year % 4 = 0 ∧ (year % 100 ≠ 0 ∨ year % 400 = 0) := by
  simp only [isLeap, Bool.and_eq_true, Bool.or_eq_true, beq_iff_eq, bne_iff_ne]

/-- The days before a year, with the leap years counted. -/
theorem daysBeforeYear_eq (y : Nat) : daysBeforeYear (y + 1) + y / 100 = y * 365 + y / 4 + y / 400 := by
  simp only [daysBeforeYear, Nat.add_sub_cancel]
  omega

theorem daysBeforeYear_succ {year : Nat} (h : 1 ≤ year) :
    daysBeforeYear (year + 1) = daysBeforeYear year + daysInYear year := by
  obtain ⟨y, rfl⟩ := Nat.exists_eq_add_of_le' h
  have hnext := daysBeforeYear_eq (y + 1)
  have hyear := daysBeforeYear_eq y
  have h4 : (y + 1) / 4 = y / 4 + if (y + 1) % 4 = 0 then 1 else 0 := by split <;> omega
  have h100 : (y + 1) / 100 = y / 100 + if (y + 1) % 100 = 0 then 1 else 0 := by split <;> omega
  have h400 : (y + 1) / 400 = y / 400 + if (y + 1) % 400 = 0 then 1 else 0 := by split <;> omega
  rw [h4, h100, h400] at hnext
  simp only [daysInYear, isLeap_iff]
  -- A year that 400 divides is divided by 100, and one that 100 divides by 4.
  split_ifs at hnext ⊢ <;> omega

theorem daysBeforeYear_mono : Monotone daysBeforeYear := by
  apply monotone_nat_of_le_succ
  intro year
  rcases Nat.eq_zero_or_pos year with rfl | hpos
  · rfl
  · rw [daysBeforeYear_succ hpos]
    exact Nat.le_add_right _ _

/-- A month ends before a later one of its year begins. -/
theorem daysBeforeMonth_lt (year : Nat) {m m' : Nat} (h : 1 ≤ m) (hlt : m < m') (h' : m' ≤ 12) :
    daysBeforeMonth year m + daysInMonth year m ≤ daysBeforeMonth year m' := by
  induction hlt with
  | refl => rw [← daysBeforeMonth_succ year h (by omega)]
  | @step m' hlt ih =>
    have hm : 1 ≤ m' := Nat.le_trans h (Nat.le_of_lt hlt)
    rw [daysBeforeMonth_succ year hm (by omega)]
    have := ih (by omega)
    omega

theorem daysBeforeMonth_december (year : Nat) : daysBeforeMonth year 12 + 31 = daysInYear year := by
  cases h : isLeap year <;> simp [daysBeforeMonth, monthStarts, daysInYear, h]

/-- The months of a year are no longer than it. -/
theorem daysBeforeMonth_add_le (year : Nat) {month : Nat} (h : 1 ≤ month) (h' : month ≤ 12) :
    daysBeforeMonth year month + daysInMonth year month ≤ daysInYear year := by
  rw [← daysBeforeMonth_december]
  rcases Nat.lt_or_eq_of_le h' with hlt | rfl
  · have := daysBeforeMonth_lt year h hlt le_rfl
    omega
  · rfl

theorem one_le_daysInMonth (year month : Nat) : 1 ≤ daysInMonth year month := by
  unfold daysInMonth
  split
  · split <;> omega
  · split <;> omega

/-! ### Dates -/

namespace Date

theorem isValid_iff {d : Date} :
    d.isValid = true ↔ (1 ≤ d.year ∧ d.year ≤ 9999) ∧ (1 ≤ d.month ∧ d.month ≤ 12) ∧
      1 ≤ d.day ∧ d.day ≤ daysInMonth d.year d.month := by
  simp only [isValid, Bool.and_eq_true, decide_eq_true_eq, and_assoc]

section
variable {d e : Date} (hd : d.isValid = true) (he : e.isValid = true)
include hd

theorem daysBeforeYear_lt_ordinal : daysBeforeYear d.year < d.ordinal := by
  have := (isValid_iff.1 hd).2.2.1
  unfold ordinal
  omega

theorem ordinal_le_daysBeforeYear : d.ordinal ≤ daysBeforeYear (d.year + 1) := by
  obtain ⟨⟨hyear, -⟩, ⟨hmonth, hmonth'⟩, -, hday⟩ := isValid_iff.1 hd
  have := daysBeforeMonth_add_le d.year hmonth hmonth'
  rw [daysBeforeYear_succ hyear, ordinal]
  omega

theorem ordinal_le_maxOrdinal : d.ordinal ≤ maxOrdinal :=
  (ordinal_le_daysBeforeYear hd).trans (daysBeforeYear_mono (Nat.succ_le_succ (isValid_iff.1 hd).1.2))

include he

theorem ordinal_lt_of_year_lt (h : d.year < e.year) : d.ordinal < e.ordinal :=
  calc d.ordinal ≤ daysBeforeYear (d.year + 1) := ordinal_le_daysBeforeYear hd
    _ ≤ daysBeforeYear e.year := daysBeforeYear_mono h
    _ < e.ordinal := daysBeforeYear_lt_ordinal he

theorem ordinal_lt_of_month_lt (hyear : d.year = e.year) (h : d.month < e.month) : d.ordinal < e.ordinal := by
  obtain ⟨-, ⟨hmonth, -⟩, -, hday⟩ := isValid_iff.1 hd
  obtain ⟨-, ⟨-, hmonth'⟩, hday', -⟩ := isValid_iff.1 he
  have := daysBeforeMonth_lt d.year hmonth h hmonth'
  rw [ordinal, ordinal, ← hyear]
  omega

/-- No two dates have the same number. -/
theorem ordinal_injective (h : d.ordinal = e.ordinal) : d = e := by
  have hyear : d.year = e.year := by
    rcases Nat.lt_trichotomy d.year e.year with hlt | heq | hlt
    · exact absurd h (ordinal_lt_of_year_lt hd he hlt).ne
    · exact heq
    · exact absurd h (ordinal_lt_of_year_lt he hd hlt).ne'
  have hmonth : d.month = e.month := by
    rcases Nat.lt_trichotomy d.month e.month with hlt | heq | hlt
    · exact absurd h (ordinal_lt_of_month_lt hd he hyear hlt).ne
    · exact heq
    · exact absurd h (ordinal_lt_of_month_lt he hd hyear.symm hlt).ne'
  have hday : d.day = e.day := by
    rw [ordinal, ordinal, hyear, hmonth] at h
    omega
  cases d
  cases e
  simp_all

end

/-- The day of a year that has it is in a month. -/
theorem monthDay_valid (year : Nat) {fuel month n : Nat} (h : 1 ≤ month) (h' : month + fuel = 12)
    (hn : daysBeforeMonth year month + n < daysInYear year) :
    (1 ≤ (monthDay year fuel month n).1 ∧ (monthDay year fuel month n).1 ≤ 12) ∧
      1 ≤ (monthDay year fuel month n).2 ∧
      (monthDay year fuel month n).2 ≤ daysInMonth year (monthDay year fuel month n).1 := by
  induction fuel generalizing month n with
  | zero =>
    obtain rfl : month = 12 := by omega
    rw [← daysBeforeMonth_december] at hn
    have hlast : daysInMonth year 12 = 31 := rfl
    simp only [monthDay, hlast]
    omega
  | succ fuel ih =>
    rw [monthDay]
    split
    · simp only
      omega
    · next hlen =>
      apply ih (by omega) (by omega)
      rw [daysBeforeMonth_succ year h (by omega)]
      omega

/-- Every number from 1 on up to the last is that of a date. -/
theorem isValid_ofOrdinal {n : Nat} (h : 1 ≤ n) (h' : n ≤ maxOrdinal) : (ofOrdinal n).isValid = true := by
  rw [maxOrdinal] at h'
  rw [isValid_iff, ofOrdinal]
  simp only
  generalize ha : (n - 1) / 146097 = a
  generalize hb : (n - 1) % 146097 / 36524 = b
  generalize hc : (n - 1) % 146097 % 36524 / 1461 = c
  generalize hd : (n - 1) % 146097 % 36524 % 1461 / 365 = d
  generalize hr : (n - 1) % 146097 % 36524 % 1461 % 365 = r
  split
  · next hlast =>
    simp only [Bool.or_eq_true, beq_iff_eq] at hlast
    have hlength (year : Nat) : daysInMonth year 12 = 31 := rfl
    simp only [hlength]
    omega
  · next hlast =>
    simp only [Bool.or_eq_true, beq_iff_eq, not_or] at hlast
    refine ⟨by simp only; omega, ?_⟩
    apply monthDay_valid _ le_rfl rfl
    have hfirst (year : Nat) : daysBeforeMonth year 1 = 0 := by simp [daysBeforeMonth, monthStarts]
    rw [hfirst, daysInYear]
    split <;> omega

/-- A date is the one that its number counts to. -/
theorem ofOrdinal_ordinal {d : Date} (h : d.isValid = true) : ofOrdinal d.ordinal = d := by
  have hpos : 1 ≤ d.ordinal := Nat.one_le_of_lt (daysBeforeYear_lt_ordinal h)
  apply ordinal_injective (isValid_ofOrdinal hpos (ordinal_le_maxOrdinal h)) h
  exact ordinal_ofOrdinal hpos

end Date

/-! ### Moments -/

/-- A moment on a date that there is, at a time of day that there is. -/
structure Moment.IsValid (t : Moment) : Prop where
  date : t.date.isValid = true
  hour : t.hour < 24
  minute : t.minute < 60
  second : t.second < 60
  micro : t.micro < 1000000

/-- The moment that a clock shows at a time is the only one at this time. -/
theorem ofLocalMicros?_eq_some_iff {offset : Option Int} {us : Int} {u : Moment} :
    Moment.ofLocalMicros? offset us = some u ↔ u.IsValid ∧ u.offset = offset ∧ u.localMicros = us := by
  constructor
  · intro h
    obtain ⟨hlocal, hoffset⟩ := localMicros_of_ofLocalMicros? h
    refine ⟨?_, hoffset, hlocal⟩
    rw [Moment.ofLocalMicros?] at h
    simp only at h
    split at h
    · cases h
    · next hday =>
      simp only [Bool.or_eq_true, decide_eq_true_eq] at hday
      cases h
      have hmod := Int.fmod_nonneg_of_pos us (show 0 < 86400000000 by omega)
      have hlt := Int.fmod_lt_of_pos us (show 0 < 86400000000 by omega)
      constructor
      · exact Date.isValid_ofOrdinal (by omega) (by omega)
      all_goals
        simp only
        omega
  · rintro ⟨hu, rfl, rfl⟩
    have hpos : 1 ≤ u.date.ordinal := Nat.one_le_of_lt (Date.daysBeforeYear_lt_ordinal hu.date)
    have hmax := Date.ordinal_le_maxOrdinal hu.date
    have hhour := hu.hour
    have hminute := hu.minute
    have hsecond := hu.second
    have hmicro := hu.micro
    have hday : u.localMicros.fdiv 86400000000 = u.date.ordinal := by
      rw [Int.fdiv_eq_ediv_of_nonneg _ (by omega), Moment.localMicros]
      omega
    have hrest : (u.localMicros.fmod 86400000000).toNat =
        (u.hour * 3600 + u.minute * 60 + u.second) * 1000000 + u.micro := by
      rw [Int.fmod_eq_emod_of_nonneg _ (by omega), Moment.localMicros]
      omega
    obtain ⟨r, hr⟩ : ∃ r, u.hour * 3600 + u.minute * 60 + u.second = r := ⟨_, rfl⟩
    rw [Moment.ofLocalMicros?, hday, hrest, hr]
    simp only
    rw [if_neg (by simp; omega), Int.toNat_natCast, Date.ofOrdinal_ordinal hu.date]
    have hwhole : (r * 1000000 + u.micro) / 1000000 = r := by omega
    have hpart : (r * 1000000 + u.micro) % 1000000 = u.micro := by omega
    have hshown : r / 3600 = u.hour ∧ r / 60 % 60 = u.minute ∧ r % 60 = u.second := by omega
    rw [hwhole, hpart, hshown.1, hshown.2.1, hshown.2.2]

end MockTree.Calendar
