import MockTree.Proofs.Dates
import MockTree.Proofs.Literals

/-! Moments moved by whole amounts of a unit. An amount up to 2^53 is not rounded, so it comes to exactly so many
months or microseconds, and the moment that is moved to is the one so much later by the calendar. -/
namespace MockTree.Calendar
open Text Decimal

/-! ### What whole amounts come to -/

/-- What so many units come to. -/
def TimeUnit.spanOf (n : ℤ) : TimeUnit → Span
  | .year => .months (n * 12)
  | .quarter => .months (n * 3)
  | .month => .months n
  | .week => .micros (n * 604800000000)
  | .day => .micros (n * 86400000000)
  | .hour => .micros (n * 3600000000)
  | .minute => .micros (n * 60000000)
  | .second => .micros (n * 1000000)
  | .millisecond => .micros (n * 1000)

/-- A whole quotient is not rounded. -/
theorem roundQuotient_mul (k : ℤ) {d : ℕ} (hd : d ≠ 0) : roundQuotient (k * d) d = k := by
  have hdiv : Double.roundDiv (k * d).natAbs d = k.natAbs := by
    have habs : (k * d).natAbs = k.natAbs * d := by rw [Int.natAbs_mul, Int.natAbs_natCast]
    have hpos : 0 < d := Nat.pos_of_ne_zero hd
    rw [habs, Double.roundDiv, Nat.mul_div_cancel _ hpos, Nat.mul_mod_left]
    simp [hd.symm]
  have hneg : k * d < 0 ↔ k < 0 := by
    have hpos : (0 : ℤ) < d := by exact_mod_cast Nat.pos_of_ne_zero hd
    rw [mul_neg_iff]
    omega
  rw [roundQuotient, hdiv]
  simp only [hneg]
  split <;> omega

section
variable {x : Double} {n : ℤ} (h : x.Is n)
include h

theorem monthSpan_of_is (perUnit : ℤ) : monthSpan x perUnit = .months (n * perUnit) := by
  cases x with
  | nan =>
    obtain ⟨d, -, hx⟩ := h
    cases hx
  | infinite s =>
    obtain ⟨d, -, hx⟩ := h
    cases hx
  | finite s m e => simp only [monthSpan, h.isWhole, if_true, h.truncate?, Option.map_some, Option.getD_some]

/-- Nothing is left over of a whole amount, so nothing is rounded. -/
theorem microsOf?_of_is {unit : ℤ} (hunit : unit.natAbs ≤ 2 ^ 53) : microsOf? x unit = some (n * unit) := by
  obtain ⟨d, hd, hx⟩ := h
  have hcut : (n * (d : ℤ)).tdiv d = n := Int.mul_tdiv_cancel n (by exact_mod_cast hd)
  have hrest : Double.ofSigned false (n * d - n * d) d = .finite false 0 0 := by
    rw [Int.sub_self]
    rfl
  have hproduct : ((Double.finite false 0 0).mul (.ofInt unit)).Is (0 * unit) :=
    (Double.is_zero false).mul (Double.is_ofInt hunit) (by simp)
  obtain ⟨q, hq, hp⟩ := hproduct
  unfold microsOf?
  simp only [hx, Option.bind_eq_bind, Option.bind_some, hcut, hrest, hp, Int.zero_mul, Int.add_zero,
    roundQuotient_mul _ hq]
  rfl

theorem exactSpan_of_is {unit : ℤ} (hunit : unit.natAbs ≤ 2 ^ 53) : exactSpan x unit = .micros (n * unit) := by
  rw [exactSpan, microsOf?_of_is h hunit]

theorem span_of_is {u : TimeUnit} (hms : u = .millisecond → n.natAbs ≤ 9 * 10 ^ 12) : span x u = u.spanOf n := by
  cases u with
  | year => exact monthSpan_of_is h 12
  | quarter =>
    rw [span, if_pos h.isWhole, monthSpan_of_is h]
    rfl
  | month =>
    rw [span, monthSpan_of_is h, Int.mul_one]
    rfl
  | week =>
    rw [span, if_pos h.isWhole, exactSpan_of_is h (by norm_num)]
    rfl
  | day | hour | minute | second => exact exactSpan_of_is h (by norm_num)
  | millisecond =>
    have hthousand : (Double.ofInt 1000).Is 1000 := Double.is_ofInt (by norm_num)
    have hproduct : (n * 1000).natAbs ≤ 2 ^ 53 := by
      have := hms rfl
      omega
    rw [span, exactSpan_of_is (h.mul hthousand hproduct) (by norm_num), Int.mul_one]
    rfl

end

/-! ### Moments that are moved to -/

/-- The number of a date's month, with twelve for each year. -/
def Date.monthNumber (d : Date) : ℤ := d.year * 12 + d.month

/-- What a span leads to: after months, the same time of day in the month so much later, on the same day or on the
last day of a month that lacks it; after microseconds, the instant so much later. -/
def Span.Leads (t u : Moment) : Span → Prop
  | .nothing | .endless => False
  | .months n =>
    u.date.monthNumber = t.date.monthNumber + n ∧
      u.date.day = min t.date.day (daysInMonth u.date.year u.date.month) ∧
      u.hour = t.hour ∧ u.minute = t.minute ∧ u.second = t.second ∧ u.micro = t.micro
  | .micros us => u.epochMicros = t.epochMicros + us

/-- A moment of the years 1 to 9999 that a span leads to on the same clock. -/
structure Later (t : Moment) (a : Span) (u : Moment) : Prop where
  valid : u.IsValid
  offset : u.offset = t.offset
  leads : a.Leads t u

theorem later_micros_iff {t u : Moment} {us : ℤ} :
    Later t (.micros us) u ↔ Moment.ofLocalMicros? t.offset (t.localMicros + us) = some u := by
  rw [ofLocalMicros?_eq_some_iff]
  constructor
  · rintro ⟨hvalid, hoffset, hleads⟩
    refine ⟨hvalid, hoffset, ?_⟩
    simp only [Span.Leads, Moment.epochMicros, hoffset] at hleads
    omega
  · rintro ⟨hvalid, hoffset, hlocal⟩
    refine ⟨hvalid, hoffset, ?_⟩
    simp only [Span.Leads, Moment.epochMicros, hoffset]
    omega

theorem month_monthsLater (t : Moment) (n : ℤ) :
    1 ≤ (monthsLater t n).date.month ∧ (monthsLater t n).date.month ≤ 12 := by
  simp only [monthsLater]
  rw [Int.fmod_eq_emod_of_nonneg _ (by omega)]
  omega

/-- The date on the month so many months later is in the year and the month counted to. -/
theorem monthNumber_eq_iff {t : Moment} {n : ℤ} {d : Date} (hdate : t.date.isValid = true)
    (hd : 1 ≤ d.month ∧ d.month ≤ 12) :
    d.monthNumber = t.date.monthNumber + n ↔
      (d.year : ℤ) = yearAfter t n ∧ d.month = (monthsLater t n).date.month := by
  have hmonth := (Date.isValid_iff.1 hdate).2.1
  simp only [Date.monthNumber, yearAfter, monthsLater]
  rw [Int.fdiv_eq_ediv_of_nonneg _ (by omega), Int.fmod_eq_emod_of_nonneg _ (by omega)]
  omega

theorem isValid_monthsLater {t : Moment} {n : ℤ} (ht : t.IsValid)
    (hyear : 1 ≤ yearAfter t n ∧ yearAfter t n ≤ 9999) : (monthsLater t n).IsValid := by
  refine ⟨?_, ht.hour, ht.minute, ht.second, ht.micro⟩
  have hday := (Date.isValid_iff.1 ht.date).2.2.1
  rw [Date.isValid_iff]
  refine ⟨?_, month_monthsLater t n, ?_, Nat.min_le_right _ _⟩
  · simp only [monthsLater]
    omega
  · exact Nat.le_min.2 ⟨hday, one_le_daysInMonth _ _⟩

theorem later_months_iff {t u : Moment} {n : ℤ} (ht : t.IsValid) :
    Later t (.months n) u ↔ (1 ≤ yearAfter t n ∧ yearAfter t n ≤ 9999) ∧ u = monthsLater t n := by
  constructor
  · rintro ⟨hvalid, hoffset, hnumber, hday, hhour, hminute, hsecond, hmicro⟩
    obtain ⟨hyear, hmonth, -⟩ := Date.isValid_iff.1 hvalid.date
    obtain ⟨hy, hm⟩ := (monthNumber_eq_iff ht.date hmonth).1 hnumber
    refine ⟨by omega, ?_⟩
    have hy' : u.date.year = (yearAfter t n).toNat := by omega
    obtain ⟨⟨y, m, d⟩, hour, minute, second, micro, offset⟩ := u
    simp only at hoffset hday hhour hminute hsecond hmicro hm hy'
    subst hoffset hday hhour hminute hsecond hmicro hm hy'
    rfl
  · rintro ⟨hyear, rfl⟩
    refine ⟨isValid_monthsLater ht hyear, rfl, ?_, rfl, rfl, rfl, rfl, rfl⟩
    rw [monthNumber_eq_iff ht.date (month_monthsLater t n)]
    refine ⟨?_, rfl⟩
    simp only [monthsLater]
    omega

/-- A moment is moved to just the one that the span leads to, if universal time has this instant too. -/
theorem shift_eq_moved_iff {t : Moment} (ht : t.IsValid) (a : Span) (u : Moment) :
    a.shift t = .moved u ↔ Later t a u ∧ OnUniversalClock u.offset u.localMicros := by
  have hclock (v : Moment) : onUniversalClock v = .moved u ↔ v = u ∧ OnUniversalClock u.offset u.localMicros := by
    rcases onUniversalClock_spec v with ⟨hv, he⟩ | ⟨hv, he⟩
    · rw [he, ShiftResult.moved.injEq]
      exact ⟨fun h => ⟨h, h ▸ hv⟩, And.left⟩
    · rw [he]
      simp only [reduceCtorEq, false_iff]
      rintro ⟨rfl, hu⟩
      exact hv hu
  cases a with
  | nothing | endless =>
    simp only [Span.shift, reduceCtorEq, false_iff]
    exact fun h => h.1.leads
  | months n =>
    rw [Span.shift, shiftMonths_eq, later_months_iff ht]
    split
    · simp only [reduceCtorEq, false_iff]
      omega
    split
    · simp only [reduceCtorEq, false_iff]
      omega
    · rw [hclock]
      constructor
      · rintro ⟨rfl, hu⟩
        exact ⟨⟨by omega, rfl⟩, hu⟩
      · rintro ⟨⟨-, rfl⟩, hu⟩
        exact ⟨rfl, hu⟩
  | micros us =>
    rw [Span.shift, shiftMicros, later_micros_iff]
    split
    · next v hv => rw [hclock, hv, Option.some.injEq]
    · next hnone => simp [hnone]

/-! ### Offsets -/

/-- Every name of a unit stands for it. -/
theorem unit?_of_mem {name : String} {unit : TimeUnit} (h : (name, unit) ∈ unitNames) : unit? name = some unit := by
  have hall : ∀ p ∈ unitNames, unit? p.1 = some p.2 := by decide
  exact hall _ h

/-- An offset of a whole amount, up to 2^53 and for milliseconds up to 9·10^12, moves a moment to the one that is
exactly so many units later, if both clocks have it, and to no other. -/
theorem applyOffset_eq_moved_iff {t : Moment} (ht : t.IsValid) {offset : List Char} {l : Literal} {n : ℤ}
    {name : String} {unit : TimeUnit} (hwords : words offset = [l.text, name.toList]) (hvalue : l.value = n)
    (hname : (name, unit) ∈ unitNames) (hsize : n.natAbs ≤ 2 ^ 53)
    (hms : unit = .millisecond → n.natAbs ≤ 9 * 10 ^ 12) (u : Moment) :
    applyOffset t offset = .moved u ↔
      Later t (unit.spanOf n) u ∧ OnUniversalClock u.offset u.localMicros := by
  have hspells : Spells offset l.nearest unit := by
    refine ⟨l.text, name.toList, hwords, l.read?_text, ?_⟩
    rw [String.ofList_toList]
    exact unit?_of_mem hname
  have hspan : span l.nearest unit = unit.spanOf n :=
    span_of_is (Literal.is_nearest_of_value hvalue hsize) hms
  rw [applyOffset_of_spells hspells, hspan]
  exact shift_eq_moved_iff ht _ u

/-- Thirteen months from the end of a January lead to the end of a February. -/
theorem applyOffset_february :
    applyOffset ⟨⟨2024, 1, 31⟩, 10, 30, 0, 0, some 3600⟩ " +13  M".toList =
      .moved ⟨⟨2025, 2, 28⟩, 10, 30, 0, 0, some 3600⟩ := by
  have hvalid : Moment.IsValid ⟨⟨2024, 1, 31⟩, 10, 30, 0, 0, some 3600⟩ := by constructor <;> decide
  let l : Literal := ⟨.plus, ['1', '3'], none, by simp, by simp, by simp⟩
  have hwords : words " +13  M".toList = [l.text, "M".toList] := by decide
  have hvalue : l.value = (13 : ℤ) := by decide +kernel
  have hname : ("M", TimeUnit.month) ∈ unitNames := by decide
  apply (applyOffset_eq_moved_iff hvalid hwords hvalue hname (by decide) (by decide) _).2
  refine ⟨⟨by constructor <;> decide, rfl, by decide, by decide, rfl, rfl, rfl, rfl⟩, ?_⟩
  rintro s hs -
  cases hs
  exact ⟨by decide, by decide⟩

/-- The last evening of the calendar on a clock behind universal time, which is in the year after by then. -/
theorem applyOffset_last_evening :
    let t : Moment := ⟨⟨2024, 12, 31⟩, 20, 30, 0, 0, some (-18000)⟩
    let u : Moment := ⟨⟨9999, 12, 31⟩, 20, 30, 0, 0, some (-18000)⟩
    t.IsValid ∧ Later t (TimeUnit.year.spanOf 7975) u ∧ applyOffset t "7975 years".toList ≠ .moved u := by
  intro t u
  refine ⟨by constructor <;> decide, ?_, ?_⟩
  · exact ⟨by constructor <;> decide, rfl, by decide, by decide, rfl, rfl, rfl, rfl⟩
  · have h : applyOffset t "7975 years".toList = .tooFar := by decide +kernel
    rw [h]
    exact fun h => by cases h

end MockTree.Calendar
