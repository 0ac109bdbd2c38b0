import MockTree.Calendar.Shift

/-! Moving a moment by an offset. An amount of a unit comes to a number of months, of microseconds, to
something endless or to nothing; what it comes to decides whether the moment moves, stays, or would leave the
years that clocks can show. -/
namespace MockTree.Calendar
open Text

/-! ### Days and dates -/

theorem daysBeforeMonth_succ (year : Nat) {month : Nat} (h : 1 ≤ month) (h' : month ≤ 11) :
    daysBeforeMonth year (month + 1) = daysBeforeMonth year month + daysInMonth year month := by
  obtain hm | hm | hm | hm | hm | hm | hm | hm | hm | hm | hm : month = 1 ∨ month = 2 ∨ month = 3 ∨
    month = 4 ∨ month = 5 ∨ month = 6 ∨ month = 7 ∨ month = 8 ∨ month = 9 ∨ month = 10 ∨ month = 11 := by omega
  all_goals
    subst hm
    cases hleap : isLeap year <;> simp [daysBeforeMonth, daysInMonth, monthStarts, hleap]

theorem monthDay_spec (year : Nat) {fuel month n : Nat} (h : 1 ≤ month) (h' : month + fuel ≤ 12) :
    daysBeforeMonth year (Date.monthDay year fuel month n).1 + (Date.monthDay year fuel month n).2 =
      daysBeforeMonth year month + n + 1 := by
  induction fuel generalizing month n with
  | zero => rfl
  | succ fuel ih =>
    rw [Date.monthDay]
    split
    · rfl
    · next hn =>
      rw [ih (by omega) (by omega), daysBeforeMonth_succ year h (by omega)]
      omega

/-- The days before a year, by its place in the cycles of 400, 100 and 4 years. -/
theorem daysBeforeYear_cycles {a b c d : Nat} (hb : b ≤ 3) (hc : c ≤ 24) (hd : d ≤ 3) :
    daysBeforeYear (a * 400 + b * 100 + c * 4 + d + 1) = a * 146097 + b * 36524 + c * 1461 + d * 365 := by
  simp only [daysBeforeYear, Nat.add_sub_cancel]
  omega

/-- The last day of a leap year that ends a cycle. -/
theorem ordinal_lastDay {year : Nat} (h : isLeap year = true) :
    (Date.mk year 12 31).ordinal = daysBeforeYear year + 366 := by
  simp [Date.ordinal, daysBeforeMonth, monthStarts, h]

theorem isLeap_last (a : Nat) : isLeap (a * 400 + 400) = true := by
  simp only [isLeap, Bool.and_eq_true, Bool.or_eq_true, beq_iff_eq, bne_iff_ne]
  omega

theorem isLeap_fourth {a b c : Nat} (hc : c < 24) :
    isLeap (a * 400 + b * 100 + c * 4 + 4) = true := by
  simp only [isLeap, Bool.and_eq_true, Bool.or_eq_true, beq_iff_eq, bne_iff_ne]
  omega

/-- The date of a number has this number. -/
theorem ordinal_ofOrdinal {n : Nat} (h : 1 ≤ n) : (Date.ofOrdinal n).ordinal = n := by
  rw [Date.ofOrdinal]
  simp only
  generalize ha : (n - 1) / 146097 = a
  generalize hb : (n - 1) % 146097 / 36524 = b
  generalize hc : (n - 1) % 146097 % 36524 / 1461 = c
  generalize hd : (n - 1) % 146097 % 36524 % 1461 / 365 = d
  generalize hr : (n - 1) % 146097 % 36524 % 1461 % 365 = r
  have hn : n = a * 146097 + b * 36524 + c * 1461 + d * 365 + r + 1 := by omega
  by_cases hb4 : b = 4
  · -- the last day of a cycle of 400 years
    obtain ⟨rfl, rfl, rfl⟩ : c = 0 ∧ d = 0 ∧ r = 0 := by omega
    subst hb4
    have hy : a * 400 + 4 * 100 + 0 * 4 + 0 + 1 - 1 = a * 400 + 400 := by omega
    rw [if_pos (by simp), hy, ordinal_lastDay (isLeap_last a)]
    have := daysBeforeYear_cycles (a := a) (b := 3) (c := 24) (d := 3) (by omega) (by omega) (by omega)
    rw [show a * 400 + 400 = a * 400 + 3 * 100 + 24 * 4 + 3 + 1 by omega, this]
    omega
  by_cases hd4 : d = 4
  · -- the last day of a cycle of four years
    obtain ⟨rfl, hc'⟩ : r = 0 ∧ c < 24 := by omega
    subst hd4
    have hy : a * 400 + b * 100 + c * 4 + 4 + 1 - 1 = a * 400 + b * 100 + c * 4 + 4 := by omega
    rw [if_pos (by simp), hy, ordinal_lastDay (isLeap_fourth hc')]
    have := daysBeforeYear_cycles (a := a) (b := b) (c := c) (d := 3) (by omega) (by omega) (by omega)
    rw [show a * 400 + b * 100 + c * 4 + 4 = a * 400 + b * 100 + c * 4 + 3 + 1 by omega, this]
    omega
  · rw [if_neg (by simp [hb4, hd4])]
    have hspec := monthDay_spec (a * 400 + b * 100 + c * 4 + d + 1) (n := r)
      (show 1 ≤ 1 by omega) (show 1 + 11 ≤ 12 by omega)
    have hfirst (year : Nat) : daysBeforeMonth year 1 = 0 := by simp [daysBeforeMonth, monthStarts]
    rw [hfirst] at hspec
    have hyear := daysBeforeYear_cycles (a := a) (b := b) (c := c) (d := d) (by omega) (by omega) (by omega)
    rw [Date.ordinal, hyear]
    simp only
    omega

/-! ### Clocks -/

/-- A time on a clock of the years 1 to 9999, in microseconds since the day numbered 0. -/
def InCalendar (us : Int) : Prop := 86400000000 ≤ us ∧ us < 315537984000000000

theorem inCalendar_iff {us : Int} :
    InCalendar us ↔ 1 ≤ us.fdiv 86400000000 ∧ us.fdiv 86400000000 ≤ Date.maxOrdinal := by
  have h := Int.emod_add_mul_ediv us 86400000000
  rw [Int.fdiv_eq_ediv_of_nonneg _ (by omega), InCalendar, Date.maxOrdinal]
  omega

theorem ofLocalMicros?_isSome {offset : Option Int} {us : Int} :
    (Moment.ofLocalMicros? offset us).isSome ↔ InCalendar us := by
  rw [Moment.ofLocalMicros?, inCalendar_iff]
  simp only
  split
  · next h => simp only [Bool.or_eq_true, decide_eq_true_eq] at h; simp; omega
  · next h => simp only [Bool.or_eq_true, decide_eq_true_eq] at h; simp; omega

/-- The moment of a time on a clock shows that time. -/
theorem localMicros_of_ofLocalMicros? {offset : Option Int} {us : Int} {t : Moment}
    (h : Moment.ofLocalMicros? offset us = some t) : t.localMicros = us ∧ t.offset = offset := by
  rw [Moment.ofLocalMicros?] at h
  simp only at h
  split at h
  · cases h
  next hday =>
  simp only [Bool.or_eq_true, decide_eq_true_eq] at hday
  cases h
  refine ⟨?_, rfl⟩
  rw [Moment.localMicros]
  simp only
  rw [ordinal_ofOrdinal (by omega)]
  rw [Int.fdiv_eq_ediv_of_nonneg _ (by omega), Int.fmod_eq_emod_of_nonneg _ (by omega)] at *
  omega

/-- The instant of a local time can be told on the clock of universal time too. -/
def OnUniversalClock (offset : Option Int) (us : Int) : Prop :=
  ∀ s, offset = some s → s ≠ 0 → InCalendar (us - s * 1000000)

theorem onUniversalClock_spec (t : Moment) :
    OnUniversalClock t.offset t.localMicros ∧ onUniversalClock t = .moved t ∨
      ¬ OnUniversalClock t.offset t.localMicros ∧ onUniversalClock t = .tooFar := by
  rw [onUniversalClock]
  cases ht : t.offset with
  | none => exact .inl ⟨by rintro s ⟨⟩, rfl⟩
  | some s =>
    simp only
    split
    · next h =>
      rw [Bool.or_eq_true, beq_iff_eq, ofLocalMicros?_isSome] at h
      exact .inl ⟨by rintro _ ⟨⟩ hs; exact h.resolve_left hs, rfl⟩
    · next h =>
      rw [Bool.or_eq_true, beq_iff_eq, ofLocalMicros?_isSome, not_or] at h
      exact .inr ⟨fun hu => h.2 (hu s rfl h.1), rfl⟩

/-! ### Spans -/

/-- What an amount of a unit comes to. -/
inductive Span
  | nothing
  | endless
  | months (n : Int)
  | micros (us : Int)
  deriving DecidableEq, Repr

/-- Only a whole amount comes to months. -/
def monthSpan (x : Double) (perUnit : Int) : Span :=
  match x with
  | .nan => .nothing
  | .infinite _ => .endless
  | x => if x.isWhole then (x.truncate?.map fun n => .months (n * perUnit)).getD .nothing else .nothing

/-- An endless number of days has no end; of shorter units it is nothing. -/
def exactSpan (x : Double) (unit : Int) : Span :=
  match microsOf? x unit with
  | some us => .micros us
  | none => if x != .nan && unit == 86400000000 then .endless else .nothing

def span (x : Double) : TimeUnit → Span
  | .year => monthSpan x 12
  | .quarter => if x.isWhole then monthSpan x 3 else monthSpan (times x 3) 1
  | .month => monthSpan x 1
  | .week => if x.isWhole then exactSpan x (7 * 86400000000) else exactSpan (times x 7) 86400000000
  | .day => exactSpan x 86400000000
  | .hour => exactSpan x 3600000000
  | .minute => exactSpan x 60000000
  | .second => exactSpan x 1000000
  | .millisecond => exactSpan (x.mul (.ofInt 1000)) 1

/-- A moment moved by what an offset comes to. -/
def Span.shift (t : Moment) : Span → ShiftResult
  | .nothing => .ignored
  | .endless => .tooFar
  | .months n => shiftMonths t n
  | .micros us => shiftMicros t us

theorem shiftWholeMonths_eq (t : Moment) (x : Double) (perUnit : Int) :
    shiftWholeMonths t x perUnit = (monthSpan x perUnit).shift t := by
  cases x with
  | nan => rfl
  | infinite s => rfl
  | finite s m e =>
    simp only [shiftWholeMonths, monthSpan]
    split
    · cases (Double.finite s m e).truncate? <;> rfl
    · rfl

theorem shiftDuration_eq (t : Moment) (x : Double) (unit : Int) :
    shiftDuration t x unit = (exactSpan x unit).shift t := by
  rw [shiftDuration, exactSpan]
  cases microsOf? x unit with
  | some us => rfl
  | none =>
    simp only
    split <;> rfl

theorem shift_eq (t : Moment) (x : Double) (u : TimeUnit) : shift t x u = (span x u).shift t := by
  cases u with
  | quarter =>
    simp only [shift, span, shiftQuarters, shiftWholeMonths_eq]
    split <;> rfl
  | week =>
    simp only [shift, span, shiftWeeks, shiftDuration_eq]
    split <;> rfl
  | year | month => exact shiftWholeMonths_eq ..
  | day | hour | minute | second | millisecond => exact shiftDuration_eq ..

/-- The year so many months later. -/
def yearAfter (t : Moment) (n : Int) : Int :=
  ((t.date.year : Int) * 12 + (t.date.month - 1 : Nat) + n).fdiv 12

/-- The same time of day so many months later, or on the last day of that month if it is shorter. -/
def monthsLater (t : Moment) (n : Int) : Moment :=
  let y := (yearAfter t n).toNat
  let m := (((t.date.year : Int) * 12 + (t.date.month - 1 : Nat) + n).fmod 12).toNat + 1
  { t with date := ⟨y, m, min t.date.day (daysInMonth y m)⟩ }

/-- A span that leads out of what can be counted: it has no end, or the year is beyond any count, or one of
the two clocks cannot show the time. -/
def Span.Beyond (t : Moment) : Span → Prop
  | .nothing => False
  | .endless => True
  | .months n =>
    yearAfter t n < -2147483648 ∨ 2147483647 < yearAfter t n ∨
      (1 ≤ yearAfter t n ∧ yearAfter t n ≤ 9999 ∧
        ¬ OnUniversalClock t.offset (monthsLater t n).localMicros)
  | .micros us => ¬ (InCalendar (t.localMicros + us) ∧ OnUniversalClock t.offset (t.localMicros + us))

theorem shiftMonths_eq (t : Moment) (n : Int) :
    shiftMonths t n =
      if yearAfter t n < -2147483648 ∨ 2147483647 < yearAfter t n then .tooFar
      else if yearAfter t n < 1 ∨ 9999 < yearAfter t n then .ignored
      else onUniversalClock (monthsLater t n) := by
  simp only [shiftMonths, yearAfter, monthsLater, Bool.or_eq_true, decide_eq_true_eq]
  rfl

theorem shift_eq_tooFar_iff (t : Moment) (a : Span) : a.shift t = .tooFar ↔ a.Beyond t := by
  cases a with
  | nothing => simp [Span.shift, Span.Beyond]
  | endless => simp [Span.shift, Span.Beyond]
  | months n =>
    rw [Span.shift, Span.Beyond, shiftMonths_eq]
    split
    · next h => simp only [true_iff]; omega
    · next h =>
      split
      · next hy => simp only [reduceCtorEq, false_iff]; omega
      · next hy =>
        rcases onUniversalClock_spec (monthsLater t n) with ⟨hu, he⟩ | ⟨hu, he⟩
        · have hu : OnUniversalClock t.offset (monthsLater t n).localMicros := hu
          simp only [he, reduceCtorEq, false_iff]
          rintro (h' | h' | ⟨-, -, hn⟩)
          · omega
          · omega
          · exact hn hu
        · have hu : ¬ OnUniversalClock t.offset (monthsLater t n).localMicros := hu
          exact iff_of_true he (.inr (.inr ⟨by omega, by omega, hu⟩))
  | micros us =>
    rw [Span.shift, Span.Beyond, shiftMicros]
    split
    · next u hu =>
      have hin : InCalendar (t.localMicros + us) := ofLocalMicros?_isSome.1 (by rw [hu]; rfl)
      obtain ⟨hl, ho⟩ := localMicros_of_ofLocalMicros? hu
      rcases onUniversalClock_spec u with ⟨h, he⟩ | ⟨h, he⟩
      · rw [hl, ho] at h
        simp [he, hin, h]
      · rw [hl, ho] at h
        simp [he, h]
    · next hu =>
      have hin : ¬ InCalendar (t.localMicros + us) := fun h => by
        have : (Moment.ofLocalMicros? t.offset (t.localMicros + us)).isSome := ofLocalMicros?_isSome.2 h
        rw [hu] at this
        cases this
      simp [hin]

/-! ### Offsets -/

/-- An offset is an amount and the name of a unit. -/
def Spells (offset : List Char) (x : Double) (u : TimeUnit) : Prop :=
  ∃ amount unit, words offset = [amount, unit] ∧ Decimal.read? amount = some x ∧
    unit? (String.ofList unit) = some u

/-- An offset whose amount and unit lead beyond what can be counted. -/
def Beyond (t : Moment) (offset : List Char) : Prop :=
  ∃ x u, Spells offset x u ∧ (span x u).Beyond t

theorem Spells.unique {offset : List Char} {x y : Double} {u v : TimeUnit} (h : Spells offset x u)
    (h' : Spells offset y v) : x = y ∧ u = v := by
  obtain ⟨amount, unit, hw, hx, hu⟩ := h
  obtain ⟨amount', unit', hw', hy, hv⟩ := h'
  rw [hw] at hw'
  cases hw'
  exact ⟨Option.some.inj (hx.symm.trans hy), Option.some.inj (hu.symm.trans hv)⟩

theorem applyOffset_of_spells {t : Moment} {offset : List Char} {x : Double} {u : TimeUnit}
    (h : Spells offset x u) : applyOffset t offset = (span x u).shift t := by
  obtain ⟨amount, unit, hw, hx, hu⟩ := h
  rw [applyOffset, hw]
  simp only [hx, hu, shift_eq]

/-- What is no amount and unit is no offset. -/
theorem applyOffset_of_not_spells {t : Moment} {offset : List Char} (h : ∀ x u, ¬ Spells offset x u) :
    applyOffset t offset = .ignored := by
  rw [applyOffset]
  split
  · next amount unit hw =>
    split
    · next x u hx hu => exact absurd ⟨amount, unit, hw, hx, hu⟩ (h x u)
    · rfl
  · rfl

theorem applyOffset_eq_tooFar_iff (t : Moment) (offset : List Char) :
    applyOffset t offset = .tooFar ↔ Beyond t offset := by
  by_cases h : ∃ x u, Spells offset x u
  · obtain ⟨x, u, hs⟩ := h
    rw [applyOffset_of_spells hs, shift_eq_tooFar_iff]
    constructor
    · exact fun hb => ⟨x, u, hs, hb⟩
    · rintro ⟨y, v, hs', hb⟩
      obtain ⟨rfl, rfl⟩ := hs.unique hs'
      exact hb
  · rw [applyOffset_of_not_spells fun x u hs => h ⟨x, u, hs⟩]
    simp only [reduceCtorEq, false_iff]
    rintro ⟨x, u, hs, -⟩
    exact h ⟨x, u, hs⟩

end MockTree.Calendar
