/-! Dates of the Gregorian calendar, years 1 to 9999, and their place in the count of days. -/
namespace MockTree.Calendar

structure Date where
  year : Nat
  month : Nat
  day : Nat
  deriving DecidableEq, Repr

def isLeap (year : Nat) : Bool := year % 4 == 0 && (year % 100 != 0 || year % 400 == 0)

/-- Days of the common year before each month. -/
def monthStarts : List Nat := [0, 31, 59, 90, 120, 151, 181, 212, 243, 273, 304, 334]

def daysInMonth (year month : Nat) : Nat :=
  if month == 2 then (if isLeap year then 29 else 28)
  else if month == 4 || month == 6 || month == 9 || month == 11 then 30
  else 31

def daysBeforeMonth (year month : Nat) : Nat :=
  monthStarts.getD (month - 1) 0 + (if 2 < month && isLeap year then 1 else 0)

/-- Days before the first of January of a year, counted from year 1. -/
def daysBeforeYear (year : Nat) : Nat :=
  let y := year - 1
  y * 365 + y / 4 - y / 100 + y / 400

namespace Date

def isValid (d : Date) : Bool :=
  1 ≤ d.year && d.year ≤ 9999 && 1 ≤ d.month && d.month ≤ 12 && 1 ≤ d.day &&
    d.day ≤ daysInMonth d.year d.month

/-- The first of January of year 1 has number 1. -/
def ordinal (d : Date) : Nat :=
  daysBeforeYear d.year + daysBeforeMonth d.year d.month + d.day

def maxOrdinal : Nat := 3652059

/-- Month and day of the n-th day of a year, counted from 0. -/
def monthDay (year : Nat) : Nat → Nat → Nat → Nat × Nat
  | 0, month, n => (month, n + 1)
  | fuel + 1, month, n =>
    let len := daysInMonth year month
    if n < len then (month, n + 1) else monthDay year fuel (month + 1) (n - len)

/-- The date with a given number. -/
def ofOrdinal (ordinal : Nat) : Date :=
  let n := ordinal - 1
  let (n400, n) := (n / 146097, n % 146097)
  let (n100, n) := (n / 36524, n % 36524)
  let (n4, n) := (n / 1461, n % 1461)
  let (n1, n) := (n / 365, n % 365)
  let year := n400 * 400 + n100 * 100 + n4 * 4 + n1 + 1
  if n1 == 4 || n100 == 4 then ⟨year - 1, 12, 31⟩
  else
    let (m, d) := monthDay year 11 1 n
    ⟨year, m, d⟩

/-- Monday is 1. -/
def weekday (d : Date) : Nat := (d.ordinal + 6) % 7 + 1

def dayOfYear (d : Date) : Nat := daysBeforeMonth d.year d.month + d.day

def pad (width n : Nat) : List Char :=
  let ds := Nat.toDigits 10 n
  List.replicate (width - ds.length) '0' ++ ds

/-- Year, month and day, joined by hyphens. -/
def text (d : Date) : List Char := pad 4 d.year ++ '-' :: pad 2 d.month ++ '-' :: pad 2 d.day

/-- The ordinal of the Monday that starts the first week of a year: the week of 4 January. -/
def weekOneMonday (year : Nat) : Int :=
  let first := (Date.mk year 1 1).ordinal
  let weekday := (first + 6) % 7
  (first : Int) - weekday + (if 3 < weekday then 7 else 0)

/-- Year, week and weekday in the calendar of weeks. -/
def weekDate (d : Date) : Nat × Nat × Nat :=
  let today : Int := d.ordinal
  let start := weekOneMonday d.year
  if today < start then
    let before := weekOneMonday (d.year - 1)
    (d.year - 1, ((today - before) / 7).toNat + 1, d.weekday)
  else if weekOneMonday (d.year + 1) ≤ today then (d.year + 1, 1, d.weekday)
  else (d.year, ((today - start) / 7).toNat + 1, d.weekday)

end Date
end MockTree.Calendar
