import MockTree.Calendar.Moment
import MockTree.Decimal.Reader
import MockTree.Text.Case
/-! Moving a moment by an amount of a unit of time. Months and years keep the day of the month, or take
the month's last day; the other units are exact durations. -/
namespace MockTree.Calendar
open Text

inductive TimeUnit
  | year
  | quarter
  | month
  | week
  | day
  | hour
  | minute
  | second
  | millisecond
  deriving DecidableEq, Repr

/-- The spellings of the units. The one-letter names tell months from minutes by case. -/
def unitNames : List (String × TimeUnit) := [
  ("y", .year), ("year", .year), ("years", .year),
  ("Q", .quarter), ("quarter", .quarter), ("quarters", .quarter),
  ("M", .month), ("month", .month), ("months", .month),
  ("w", .week), ("week", .week), ("weeks", .week),
  ("d", .day), ("day", .day), ("days", .day),
  ("h", .hour), ("hour", .hour), ("hours", .hour),
  ("m", .minute), ("minute", .minute), ("minutes", .minute),
  ("s", .second), ("second", .second), ("seconds", .second),
  ("ms", .millisecond), ("millisecond", .millisecond), ("milliseconds", .millisecond)]

def exactUnit? (name : String) : Option TimeUnit :=
  (unitNames.find? (·.1 == name)).map (·.2)

/-- A spelling as it stands, else in lower case. -/
def unit? (name : String) : Option TimeUnit := exactUnit? name <|> exactUnit? (lower name)

inductive ShiftResult
  | moved (t : Moment)
  /-- The shift means nothing, and the moment stays. -/
  | ignored
  /-- The result lies outside what can be counted. -/
  | tooFar
  deriving DecidableEq, Repr

/-- The moment, if the same instant can be given on the clock of universal time. -/
def onUniversalClock (t : Moment) : ShiftResult :=
  match t.offset with
  | some s =>
    if s == 0 || (Moment.ofLocalMicros? none (t.localMicros - s * 1000000)).isSome then .moved t
    else .tooFar
  | none => .moved t

/-- The same time of day so many months later; a day that the month lacks becomes its last. -/
def shiftMonths (t : Moment) (n : Int) : ShiftResult :=
  let months := (t.date.year : Int) * 12 + (t.date.month - 1 : Nat) + n
  let year := months.fdiv 12
  let month := (months.fmod 12).toNat + 1
  if year < -2147483648 || 2147483647 < year then .tooFar
  else if year < 1 || 9999 < year then .ignored
  else
    let y := year.toNat
    onUniversalClock { t with date := ⟨y, month, min t.date.day (daysInMonth y month)⟩ }

def shiftMicros (t : Moment) (us : Int) : ShiftResult :=
  match Moment.ofLocalMicros? t.offset (t.localMicros + us) with
  | some u => onUniversalClock u
  | none => .tooFar

/-- The nearest whole number to a quotient of either sign, a tie to the even one. -/
def roundQuotient (num : Int) (den : Nat) : Int :=
  if num < 0 then -(Double.roundDiv num.natAbs den : Int) else Double.roundDiv num.natAbs den

/-- Microseconds of an amount of a unit: the whole units exactly, and the product of what is left
over, rounded as a double and then to a whole number. -/
def microsOf? (x : Double) (unit : Int) : Option Int := do
  let (n, d) ← x.ratio?
  let whole := n.tdiv d
  let rest := Double.ofSigned false (n - whole * d) d
  let (p, q) ← (rest.mul (.ofInt unit)).ratio?
  pure (roundQuotient (whole * unit * q + p) q)

/-- Shifts by a duration. An endless number of days is too far; of shorter units it means nothing. -/
def shiftDuration (t : Moment) (x : Double) (unit : Int) : ShiftResult :=
  match microsOf? x unit with
  | some us => shiftMicros t us
  | none => if x != .nan && unit == 86400000000 then .tooFar else .ignored

/-- Shifts by months, of which only whole ones count. -/
def shiftWholeMonths (t : Moment) (x : Double) (perUnit : Int) : ShiftResult :=
  match x with
  | .nan => .ignored
  | .infinite _ => .tooFar
  | x =>
    if x.isWhole then
      match x.truncate? with
      | some n => shiftMonths t (n * perUnit)
      | none => .ignored
    else .ignored

/-- A product that a whole amount does not round. -/
def times (x : Double) (n : Int) : Double :=
  if x.isWhole then x else x.mul (.ofInt n)

/-- Whole quarters count three months each; others only if three of them make whole months. -/
def shiftQuarters (t : Moment) (x : Double) : ShiftResult :=
  if x.isWhole then shiftWholeMonths t x 3 else shiftWholeMonths t (times x 3) 1

/-- Whole weeks are seven days each, exactly; a fraction is turned into days first. -/
def shiftWeeks (t : Moment) (x : Double) : ShiftResult :=
  if x.isWhole then shiftDuration t x (7 * 86400000000)
  else shiftDuration t (times x 7) 86400000000

def shift (t : Moment) (x : Double) : TimeUnit → ShiftResult
  | .year => shiftWholeMonths t x 12
  | .quarter => shiftQuarters t x
  | .month => shiftWholeMonths t x 1
  | .week => shiftWeeks t x
  | .day => shiftDuration t x 86400000000
  | .hour => shiftDuration t x 3600000000
  | .minute => shiftDuration t x 60000000
  | .second => shiftDuration t x 1000000
  | .millisecond => shiftDuration t (x.mul (.ofInt 1000)) 1

/-- The moment moved by an offset of the form amount and unit. -/
def applyOffset (t : Moment) (offset : List Char) : ShiftResult :=
  match words offset with
  | [amount, unit] =>
    match Decimal.read? amount, unit? (String.ofList unit) with
    | some x, some u => shift t x u
    | _, _ => .ignored
  | _ => .ignored

end MockTree.Calendar
