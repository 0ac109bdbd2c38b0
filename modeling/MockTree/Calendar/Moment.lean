import MockTree.Calendar.Date
/-! A date with a time of day, to the microsecond, and the offset of its clock if one is known. -/
namespace MockTree.Calendar

structure Moment where
  date : Date
  hour : Nat
  minute : Nat
  second : Nat
  micro : Nat
  /-- Seconds that the clock is ahead of universal time. -/
  offset : Option Int
  deriving DecidableEq, Repr

namespace Moment

/-- Microseconds on the local clock since the start of the day numbered 0. -/
def localMicros (t : Moment) : Int :=
  (((t.date.ordinal : Int) * 86400 + t.hour * 3600 + t.minute * 60 + t.second) * 1000000) + t.micro

def ofLocalMicros? (offset : Option Int) (us : Int) : Option Moment :=
  let day := us.fdiv 86400000000
  if day < 1 || (Date.maxOrdinal : Int) < day then none
  else
    let r := (us.fmod 86400000000).toNat
    let (s, micro) := (r / 1000000, r % 1000000)
    some ⟨.ofOrdinal day.toNat, s / 3600, s / 60 % 60, s % 60, micro, offset⟩

/-- The number of the first of January 1970. -/
def epochDay : Int := 719163

/-- Microseconds of universal time since the start of 1970. -/
def epochMicros (t : Moment) : Int :=
  t.localMicros - epochDay * 86400000000 - t.offset.getD 0 * 1000000

/-- Hours and minutes of an offset, and seconds if there are any. -/
def offsetText (sep : List Char) (seconds : Int) : List Char :=
  let n := seconds.natAbs
  (if seconds < 0 then '-' else '+') :: Date.pad 2 (n / 3600) ++ sep ++ Date.pad 2 (n / 60 % 60)
    ++ (if n % 60 == 0 then [] else sep ++ Date.pad 2 (n % 60))

def timeText (t : Moment) : List Char :=
  Date.pad 2 t.hour ++ ':' :: Date.pad 2 t.minute ++ ':' :: Date.pad 2 t.second
    ++ (if t.micro == 0 then [] else '.' :: Date.pad 6 t.micro)

/-- Date, space, time, and the offset if one is known. -/
def text (t : Moment) : List Char :=
  t.date.text ++ ' ' :: t.timeText ++
    (match t.offset with
     | some s => offsetText [':'] s
     | none => [])

end Moment
end MockTree.Calendar
