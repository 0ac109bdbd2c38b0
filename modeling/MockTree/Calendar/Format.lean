import MockTree.Calendar.Moment
import MockTree.Decimal.Shortest
/-! Writing a moment after a pattern of tokens: letters stand for parts of the moment, brackets hold
text that is taken as it stands, and everything else is copied. -/
namespace MockTree.Calendar
open Date

def monthNames : List String := ["January", "February", "March", "April", "May", "June", "July",
  "August", "September", "October", "November", "December"]

def dayNames : List String := ["Monday", "Tuesday", "Wednesday", "Thursday", "Friday", "Saturday",
  "Sunday"]

/-- Each letter that opens a token, and the most of it that a token takes. -/
def tokenLetters : List (Char × Nat) := [('Y', 4), ('M', 4), ('D', 4), ('d', 4), ('H', 2), ('h', 2),
  ('m', 2), ('s', 2), ('S', 6), ('Z', 3), ('a', 1), ('A', 1), ('X', 1), ('x', 1), ('W', 1)]

def digits (n : Nat) : List Char := Nat.toDigits 10 n

def ordinalEnding (n : Nat) : String :=
  if n % 100 == 11 || n % 100 == 12 || n % 100 == 13 then "th"
  else if n % 10 == 1 then "st" else if n % 10 == 2 then "nd" else if n % 10 == 3 then "rd" else "th"

/-- The hour of a clock with twelve hours. -/
def hour12 (h : Nat) : Nat := if h == 0 then 12 else if h < 13 then h else h - 12

/-- Seconds since the start of 1970, as a double. -/
def timestamp (t : Moment) : Double := Double.ofSigned false t.epochMicros 1000000

/-- A double to the nearest whole number. -/
def wholeText (x : Double) : List Char :=
  match x.ratio? with
  | some (n, d) =>
    (if x.isNegative then ['-'] else []) ++ digits (Double.roundDiv n.natAbs d)
  | none => x.text

/-- The offset from universal time, in whole minutes. -/
def zoneText (sep : List Char) (seconds : Int) : List Char :=
  let minutes := seconds.tdiv 60
  (if minutes < 0 then '-' else '+') :: pad 2 (minutes.natAbs / 60) ++ sep ++
    pad 2 (minutes.natAbs % 60)

def zoneName (seconds : Int) : List Char :=
  if seconds == 0 then "UTC".toList else "UTC".toList ++ Moment.offsetText [':'] seconds

def weekText (d : Date) : List Char :=
  let (year, week, day) := d.weekDate
  digits year ++ "-W".toList ++ pad 2 week ++ '-' :: digits day

/-- What a token of so many of a letter stands for; some stand for nothing. -/
def tokenText (t : Moment) (letter : Char) (count : Nat) : List Char :=
  let offset := t.offset.getD 0
  match letter, count with
  | 'Y', 4 => pad 4 t.date.year
  | 'Y', 2 => (pad 4 t.date.year).drop 2
  | 'M', 4 => (monthNames.getD (t.date.month - 1) "").toList
  | 'M', 3 => (monthNames.getD (t.date.month - 1) "").toList.take 3
  | 'M', 2 => pad 2 t.date.month
  | 'M', _ => digits t.date.month
  | 'D', 4 => pad 3 t.date.dayOfYear
  | 'D', 3 => digits t.date.dayOfYear
  | 'D', 2 => pad 2 t.date.day
  | 'D', _ => digits t.date.day
  | 'd', 4 => (dayNames.getD (t.date.weekday - 1) "").toList
  | 'd', 3 => (dayNames.getD (t.date.weekday - 1) "").toList.take 3
  | 'd', 1 => digits t.date.weekday
  | 'H', 2 => pad 2 t.hour
  | 'H', _ => digits t.hour
  | 'h', 2 => pad 2 (hour12 t.hour)
  | 'h', _ => digits (hour12 t.hour)
  | 'm', 2 => pad 2 t.minute
  | 'm', _ => digits t.minute
  | 's', 2 => pad 2 t.second
  | 's', _ => digits t.second
  | 'S', n => (pad 6 t.micro).take n
  | 'X', _ => (timestamp t).text
  | 'x', _ => wholeText ((timestamp t).mul (.ofInt 1000000))
  | 'Z', 3 => zoneName offset
  | 'Z', 2 => zoneText [':'] offset
  | 'Z', _ => zoneText [] offset
  | 'a', _ => (if t.hour < 12 then "am" else "pm").toList
  | 'A', _ => (if t.hour < 12 then "AM" else "PM").toList
  | 'W', _ => weekText t.date
  | _, _ => []

/-- The text in brackets at this place, and what follows it. -/
def bracketed? : List Char → Option (List Char × List Char)
  | '[' :: r =>
    match r.dropWhile (· != ']') with
    | ']' :: rest => some (r.takeWhile (· != ']'), rest)
    | _ => none
  | _ => none

/-- The day of the month with its ending. -/
def ordinalDay? : List Char → Option (List Char)
  | 'D' :: 'o' :: r => some r
  | _ => none

/-- Letter and length of the token at this place. A single capital Y is no token. -/
def token? : List Char → Option (Char × Nat)
  | [] => none
  | c :: r =>
    match tokenLetters.find? (·.1 == c) with
    | some (_, most) =>
      let n := ((c :: r).takeWhile (· == c)).length
      if c == 'Y' && n < 2 then none else some (c, min n most)
    | none => none

def formatFrom (t : Moment) : Nat → List Char → List Char
  | 0, s => s
  | _ + 1, [] => []
  | fuel + 1, c :: r =>
    match bracketed? (c :: r) with
    | some (inner, rest) => inner ++ formatFrom t fuel rest
    | none =>
      match ordinalDay? (c :: r) with
      | some rest => digits t.date.day ++ (ordinalEnding t.date.day).toList ++ formatFrom t fuel rest
      | none =>
        match token? (c :: r) with
        | some (letter, n) => tokenText t letter n ++ formatFrom t fuel ((c :: r).drop n)
        | none => c :: formatFrom t fuel r

def format (t : Moment) (pattern : List Char) : List Char := formatFrom t pattern.length pattern

/-- Whole seconds since the start of 1970, toward zero. -/
def unixSeconds (t : Moment) : Int := ((timestamp t).truncate?).getD 0

/-- Whole milliseconds since the start of 1970, of a product rounded as a double. -/
def epochMillis (t : Moment) : Int := (((timestamp t).mul (.ofInt 1000)).truncate?).getD 0

end MockTree.Calendar
