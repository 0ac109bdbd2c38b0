import MockTree.Yaml.Node
import MockTree.Decimal.Reader
import MockTree.Text.Case
/-! What kind of value the text of a plain scalar stands for, and reading it as a value of a kind. -/
namespace MockTree.Yaml
open Text Calendar

/-! Forms of numbers. Underscores may stand between their digits. -/

def isDigitOrLine (c : Char) : Bool := c.isDigit || c == '_'

/-- A sign, if there is one, and what follows. -/
def unsigned (s : List Char) : List Char :=
  match s with
  | '+' :: r | '-' :: r => r
  | s => s

/-- Digits in groups of sixty: up to a colon, then at most two digits of which the first is at most
five; what is left after the last group. -/
def sixties? : Nat → List Char → Option (List Char)
  | 0, _ => none
  | fuel + 1, s =>
    match s with
    | ':' :: r =>
      let two? := match r with
        | a :: b :: rest => if '0' ≤ a && a ≤ '5' && b.isDigit then some rest else none
        | _ => none
      match two?, r with
      | some rest, _ => (sixties? fuel rest).or (some rest)
      | none, a :: rest => if a.isDigit then (sixties? fuel rest).or (some rest) else none
      | none, [] => none
    | _ => none

def startsDigit (s : List Char) : Bool := s.head?.any Char.isDigit

/-- An exponent must have a sign. -/
def isExponent (s : List Char) : Bool :=
  match s with
  | [] => true
  | e :: sign :: ds =>
    (e == 'e' || e == 'E') && (sign == '+' || sign == '-') && !ds.isEmpty && ds.all Char.isDigit
  | _ => false

def isFloat (s : List Char) : Bool :=
  let u := unsigned s
  let afterWhole := u.dropWhile isDigitOrLine
  let fractional := startsDigit u && (match afterWhole with
    | '.' :: r => isExponent (r.dropWhile isDigitOrLine)
    | _ => false)
  let bare := match s with
    | '.' :: r => startsDigit r && isExponent (r.dropWhile isDigitOrLine)
    | _ => false
  let sixty := startsDigit u && (match sixties? u.length afterWhole with
    | some ('.' :: r) => r.all isDigitOrLine
    | _ => false)
  fractional || bare || sixty ||
    [".inf", ".Inf", ".INF"].any (·.toList == u) || [".nan", ".NaN", ".NAN"].any (·.toList == s)

def isHexOrLine (c : Char) : Bool :=
  isDigitOrLine c || ('a' ≤ c && c ≤ 'f') || ('A' ≤ c && c ≤ 'F')

def isInt (s : List Char) : Bool :=
  match unsigned s with
  | ['0'] => true
  | '0' :: 'b' :: r => !r.isEmpty && r.all fun c => c == '0' || c == '1' || c == '_'
  | '0' :: 'x' :: r => !r.isEmpty && r.all isHexOrLine
  | '0' :: r => r.all fun c => ('0' ≤ c && c ≤ '7') || c == '_'
  | c :: r =>
    c.isDigit && (r.all isDigitOrLine || sixties? r.length (r.dropWhile isDigitOrLine) == some [])
  | [] => false

def isBool (s : List Char) : Bool :=
  ["yes", "Yes", "YES", "no", "No", "NO", "true", "True", "TRUE", "false", "False", "FALSE",
    "on", "On", "ON", "off", "Off", "OFF"].any (·.toList == s)

def isNull (s : List Char) : Bool :=
  ["", "~", "null", "Null", "NULL"].any (·.toList == s)

/-! Dates and times. -/

/-- The parts of a date or a time as they are written. -/
structure Stamp where
  year : List Char
  month : List Char
  day : List Char
  clock : Option (List Char × List Char × List Char × List Char)
  zone : Option (Option (Char × List Char × List Char))
  deriving Repr

/-- Between so many and so many digits. -/
def digits? (least most : Nat) (s : List Char) : Option (List Char × List Char) :=
  let ds := (s.take most).takeWhile Char.isDigit
  if least ≤ ds.length then some (ds, s.drop ds.length) else none

def drop? (c : Char) : List Char → Option (List Char)
  | d :: r => if d == c then some r else none
  | [] => none

/-- What parts a date from a time. -/
def timeStart? (s : List Char) : Option (List Char) :=
  match s with
  | 'T' :: r | 't' :: r => some r
  | c :: _ => if isSpaceOrTab c then some (s.dropWhile isSpaceOrTab) else none
  | [] => none

/-- A time zone, up to the end. -/
def zone? (s : List Char) : Option (Option (Option (Char × List Char × List Char))) :=
  match s.dropWhile isSpaceOrTab with
  | [] => if s.isEmpty then some none else none
  | ['Z'] => some (some none)
  | c :: r =>
    if c == '+' || c == '-' then do
      let (hour, r) ← digits? 1 2 r
      match r with
      | [] => some (some (some (c, hour, [])))
      | ':' :: r => do
        let (minute, r) ← digits? 2 2 r
        if r.isEmpty then some (some (some (c, hour, minute))) else none
      | _ => none
    else none

def stamp? (s : List Char) : Option Stamp := do
  let (year, s) ← digits? 4 4 s
  let s ← drop? '-' s
  let (month, s) ← digits? 1 2 s
  let s ← drop? '-' s
  let (day, s) ← digits? 1 2 s
  if s.isEmpty then some ⟨year, month, day, none, none⟩
  else do
    let s ← timeStart? s
    let (hour, s) ← digits? 1 2 s
    let s ← drop? ':' s
    let (minute, s) ← digits? 2 2 s
    let s ← drop? ':' s
    let (second, s) ← digits? 2 2 s
    let (fraction, s) := match s with
      | '.' :: r => (r.takeWhile Char.isDigit, r.dropWhile Char.isDigit)
      | s => ([], s)
    some ⟨year, month, day, some (hour, minute, second, fraction), ← zone? s⟩

/-- A date without a time has two digits for its month and its day. -/
def isTimestamp (s : List Char) : Bool :=
  match stamp? s with
  | some t => t.clock.isSome || (t.month.length == 2 && t.day.length == 2)
  | none => false

/-- What kind of value a plain scalar is. -/
def tagOf (s : List Char) : Tag :=
  if isBool s then .bool
  else if isFloat s then .float
  else if isInt s then .int
  else if s == ['<', '<'] then .merge
  else if isNull s then .null
  else if isTimestamp s then .timestamp
  else if s == ['='] then .value
  else if s == ['!'] || s == ['&'] || s == ['*'] then .unknown
  else .str

/-! Reading a scalar as a value of a kind. -/

def withoutLines (s : List Char) : List Char := s.filter (· != '_')

/-- What follows the mark of a base; the mark may be left out. -/
def afterMark (base : Nat) (s : List Char) : List Char :=
  match s with
  | '0' :: c :: r =>
    if (base == 2 && (c == 'b' || c == 'B')) || (base == 8 && (c == 'o' || c == 'O')) ||
        (base == 16 && (c == 'x' || c == 'X')) then r else s
  | s => s

/-- A whole number in a base, with blanks around it, a sign and a mark of the base; none if there are
no digits, or others. -/
def intIn? (base : Nat) (s : List Char) : Option Int :=
  let (negative, r) := Decimal.sign ((Decimal.trimMargin s).map Decimal.plainDigit)
  let ds := afterMark base r
  if ds.isEmpty then none
  else
    (ds.foldlM (fun n c => do
      let d ← Json.hexValue? c
      if d < base then some (n * base + d) else none) 0).map fun (n : Nat) =>
        if negative then -(n : Int) else n

def intOfParts? (parts : List (List Char)) : Option Int :=
  parts.foldlM (fun n p => (Decimal.readInt? p).map (n * 60 + ·)) 0

def readMagnitude? (s : List Char) : Option Int :=
  match s with
  | ['0'] => some 0
  | '0' :: 'b' :: r => intIn? 2 r
  | '0' :: 'x' :: r => intIn? 16 r
  | '0' :: r => intIn? 8 ('0' :: r)
  | s => if s.contains ':' then intOfParts? (splitAt ':' s) else Decimal.readInt? s

def readInt (s : List Char) : Except Fault Scalar :=
  let s := withoutLines s
  if s.isEmpty then .error .outOfRange
  else
    let u := unsigned s
    if u.isEmpty then .error .outOfRange
    else
      match readMagnitude? u with
      | some n => .ok (.int (if s.head? == some '-' then -n else n))
      | none => .error .badValue

/-- The sum of digits in groups of sixty, the last group first. A weight beyond all doubles is too
large to be multiplied with. -/
def sumSixties (sum : Double) (weight : Int) : List Double → Except Fault Double
  | [] => .ok sum
  | x :: r =>
    match Double.ofInt weight with
    | .infinite _ => .error .overflow
    | w => sumSixties (sum.add (x.mul w)) (weight * 60) r

def sixtiesValue (s : List Char) : Except Fault Double :=
  match (splitAt ':' s).mapM Decimal.read? with
  | some xs => sumSixties .zero 1 xs.reverse
  | none => .error .badValue

def plainValue (s : List Char) : Except Fault Double :=
  match Decimal.read? s with
  | some x => .ok x
  | none => .error .badValue

def readFloat (s : List Char) : Except Fault Scalar :=
  let s := lowerList (withoutLines s)
  if s.isEmpty then .error .outOfRange
  else
    let u := unsigned s
    let signed := fun (x : Double) => Scalar.real (if s.head? == some '-' then x.neg else x)
    if u == ".inf".toList then .ok (signed (.infinite false))
    else if u == ".nan".toList then .ok (.real .nan)
    else (if u.contains ':' then sixtiesValue u else plainValue u).map signed

def readBool (s : List Char) : Except Fault Scalar :=
  let s := lowerList s
  if ["yes", "true", "on"].any (·.toList == s) then .ok (.bool true)
  else if ["no", "false", "off"].any (·.toList == s) then .ok (.bool false)
  else .error .noKey

def sextet? (c : Char) : Option Nat :=
  if 'A' ≤ c && c ≤ 'Z' then some (c.toNat - 65)
  else if 'a' ≤ c && c ≤ 'z' then some (c.toNat - 71)
  else if c.isDigit then some (c.toNat + 4)
  else if c == '+' then some 62
  else if c == '/' then some 63
  else none

/-- The bytes of groups of sextets; an unfinished group of one sextet is an error. -/
def bytesOf? : List Nat → Option (List UInt8)
  | a :: b :: c :: d :: r =>
    (bytesOf? r).map fun bs =>
      (a * 4 + b / 16).toUInt8 :: (b * 16 + c / 4).toUInt8 :: (c * 64 + d).toUInt8 :: bs
  | [a, b, c] => some [(a * 4 + b / 16).toUInt8, (b * 16 + c / 4).toUInt8]
  | [a, b] => some [(a * 4 + b / 16).toUInt8]
  | [_] => none
  | [] => some []

/-- The sextets before the padding that completes a group; other characters do not count. -/
def sextets? (count padding : Nat) : List Char → Option (List Nat)
  | [] => if count % 4 == 0 then some [] else none
  | c :: r =>
    if c == '=' then
      if 2 ≤ count % 4 && 4 ≤ count % 4 + padding + 1 then some []
      else sextets? count (if 2 ≤ count % 4 then padding + 1 else padding) r
    else
      match sextet? c with
      | some n => (sextets? (count + 1) 0 r).map (n :: ·)
      | none => sextets? count padding r

def readBinary (s : List Char) : Except Fault Scalar :=
  if s.any fun c => 128 ≤ c.toNat then .error .unreadableYaml
  else
    match (sextets? 0 0 s).bind bytesOf? with
    | some bs => .ok (.bytes bs)
    | none => .error .unreadableYaml

def natOf (ds : List Char) : Nat := Decimal.natOf ds

/-- The seconds of a time zone, less than a day. -/
def zoneSeconds? : Option (Option (Char × List Char × List Char)) → Option (Option Int)
  | none => some none
  | some none => some (some 0)
  | some (some (sign, hour, minute)) =>
    let seconds := natOf hour * 3600 + natOf minute * 60
    if seconds < 86400 then some (some (if sign == '-' then -(seconds : Int) else seconds)) else none

/-- A line feed may end the text. -/
def readTimestamp (s : List Char) : Except Fault Scalar :=
  match stamp? (if s.getLast? == some '\n' then s.dropLast else s) with
  | none => .error .noAttribute
  | some t =>
    let date : Date := ⟨natOf t.year, natOf t.month, natOf t.day⟩
    match t.clock with
    | none => if date.isValid then .ok (.date date) else .error .badValue
    | some (hour, minute, second, fraction) =>
      let micro := natOf ((fraction ++ "000000".toList).take 6)
      match zoneSeconds? t.zone with
      | some offset =>
        if date.isValid && natOf hour < 24 && natOf minute < 60 && natOf second < 60 then
          .ok (.moment ⟨date, natOf hour, natOf minute, natOf second, micro, offset⟩)
        else .error .badValue
      | none => .error .badValue

/-- The value of a scalar of a kind; not every kind has scalars. -/
def readScalar (tag : Tag) (s : List Char) : Except Fault Scalar :=
  match tag with
  | .null => .ok .null
  | .bool => readBool s
  | .int => readInt s
  | .float => readFloat s
  | .binary => readBinary s
  | .timestamp => readTimestamp s
  | .str => .ok (.text (String.ofList s))
  | _ => .error .unreadableYaml

end MockTree.Yaml
