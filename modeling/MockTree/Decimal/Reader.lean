import MockTree.Decimal.Shortest
import MockTree.Text.Blank
import MockTree.Text.Letters
/-! Reading numbers from text: whole numbers and decimals, with digits of any script, underscores
between digits, blanks around, and the names of the infinities and of nan. -/
namespace MockTree.Decimal
open MockTree.Text

/-- Blanks that may stand around a number; the information separators may not. -/
def isMargin (c : Char) : Bool := isBlank c && !(28 ≤ c.toNat && c.toNat ≤ 31)

def trimMargin (s : List Char) : List Char :=
  ((s.dropWhile isMargin).reverse.dropWhile isMargin).reverse

/-- Digits of any script become those of ASCII. -/
def plainDigit (c : Char) : Char :=
  match decimalValue? c with
  | some d => Char.ofNat (48 + d)
  | none => c

/-- Removes underscores, each of which must stand between two digits. -/
def dropUnderscores? (previousDigit : Bool) : List Char → Option (List Char)
  | [] => some []
  | '_' :: r =>
    match r with
    | c :: _ => if previousDigit && c.isDigit then dropUnderscores? false r else none
    | [] => none
  | c :: r => (dropUnderscores? c.isDigit r).map (c :: ·)

def natOf (ds : List Char) : Nat := ds.foldl (fun n c => n * 10 + (c.toNat - 48)) 0

def allDigits (s : List Char) : Bool := !s.isEmpty && s.all Char.isDigit

/-- The most digits a whole number may be written with. -/
def maxDigits : Nat := 4300

/-- Sign and the rest. -/
def sign : List Char → Bool × List Char
  | '-' :: r => (true, r)
  | '+' :: r => (false, r)
  | s => (false, s)

/-- A whole number. -/
def readInt? (s : List Char) : Option Int := do
  let (negative, ds) := sign ((trimMargin s).map plainDigit)
  let ds ← dropUnderscores? false ds
  if allDigits ds && ds.length ≤ maxDigits then
    some (if negative then -(natOf ds : Int) else natOf ds)
  else none

/-- digits · 10^k, without computing powers that cannot matter. -/
def scaled (negative : Bool) (digits : List Char) (k : Int) : Double :=
  let digits := digits.dropWhile (· == '0')
  if digits.isEmpty then .finite negative 0 0
  else
    let leading := k + digits.length
    if 400 < leading then .infinite negative
    else if leading < -400 then .finite negative 0 0
    else Double.ofDigits negative (natOf digits) k

/-- Digits, then an optional point and more digits; one digit at least. -/
def decimalParts (s : List Char) : List Char × List Char × List Char :=
  let whole := s.takeWhile Char.isDigit
  match s.dropWhile Char.isDigit with
  | '.' :: r => (whole, r.takeWhile Char.isDigit, r.dropWhile Char.isDigit)
  | r => (whole, [], r)

/-- Nothing, or an e and a whole number. -/
def exponent? : List Char → Option Int
  | [] => some 0
  | c :: r =>
    if c == 'e' || c == 'E' then
      let (negative, ds) := sign r
      if allDigits ds then some (if negative then -(natOf ds : Int) else natOf ds) else none
    else none

def named? (s : List Char) : Option Double :=
  let low := String.ofList (s.map Char.toLower)
  if low == "inf" || low == "infinity" then some (.infinite false)
  else if low == "nan" then some .nan
  else none

/-- A decimal in the usual notation, with nothing around it and plain digits. -/
def readPlain? (s : List Char) : Option Double :=
  let (negative, r) := sign s
  match named? r with
  | some x => some (if negative then x.neg else x)
  | none =>
    let (whole, fraction, rest) := decimalParts r
    if whole.isEmpty && fraction.isEmpty then none
    else (exponent? rest).map fun e =>
      scaled negative (whole ++ fraction) (e - fraction.length)

/-- A decimal number. -/
def read? (s : List Char) : Option Double := do
  readPlain? (← dropUnderscores? false ((trimMargin s).map plainDigit))

end MockTree.Decimal
