import MockTree.Decimal.Double
/-! The shortest decimal that reads back as a given double, and its layout. -/
namespace MockTree.Double

/-- 10^k, below one for a negative k, as a quotient. -/
def powTen (k : Int) : Nat × Nat := if 0 ≤ k then (Nat.pow 10 k.toNat, 1) else (1, Nat.pow 10 (-k).toNat)

/-- The double nearest to digits · 10^k. -/
def ofDigits (negative : Bool) (digits : Nat) (k : Int) : Double :=
  ofRatio negative (digits * (powTen k).1) (powTen k).2

def decimalLength (n : Nat) : Nat := (Nat.toDigits 10 n).length

/-- The exponent of the first digit of a positive quotient. -/
def leadingExponent (num den : Nat) : Int :=
  let guess : Int := (decimalLength num : Int) - decimalLength den
  let (a, b) := powTen guess
  if a * den ≤ num * b then guess else guess - 1

/-- Of the two neighbours of num/den on the grid of 10^k, the nearer one that reads back as x. -/
def onGrid? (x : Double) (num den : Nat) (k : Int) : Option Nat :=
  let (a, b) := powTen k
  let n := num * b
  let d := den * a
  let low := n / d
  let r := n % d
  let lowFits := low != 0 && ofDigits false low k == x
  let highFits := r != 0 && ofDigits false (low + 1) k == x
  if lowFits && highFits then
    if 2 * r < d || (2 * r == d && low % 2 == 0) then some low else some (low + 1)
  else if lowFits then some low
  else if highFits then some (low + 1)
  else none

/-- The first grid, from one digit up, that holds a decimal reading back as x. -/
def searchGrids (x : Double) (num den : Nat) (k : Int) : Nat → Nat × Int
  | 0 => (num / den, 0)
  | fuel + 1 =>
    match onGrid? x num den k with
    | some n => (n, k)
    | none => searchGrids x num den (k - 1) fuel

def dropZeros : Nat → Nat → Int → Nat × Int
  | 0, n, k => (n, k)
  | fuel + 1, n, k => if n % 10 == 0 && n != 0 then dropZeros fuel (n / 10) (k + 1) else (n, k)

/-- Digits and exponent of the last digit, for a positive finite double. -/
def shortest (mantissa : Nat) (exponent : Int) : Nat × Int :=
  let x := Double.finite false mantissa exponent
  match x.ratio? with
  | some (n, d) =>
    let (digits, k) := searchGrids x n.natAbs d (leadingExponent n.natAbs d) 18
    dropZeros 20 digits k
  | none => (0, 0)

/-- Positional from 10^-4 up to 10^16, with a fraction always; else one digit, a point if more
follow, and an exponent of at least two digits. -/
def layout (digits : List Char) (leading : Int) : List Char :=
  if -4 ≤ leading && leading < 16 then
    if leading < 0 then
      '0' :: '.' :: List.replicate (-leading - 1).toNat '0' ++ digits
    else
      let whole := leading.toNat + 1
      if digits.length ≤ whole then
        digits ++ List.replicate (whole - digits.length) '0' ++ ['.', '0']
      else digits.take whole ++ '.' :: digits.drop whole
  else
    let first := digits.take 1
    let rest := digits.drop 1
    let e := Nat.toDigits 10 leading.natAbs
    first ++ (if rest.isEmpty then [] else '.' :: rest) ++ ['e', if leading < 0 then '-' else '+']
      ++ (if e.length < 2 then '0' :: e else e)

/-- The written form of a double. -/
def text : Double → List Char
  | .nan => "nan".toList
  | .infinite s => (if s then "-inf" else "inf").toList
  | .finite s m e =>
    let sign := if s then ['-'] else []
    if m == 0 then sign ++ "0.0".toList
    else
      let (digits, k) := shortest m e
      let ds := Nat.toDigits 10 digits
      sign ++ layout ds (k + ds.length - 1)

end MockTree.Double
