/-! Binary floating-point numbers with 53 significant bits, held as exact integers, and rounding to
them: to nearest, a tie to the even neighbour. -/
namespace MockTree

/-- A finite number is (-1)^negative · mantissa · 2^exponent in its one normal form: the mantissa has
53 bits, or the exponent is -1074; zero has exponent 0. -/
inductive Double
  | nan
  | infinite (negative : Bool)
  | finite (negative : Bool) (mantissa : Nat) (exponent : Int)
  deriving DecidableEq, Repr

namespace Double

def zero : Double := .finite false 0 0

/-- The quotient to the nearest whole number, a tie to the even one. -/
def roundDiv (num den : Nat) : Nat :=
  let q := num / den
  let r := num % den
  if 2 * r > den || (2 * r == den && q % 2 == 1) then q + 1 else q

/-- The exponent of the last of 53 bits of a positive quotient, or one more than it. -/
def lastPlace (num den : Nat) : Int :=
  max (-1074) ((Nat.log2 num : Int) - (Nat.log2 den : Int) - 53)

/-- The quotient in units of 2^e. -/
def inUnits (num den : Nat) (e : Int) : Nat :=
  if 0 ≤ e then roundDiv num (den * Nat.pow 2 e.toNat) else roundDiv (num * Nat.pow 2 (-e).toNat) den

/-- The nearest double of a quotient. -/
def ofRatio (negative : Bool) (num den : Nat) : Double :=
  if num == 0 then .finite negative 0 0
  else
    let e := lastPlace num den
    let e := if inUnits num den e < Nat.pow 2 53 then e else e + 1
    let m := inUnits num den e
    let (m, e) := if m < Nat.pow 2 53 then (m, e) else (m / 2, e + 1)
    if m == 0 then .finite negative 0 0
    else if 971 < e then .infinite negative
    else .finite negative m e

def ofInt (n : Int) : Double := ofRatio (n < 0) n.natAbs 1

def isFinite : Double → Bool
  | .finite .. => true
  | _ => false

def isNegative : Double → Bool
  | .nan => false
  | .infinite s => s
  | .finite s _ _ => s

/-- Numerator with its sign, and denominator. -/
def ratio? : Double → Option (Int × Nat)
  | .finite s m e =>
    let n : Int := if s then -(m : Int) else m
    if 0 ≤ e then some (n * Nat.pow 2 e.toNat, 1) else some (n, Nat.pow 2 (-e).toNat)
  | _ => none

/-- The whole part, toward zero. -/
def truncate? (x : Double) : Option Int := x.ratio?.map fun (n, d) => n.tdiv d

def isWhole (x : Double) : Bool :=
  match x.ratio? with
  | some (n, d) => n % d == 0
  | none => false

def isZero : Double → Bool
  | .finite _ m _ => m == 0
  | _ => false

def neg : Double → Double
  | .nan => .nan
  | .infinite s => .infinite !s
  | .finite s m e => .finite (!s) m e

/-- The nearest double of a signed quotient; an exact zero takes the sign given. -/
def ofSigned (zeroNegative : Bool) (num : Int) (den : Nat) : Double :=
  if num == 0 then .finite zeroNegative 0 0 else ofRatio (num < 0) num.natAbs den

def add (x y : Double) : Double :=
  match x.ratio?, y.ratio? with
  | some (a, b), some (c, d) => ofSigned (x.isNegative && y.isNegative) (a * d + c * b) (b * d)
  | none, some _ => x
  | some _, none => y
  | none, none => if x == y then x else .nan

def sub (x y : Double) : Double := add x y.neg

def mul (x y : Double) : Double :=
  let s := x.isNegative != y.isNegative
  match x.ratio?, y.ratio? with
  | some (a, b), some (c, d) => ofSigned s (a * c) (b * d)
  | _, _ => if x == .nan || y == .nan || x.isZero || y.isZero then .nan else .infinite s

/-- Order of the values; nothing compares with a nan. -/
def compare? (x y : Double) : Option Ordering :=
  match x, y with
  | .nan, _ => none
  | _, .nan => none
  | .infinite s, .infinite t => some (compare t.toNat s.toNat)
  | .infinite s, _ => some (if s then .lt else .gt)
  | _, .infinite s => some (if s then .gt else .lt)
  | x, y =>
    match x.ratio?, y.ratio? with
    | some (a, b), some (c, d) => some (compare (a * d) (c * b))
    | _, _ => none

/-- Order of a double and a whole number, with no rounding. -/
def compareInt? (x : Double) (n : Int) : Option Ordering :=
  match x with
  | .nan => none
  | .infinite s => some (if s then .lt else .gt)
  | x => x.ratio?.map fun (a, b) => compare a (n * b)

end Double
end MockTree
