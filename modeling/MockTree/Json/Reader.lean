import MockTree.Value.Basic
import MockTree.Decimal.Reader
/-! Reading JSON. Objects keep the order of their names, the last value of a repeated name wins, and
besides the numbers of the standard there are a nan and two infinities. -/
namespace MockTree.Json
open Text

def isSpace (c : Char) : Bool := c == ' ' || c == '\t' || c == '\n' || c == '\r'

def skipSpace (s : List Char) : List Char := s.dropWhile isSpace

def hexValue? (c : Char) : Option Nat :=
  if '0' ≤ c && c ≤ '9' then some (c.toNat - 48)
  else if 'a' ≤ c && c ≤ 'f' then some (c.toNat - 87)
  else if 'A' ≤ c && c ≤ 'F' then some (c.toNat - 55)
  else none

def hexUnit? (a b c d : Char) : Option Nat := do
  let a ← hexValue? a
  let b ← hexValue? b
  let c ← hexValue? c
  let d ← hexValue? d
  pure (((a * 16 + b) * 16 + c) * 16 + d)

/-- The character of an escape of one letter. -/
def escaped? (c : Char) : Option Char :=
  if c == '"' || c == '\\' || c == '/' then some c
  else if c == 'b' then some '\x08'
  else if c == 'f' then some '\x0c'
  else if c == 'n' then some '\n'
  else if c == 'r' then some '\r'
  else if c == 't' then some '\t'
  else none

def isHighUnit (n : Nat) : Bool := 0xD800 ≤ n && n < 0xDC00
def isLowUnit (n : Nat) : Bool := 0xDC00 ≤ n && n < 0xE000

/-- A unit that stands alone. One of a pair is no character of its own, and one that replaces it is put in its
place. -/
def ofUnit (n : Nat) : Char := if isHighUnit n || isLowUnit n then '\uFFFD' else Char.ofNat n

/-- Pairs of units become one character. -/
def joinUnits : List Nat → List Char
  | [] => []
  | [n] => [ofUnit n]
  | n :: m :: r =>
    if isHighUnit n && isLowUnit m then
      Char.ofNat (0x10000 + (n - 0xD800) * 0x400 + (m - 0xDC00)) :: joinUnits r
    else ofUnit n :: joinUnits (m :: r)

/-- The code points and units up to the closing quote, and what follows the quote. -/
def readUnits : List Char → Option (List Nat × List Char)
  | [] => none
  | '"' :: r => some ([], r)
  | '\\' :: 'u' :: a :: b :: c :: d :: r =>
    match hexUnit? a b c d with
    | some n => (readUnits r).map fun (s, t) => (n :: s, t)
    | none => none
  | '\\' :: e :: r =>
    match escaped? e with
    | some c => (readUnits r).map fun (s, t) => (c.toNat :: s, t)
    | none => none
  | c :: r =>
    if c.toNat < 32 || c == '\\' then none
    else (readUnits r).map fun (s, t) => (c.toNat :: s, t)

/-- The text up to the closing quote, and what follows the quote. -/
def readString (s : List Char) : Option (List Char × List Char) :=
  (readUnits s).map fun (ns, r) => (joinUnits ns, r)

def isDigit (c : Char) : Bool := '0' ≤ c && c ≤ '9'

/-- The digits of a whole number: a zero stands alone. -/
def wholeDigits : List Char → Option (List Char × List Char)
  | '0' :: r => some (['0'], r)
  | c :: r => if isDigit c then some (c :: r.takeWhile isDigit, r.dropWhile isDigit) else none
  | [] => none

/-- A point and at least one digit. -/
def fraction? : List Char → Option (List Char × List Char)
  | '.' :: c :: r => if isDigit c then some (c :: r.takeWhile isDigit, r.dropWhile isDigit) else none
  | _ => none

def exponent? : List Char → Option (Int × List Char)
  | [] => none
  | e :: r =>
    if e == 'e' || e == 'E' then
      let (negative, s) := Decimal.sign r
      let ds := s.takeWhile isDigit
      if ds.isEmpty then none
      else some (if negative then -(Decimal.natOf ds : Int) else Decimal.natOf ds, s.dropWhile isDigit)
    else none

/-- A number: whole if it has neither fraction nor exponent. -/
def readNumber (negative : Bool) (s : List Char) : Option (Value × List Char) := do
  let (ds, r) ← wholeDigits s
  match fraction? r, exponent? r with
  | some (fs, r'), _ =>
    match exponent? r' with
    | some (e, r'') => pure (.real (Decimal.scaled negative (ds ++ fs) (e - fs.length)), r'')
    | none => pure (.real (Decimal.scaled negative (ds ++ fs) (-fs.length)), r')
  | none, some (e, r') => pure (.real (Decimal.scaled negative ds e), r')
  | none, none =>
    if ds.length ≤ Decimal.maxDigits then
      pure (.int (if negative then -(Decimal.natOf ds : Int) else Decimal.natOf ds), r)
    else none

/-- The words of the format and the numbers that have no digits. -/
def keywords : List (List Char × Value) := [
  ("null".toList, .null), ("true".toList, .bool true), ("false".toList, .bool false),
  ("NaN".toList, .real .nan), ("Infinity".toList, .real (.infinite false)),
  ("-Infinity".toList, .real (.infinite true))]

def readKeyword (s : List Char) : Option (Value × List Char) :=
  keywords.findSome? fun (w, v) => (dropWord w s).map fun r => (v, r)
where
  dropWord : List Char → List Char → Option (List Char)
    | [], s => some s
    | c :: w, d :: s => if c == d then dropWord w s else none
    | _ :: _, [] => none

def readAtom (s : List Char) : Option (Value × List Char) :=
  match readKeyword s with
  | some a => some a
  | none =>
    match s with
    | '-' :: r => readNumber true r
    | s => readNumber false s

mutual

/-- A value at the start of the text, read with as many steps as allowed. -/
def readValue : Nat → List Char → Option (Value × List Char)
  | 0, _ => none
  | fuel + 1, s =>
    match s with
    | '"' :: r => (readString r).map fun (t, r') => (.ofChars t, r')
    | '[' :: r =>
      match skipSpace r with
      | ']' :: r' => some (.list [], r')
      | r' => (readItems fuel r').map fun (items, r'') => (.list items, r'')
    | '\x7b' :: r =>
      match skipSpace r with
      | '\x7d' :: r' => some (.map [], r')
      | r' => (readFields fuel r').map fun (pairs, r'') => (.map (Value.ofPairs pairs), r'')
    | s => readAtom s

/-- Items up to the closing bracket. -/
def readItems : Nat → List Char → Option (List Value × List Char)
  | 0, _ => none
  | fuel + 1, s =>
    match readValue fuel s with
    | none => none
    | some (v, r) =>
      match skipSpace r with
      | ']' :: r' => some ([v], r')
      | ',' :: r' => (readItems fuel (skipSpace r')).map fun (vs, r'') => (v :: vs, r'')
      | _ => none

/-- Names and values up to the closing brace. -/
def readFields : Nat → List Char → Option (List (Scalar × Value) × List Char)
  | 0, _ => none
  | fuel + 1, s =>
    match s with
    | '"' :: r =>
      match readString r with
      | none => none
      | some (name, r) =>
        match skipSpace r with
        | ':' :: r =>
          match readValue fuel (skipSpace r) with
          | none => none
          | some (v, r) =>
            let pair := (Scalar.text (String.ofList name), v)
            match skipSpace r with
            | '\x7d' :: r' => some ([pair], r')
            | ',' :: r' => (readFields fuel (skipSpace r')).map fun (ps, r'') => (pair :: ps, r'')
            | _ => none
        | _ => none
    | _ => none

end

/-- A whole text that is one value. -/
def read? (s : List Char) : Option Value :=
  match readValue (2 * s.length + 2) (skipSpace s) with
  | some (v, r) => if (skipSpace r).isEmpty then some v else none
  | none => none

/-! A list or an object takes a level of the stack while its inside is read, and levels run out when more than
so many are open at once. The text may turn out to be ill-formed before that. -/

mutual

def valueIsDeep : Nat → Nat → List Char → Bool
  | _, 0, _ => false
  | levels, fuel + 1, s =>
    match s, levels with
    | '[' :: _, 0 | '\x7b' :: _, 0 => true
    | '[' :: r, levels + 1 =>
      match skipSpace r with
      | ']' :: _ => false
      | r' => itemsAreDeep levels fuel r'
    | '\x7b' :: r, levels + 1 =>
      match skipSpace r with
      | '\x7d' :: _ => false
      | r' => fieldsAreDeep levels fuel r'
    | _, _ => false

def itemsAreDeep : Nat → Nat → List Char → Bool
  | _, 0, _ => false
  | levels, fuel + 1, s =>
    valueIsDeep levels fuel s ||
      match (readValue fuel s).map fun (_, r) => skipSpace r with
      | some (',' :: r) => itemsAreDeep levels fuel (skipSpace r)
      | _ => false

def fieldsAreDeep : Nat → Nat → List Char → Bool
  | _, 0, _ => false
  | levels, fuel + 1, s =>
    match s with
    | '"' :: r =>
      match (readString r).map fun (_, r) => skipSpace r with
      | some (':' :: r) =>
        valueIsDeep levels fuel (skipSpace r) ||
          match (readValue fuel (skipSpace r)).map fun (_, r) => skipSpace r with
          | some (',' :: r) => fieldsAreDeep levels fuel (skipSpace r)
          | _ => false
      | _ => false
    | _ => false

end

/-- Whether the levels run out while a text is read. -/
def isDeep (levels : Nat) (s : List Char) : Bool := valueIsDeep levels (2 * s.length + 2) (skipSpace s)

end MockTree.Json
