import MockTree.Json.Reader
import MockTree.Text.Utf8
/-! JSON as bytes: the encoding is told by a byte order mark, else by where the zero bytes are. -/
namespace MockTree.Json
open Text

inductive Encoding
  | utf8
  | utf16 (bigEndian : Bool)
  | utf32 (bigEndian : Bool)
  deriving DecidableEq

/-- The encoding, and the bytes after the mark. -/
def Encoding.detect : List UInt8 → Encoding × List UInt8
  | 0 :: 0 :: 0xFE :: 0xFF :: r => (.utf32 true, r)
  | 0xFF :: 0xFE :: 0 :: 0 :: r => (.utf32 false, r)
  | 0xFE :: 0xFF :: r => (.utf16 true, r)
  | 0xFF :: 0xFE :: r => (.utf16 false, r)
  | 0xEF :: 0xBB :: 0xBF :: r => (.utf8, r)
  | bs =>
    match bs with
    | a :: b :: c :: d :: _ =>
      if a == 0 then (if b == 0 then .utf32 true else .utf16 true, bs)
      else if b == 0 then (if c == 0 && d == 0 then .utf32 false else .utf16 false, bs)
      else (.utf8, bs)
    | [a, b] => (if a == 0 then .utf16 true else if b == 0 then .utf16 false else .utf8, bs)
    | _ => (.utf8, bs)

def unit16 (bigEndian : Bool) (a b : UInt8) : Nat :=
  if bigEndian then a.toNat * 256 + b.toNat else b.toNat * 256 + a.toNat

def units16? (bigEndian : Bool) : List UInt8 → Option (List Nat)
  | [] => some []
  | a :: b :: r => (units16? bigEndian r).map (unit16 bigEndian a b :: ·)
  | [_] => none

def chars32? (bigEndian : Bool) : List UInt8 → Option (List Char)
  | [] => some []
  | a :: b :: c :: d :: r =>
    let n :=
      if bigEndian then ((a.toNat * 256 + b.toNat) * 256 + c.toNat) * 256 + d.toNat
      else ((d.toNat * 256 + c.toNat) * 256 + b.toNat) * 256 + a.toNat
    if n < 0x110000 then (chars32? bigEndian r).map (ofUnit n :: ·) else none
  | _ => none

def decode? (bs : List UInt8) : Option (List Char) :=
  match Encoding.detect bs with
  | (.utf8, r) => ofUtf8? r
  | (.utf16 e, r) => (units16? e r).map joinUnits
  | (.utf32 e, r) => chars32? e r

def readBytes? (bs : List UInt8) : Option Value := (decode? bs).bind read?

end MockTree.Json
