import MockTree.Value.Basic
import MockTree.Text.Find
import MockTree.Text.Utf8
import MockTree.Json.Reader
/-! Query strings: fields between ampersands, percent-encoded, and the values gathered by name. -/
namespace MockTree.Query
open Text

/-- The bytes of a run of ASCII characters, percent-encoded ones decoded. -/
def percentBytes : List Char → List UInt8
  | [] => []
  | '%' :: a :: b :: r =>
    match Json.hexValue? a, Json.hexValue? b with
    | some x, some y => (UInt8.ofNat (x * 16 + y)) :: percentBytes r
    | _, _ => '%'.toNat.toUInt8 :: percentBytes (a :: b :: r)
  | c :: r => c.toNat.toUInt8 :: percentBytes r

def isAscii (c : Char) : Bool := c.toNat < 128

/-- Decodes every run of ASCII characters on its own; ill-formed bytes are replaced. -/
def decodeFrom : Nat → List Char → List Char
  | 0, s => s
  | _ + 1, [] => []
  | fuel + 1, c :: r =>
    if isAscii c then
      ofUtf8Lossy (percentBytes (c :: r.takeWhile isAscii)) ++ decodeFrom fuel (r.dropWhile isAscii)
    else c :: decodeFrom fuel r

def decode (s : List Char) : List Char := decodeFrom s.length s

/-- A plus sign stands for a space. -/
def decodeField (s : List Char) : List Char :=
  decode (s.map fun c => if c == '+' then ' ' else c)

/-- Name and value; a field without an equals sign has the empty value. -/
def field (s : List Char) : String × String :=
  let (name, value) := (cut? '=' s).getD (s, [])
  (String.ofList (decodeField name), String.ofList (decodeField value))

def fields (s : List Char) : List (String × String) :=
  ((splitAt '&' s).filter (!·.isEmpty)).map field

/-- Adds a value to those of its name. -/
def gather (name value : String) : List (String × List String) → List (String × List String)
  | [] => [(name, [value])]
  | (n, vs) :: r => if n == name then (n, vs ++ [value]) :: r else (n, vs) :: gather name value r

def grouped (s : List Char) : List (String × List String) :=
  (fields s).foldl (fun m (n, v) => gather n v m) []

/-- One value stands alone, several are a list. -/
def valueOf : List String → Value
  | [v] => .text v
  | vs => .list (vs.map .text)

/-- Names in the order of their first fields. -/
def read (s : List Char) : List (String × Value) :=
  (grouped s).map fun (n, vs) => (n, valueOf vs)

end MockTree.Query
