import MockTree.Json.Writer
import MockTree.Json.Reader
import MockTree.Text.Case
import MockTree.Text.Utf8
/-! Requests as definitions see them, and the reading of a request's body. -/
namespace MockTree
open Text

structure Request where
  method : String
  path : String
  protocol : String
  httpVersion : String
  query : List (String × Value)
  headers : List (String × Value)
  body : Value
  deriving Repr

namespace Request

/-- A request for a path by a method; the method is put in upper case and the path starts with a
slash. -/
def make (method path : String) (protocol httpVersion : String) (query headers : List (String × Value))
    (body : Value) : Request :=
  ⟨upper method, if path.toList.head? == some '/' then path else "/" ++ path, protocol, httpVersion,
    query, headers, body⟩

def simple (method path : String) : Request := make method path "http" "1.1" [] [] (.map [])

def named? {α : Type} (name : String) : List (String × α) → Option α
  | [] => none
  | (n, v) :: r => if n == name then some v else named? name r

/-- The value of a header: of the one spelled exactly so, else of the first whose name differs only
in case. -/
def header? {α : Type} (name : String) (headers : List (String × α)) : Option α :=
  match named? name headers with
  | some v => some v
  | none => (headers.find? fun h => lower h.1 == lower name).map (·.2)

def toMap (fields : List (String × Value)) : Value :=
  .map (fields.map fun (n, v) => (.text n, v))

/-- The request as a mapping. -/
def toValue (r : Request) : Value :=
  toMap [("method", .text r.method), ("path", .text r.path), ("protocol", .text r.protocol),
    ("httpVersion", .text r.httpVersion), ("query", toMap r.query), ("headers", toMap r.headers),
    ("body", r.body)]

end Request

namespace Body

/-- The most bytes of a body that are read. -/
def maxBytes : Int := 1048576

/-- The first bytes up to a limit; a negative limit counts from the end. -/
def clip (limit : Int) (bs : List UInt8) : List UInt8 :=
  if 0 ≤ limit then bs.take limit.toNat else bs.take (bs.length - limit.natAbs)

/-- JSON gives its value, null excepted; any other text is itself, and no bytes are an empty
mapping. -/
def decode (limit : Int) (bs : List UInt8) : Value :=
  if bs.isEmpty then .map []
  else
    let s := ofUtf8Lossy (clip limit bs)
    match Json.read? s with
    | none => .ofChars s
    | some .null => .ofChars s
    | some v => v

/-- Whether there are too few levels for what a body nests. -/
def isTooDeep (levels : Nat) (limit : Int) (bs : List UInt8) : Bool :=
  !bs.isEmpty && Json.isDeep levels (ofUtf8Lossy (clip limit bs))

/-- A value as output: nothing for null, words for booleans, JSON for lists and mappings. -/
def stringify : Value → List Char
  | .scalar .null => []
  | .scalar (.bool b) => (if b then "true" else "false").toList
  | .list items => Json.line (.list items)
  | .map entries => Json.line (.map entries)
  | v => v.plain

end Body
end MockTree
