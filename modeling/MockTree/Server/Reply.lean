import MockTree.Response
import MockTree.Fault
import MockTree.Json.Writer
import MockTree.Server.MediaType
/-! Answers as they are sent: a status, headers with names in lower case, and the bytes of a body. -/
namespace MockTree
open Text

structure Reply where
  status : Int
  headers : List (String × String)
  body : List UInt8
  deriving DecidableEq, Repr

namespace Reply

/-- Headers that say how an answer is sent; definitions do not set them. -/
def reservedHeaders : List String := ["content-length", "transfer-encoding", "connection"]

def isReserved (name : String) : Bool := reservedHeaders.contains (lower name)

/-- Headers hold the first 256 characters only. -/
def isNarrow (s : String) : Bool := s.toList.all fun c => c.toNat < 256

/-- The headers of a definition as they are sent. -/
def headersOf (headers : List (String × String)) : Except Fault (List (String × String)) :=
  let sent := (headers.filter fun h => !isReserved h.1).map fun h => (lower h.1, h.2)
  if sent.all fun h => isNarrow h.1 && isNarrow h.2 then .ok sent else .error .unencodable

/-- Answers of these statuses do not tell the length of their body. -/
def hidesLength (status : Int) : Bool := status < 200 || status == 204 || status == 304

def lengthHeader (n : Nat) : String × String := ("content-length", toString n)

/-- Adds a header unless it is there. -/
def withUsual (name value : String) (headers : List (String × String)) : List (String × String) :=
  if headers.any (·.1 == name) then headers else headers ++ [(name, value)]

/-- An answer whose body is a text. -/
def ofText (status : Int) (headers : List (String × String)) (body : List Char) : Reply :=
  let bytes := toUtf8 body
  ⟨status, if hidesLength status then headers else headers ++ [lengthHeader bytes.length], bytes⟩

def json (status : Int) (v : Value) : Reply :=
  ofText status [("content-type", "application/json")] (Json.write .compact 0 v)

def detail (status : Int) (text : String) : Reply :=
  json status (.map [(.text "detail", .text text)])

def notFound : Reply := detail 404 "Not Found"
def methodNotAllowed : Reply := detail 405 "Method Not Allowed"

/-- The answer when a request could not be dealt with. -/
def serverError : Reply :=
  ofText 500 [("content-type", "text/plain; charset=utf-8")] "Internal Server Error".toList

/-- Characters of an address that are sent as they are. -/
def isPlainInAddress (c : Char) : Bool :=
  c.isAlphanum || "_.-~:/%#?=@[]!$&'()*+,;".toList.contains c

def addressText (s : List Char) : List Char :=
  s.flatMap fun c =>
    if isPlainInAddress c then [c]
    else (String.utf8EncodeChar c).flatMap fun b => '%' :: (hexOf 2 b.toNat).map Char.toUpper

/-- The answer that names another address. -/
def moved (address : List Char) : Reply :=
  ofText 307 [("location", String.ofList (addressText address))] []

/-- What a response is sent as. The content of a file is only looked at when the answer is sent. -/
inductive Draft
  | ready (r : Reply)
  | file (status : Int) (headers : List (String × String)) (path : String)

def Draft.of (r : Response) : Except Fault Draft := do
  let headers ← headersOf r.headers
  match r.origin, r.file with
  | .file, some path =>
    if path.isEmpty then .ok (.ready (ofText r.status headers r.body.toList))
    else .ok (.file r.status (withUsual "accept-ranges" "bytes"
      (withUsual "content-type" (MediaType.header path) headers)) path)
  | _, _ => .ok (.ready (ofText r.status headers r.body.toList))

/-- Sends a draft: a file has to be there, and a request for the headers alone gets no content. -/
def send (files : FileTree) (headersOnly : Bool) : Draft → Except Fault Reply
  | .ready r => .ok r
  | .file status headers path =>
    match files.find (.ofString path) with
    | .node (.file content) =>
      .ok ⟨status, headers ++ [lengthHeader content.length], if headersOnly then [] else content⟩
    | .node (.directory _) => .error .runtime
    | .missing => .error .runtime
    | .throughFile => .error .notDirectory
    | .nameTooLong => .error .fileSystem
    | .nullName => .error .badValue

end Reply
end MockTree
