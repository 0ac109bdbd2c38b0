import MockTree.Request
import MockTree.Server.Reply
import MockTree.Server.Target
/-! What a server leaves to the framework it runs in: addresses, the bodies of requests, and the pages that the
framework has of its own. -/
namespace MockTree
open Text

/-- A request as it comes in. -/
structure Incoming where
  method : String
  target : Target
  scheme : String
  httpVersion : String
  headers : List (String × String)
  body : List UInt8

/-- How a request was dealt with: the answer, the seconds waited before it, and the fault if there
was one that nothing had been prepared for. -/
structure Outcome where
  reply : Reply
  waits : List Double
  raised : Option Fault

namespace Incoming

/-- Headers in lower case; of several with one name the first counts. -/
def headerMap : List (String × String) → List (String × Value)
  | [] => []
  | (n, v) :: r =>
    (lower n, .text v) :: (headerMap r).filter fun h => h.1 != lower n

def host (r : Incoming) : String := ((r.headers.find? fun h => lower h.1 == "host").map (·.2)).getD ""

end Incoming

/-- The pages of the framework. -/
inductive OwnPage
  | schema
  | docs
  | redirect
  | reference
  deriving DecidableEq, Repr

namespace OwnPage

def all : List OwnPage := [.schema, .docs, .redirect, .reference]

def path : OwnPage → String
  | .schema => "/openapi.json"
  | .docs => "/docs"
  | .redirect => "/docs/oauth2-redirect"
  | .reference => "/redoc"

def methods : List String := ["GET", "HEAD"]

end OwnPage

/-- What a framework decides about the requests to a server. -/
structure Framework where
  /-- The path of a request as it stands in the request's address. -/
  written : Incoming → List Char
  /-- What keeps a request from being taken up: its body cannot be had, or its address cannot be taken apart. -/
  refusal? : Incoming → Option Fault
  /-- How many lists and objects of a body may be open at once. -/
  levels : Nat
  page : OwnPage → Incoming → Outcome

namespace Framework
variable (F : Framework)

/-- The path and the query that are read back from the address of a request. -/
def seen (r : Incoming) : Target := Target.split ⟨F.written r, r.target.query⟩

/-- The request as definitions see it. -/
def taken (r : Incoming) : Request :=
  .make r.method (String.ofList (F.seen r).path) (lower r.scheme) r.httpVersion (Query.read (F.seen r).query)
    (Incoming.headerMap r.headers) (Body.decode Body.maxBytes r.body)

/-- Takes up a request, if nothing keeps it from that and its body can be read. -/
def request? (r : Incoming) : Except Fault Request :=
  match F.refusal? r with
  | some f => .error f
  | none => if Body.isTooDeep F.levels Body.maxBytes r.body then .error .runtime else .ok (F.taken r)

/-- The address of a request with another path. -/
def addressFor (r : Incoming) (path : List Char) : List Char :=
  let target := { r.target with path := path }
  r.scheme.toList ++ "://".toList ++ r.host.toList ++
    Target.joined { target with path := F.written { r with target := target } }

/-- The marks of a path are percent-encoded in an address. -/
def writeMark (c : Char) : List Char :=
  if c == '?' || c == '#' then '%' :: (hexOf 2 c.toNat).map Char.toUpper else [c]

/-- Of the brackets around the number of a host there is one only. -/
def loneBracket (host : List Char) : Bool := host.contains '[' != host.contains ']'

/-- The framework as definitions come to know it: its pages are left blank. -/
def usual : Framework where
  written r := r.target.path.flatMap writeMark
  refusal? r := if loneBracket r.host.toList then some .badValue else none
  -- of a thousand levels the server has taken some before it reads a body
  levels := 900
  page _ _ := ⟨.ofText 200 [] [], [], none⟩

end Framework
end MockTree
