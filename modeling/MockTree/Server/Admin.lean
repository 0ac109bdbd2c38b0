import MockTree.Server.Basic
import MockTree.Server.Reply
import MockTree.Server.Route
/-! What the administration of a server answers. -/
namespace MockTree
open Text

namespace Tally

def toValue (t : Tally) : Value :=
  .map [(.text "total_requests", .int t.total), (.text "served_requests", .int t.served),
    (.text "default_responses", .int t.fallback), (.text "failed_requests", .int t.failed)]

end Tally

def Visit.toValue (v : Visit) : Value :=
  .map [(.text "method", .text v.method), (.text "path", .text v.path), (.text "kind", .text v.kind),
    (.text "response_status", .int v.status)]

namespace Server

mutual

/-- Every number in the value is finite, and so is the value. -/
def isFinite : Value → Bool
  | .scalar (.real x) => x.isFinite
  | .scalar (.enclosing ..) => false
  | .list items => areFinite items
  | .map entries => entriesFinite entries
  | _ => true

def areFinite : List Value → Bool
  | [] => true
  | v :: r => isFinite v && areFinite r

def entriesFinite : List (Scalar × Value) → Bool
  | [] => true
  | (_, v) :: r => isFinite v && entriesFinite r

end

/-- A field of a query, of several the last; the bytes of the query are read one by one. -/
def queryField (name usual : String) (query : List Char) : String :=
  let fields := Query.fields ((toUtf8 query).map fun b => Char.ofNat b.toNat)
  ((fields.reverse.find? (·.1 == name)).map (·.2)).getD usual

def recentValue (s : Server) : Value :=
  .map [(.text "total", .int s.recent.length), (.text "limit", .int s.recentLimit),
    (.text "requests", .list (s.recent.reverse.map Visit.toValue))]

/-- The part of the look-ups that found a template. -/
def hitRate (c : Template.Cache) : Double :=
  if c.hits + c.misses == 0 then .zero else .ofRatio false c.hits (c.hits + c.misses)

def cacheValue (s : Server) : Value :=
  let c := s.session.cache
  .map [(.text "enabled", s.config.cacheEnabled), (.text "max_size", s.config.cacheSize),
    (.text "current_size", .int c.entries.length), (.text "hits", .int c.hits),
    (.text "misses", .int c.misses), (.text "hit_rate", .real (hitRate c))]

/-- Where the definition for a method and a path is. -/
def placeValue (files : FileTree) (s : Server) (method path : String) : Except Fault Value := do
  let r := Request.simple method path
  let file ← Resolution.definitionFile files s.root r.path r.method
  let present ← files.isFile file
  let fallback ← files.isFile (Engine.fallbackFile s.root)
  pure (.map [(.text "path", .text r.path), (.text "method", .text r.method),
    (.text "directory", .text file.parent.text), (.text "mock_file", .text file.text),
    (.text "exists", .bool present), (.text "global_default", .bool fallback)])

def written (v : Value) : Except Fault Reply :=
  if isFinite v then .ok (.json 200 v) else .error .badValue

/-- Answers a call, and what becomes of the server. -/
def administer (files : FileTree) (call : AdminCall) (query : List Char) (s : Server) :
    Except Fault Reply × Server :=
  match call with
  | .metrics => (written s.tally.toValue, s)
  | .recent => (written s.recentValue, s)
  | .settings => (written s.config.toValue, s)
  | .reset => (written (.map [(.text "status", .text "reset")]), { s with tally := .zero })
  | .place =>
    ((s.placeValue files (queryField "method" "GET" query) (queryField "path" "/" query)).bind written, s)
  | .cache => (written s.cacheValue, s)
  | .clearCache =>
    let (n, session) := StateT.run (ExceptT.run clearTemplates) s.session
    (n.bind fun n => written (.map [(.text "status", .text "cleared"), (.text "entries_cleared", .int n)]),
      { s with session := session })

end Server
end MockTree
