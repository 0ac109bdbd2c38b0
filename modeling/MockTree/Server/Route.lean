import MockTree.Server.Framework
import MockTree.Config
/-! Where a request goes: to a page of the framework, to the administration, to the definitions, or nowhere. -/
namespace MockTree
open Text

/-- What the administration can be asked for. -/
inductive AdminCall
  | metrics
  | recent
  | settings
  | reset
  | place
  | cache
  | clearCache
  deriving DecidableEq, Repr

namespace AdminCall

def all : List AdminCall := [.metrics, .recent, .settings, .reset, .place, .cache, .clearCache]

def name : AdminCall → String
  | .metrics => "metrics"
  | .recent => "live"
  | .settings => "config"
  | .reset => "reset"
  | .place => "resolve"
  | .cache => "cache"
  | .clearCache => "cache"

def method : AdminCall → String
  | .reset => "POST"
  | .clearCache => "DELETE"
  | _ => "GET"

end AdminCall

inductive Route
  | page (page : OwnPage)
  | admin (call : AdminCall)
  | definitions
  | methodNotAllowed
  | notFound
  /-- The same request with another path is known. -/
  | moved (path : List Char)
  deriving DecidableEq, Repr

namespace Route

/-- The methods that definitions can answer. -/
def methods : List String := ["GET", "POST", "PUT", "DELETE", "PATCH", "HEAD", "OPTIONS"]

/-- One line break at the end of a path does not count. -/
def dropLastBreak (path : List Char) : List Char :=
  if path.getLast? == some '\n' then path.dropLast else path

/-- A path on one line, from a slash on. -/
def isKnown (path : List Char) : Bool :=
  path.head? == some '/' && !(dropLastBreak path).contains '\n'

/-- The path with a slash at the end, or without if it has one. -/
def withOtherEnd (path : List Char) : List Char :=
  if path.getLast? == some '/' then (path.reverse.dropWhile (· == '/')).reverse else path ++ ['/']

/-- The administration's path for a call. -/
def adminPath (config : Config) (call : AdminCall) : List Char :=
  config.adminPath.plain ++ '/' :: call.name.toList

/-- The page of the framework that is asked for. It comes before all else. -/
def page? (method : String) (path : List Char) : Option OwnPage :=
  OwnPage.all.find? fun p => OwnPage.methods.contains method && p.path.toList == dropLastBreak path

/-- The call of the administration that is asked for, if there is an administration. -/
def call? (config : Config) (method : String) (path : List Char) : Option AdminCall :=
  if !config.adminEnabled.isTrue then none
  else AdminCall.all.find? fun a => a.method == method && adminPath config a == dropLastBreak path

def find (config : Config) (method : String) (path : List Char) : Route :=
  if !isKnown path then
    if isKnown (withOtherEnd path) then .moved (withOtherEnd path) else .notFound
  else if !methods.contains method then .methodNotAllowed
  else
    match page? method path, call? config method path with
    | some p, _ => .page p
    | none, some a => .admin a
    | none, none => .definitions

end Route
end MockTree
