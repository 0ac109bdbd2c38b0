import MockTree.Engine
import MockTree.Config
import MockTree.Server.Framework
/-! A server: its settings, the templates it has read, and its records of what it answered. -/
namespace MockTree

/-- The numbers of requests: all, answered by a definition, answered by the fallback, and failed. -/
structure Tally where
  total : Nat
  served : Nat
  fallback : Nat
  failed : Nat
  deriving DecidableEq, Repr

def Tally.zero : Tally := ⟨0, 0, 0, 0⟩

/-- A request that was answered. -/
structure Visit where
  method : String
  path : String
  kind : String
  status : Int
  deriving DecidableEq, Repr

structure Server where
  framework : Framework
  config : Config
  /-- The directory of definitions. -/
  root : Path
  sink : Sink
  session : Session
  tally : Tally
  /-- The latest visits, oldest first. -/
  recent : List Visit
  recentLimit : Int

namespace Server

def sinkName : String := "filemock.mock"

/-- Visits that are kept. -/
def usualRecentLimit : Int := 100

/-- A server with the settings of a configuration: the directory has to be there and the level has to
be one. The inherited severity is that of the surroundings. -/
def make (files : FileTree) (inherited : Nat) (config : Config) : Except Fault Server := do
  let directory ← match config.directory with
    | .text s => .ok (Path.ofString s)
    | v => .error (.noPath v.kindName)
  if !(← files.isDirectory directory) then throw (.noDirectory directory.text)
  let level ← match Config.severity? config.logLevel with
    | some n => .ok n
    | none => .error .noAttribute
  let root ← files.resolve? directory
  pure {
    framework := .usual
    config := config
    root := root
    sink := ⟨sinkName, level, inherited⟩
    session := ⟨.make config.cacheEnabled.isTrue config.cacheLimit?, 0⟩
    tally := .zero
    recent := []
    recentLimit := usualRecentLimit }

/-- Keeps a visit; the oldest makes room for it if there are as many as the limit. -/
def record (v : Visit) (s : Server) : Except Fault Server :=
  if (s.recent.length : Int) < s.recentLimit then .ok { s with recent := s.recent ++ [v] }
  else if s.recent.isEmpty then .error .outOfRange
  else .ok { s with recent := s.recent.tail ++ [v] }

def countRequest (s : Server) : Server :=
  { s with tally := { s.tally with total := s.tally.total + 1 } }

/-- Counts a response by what it was made from. -/
def countResponse (o : Response.Origin) (s : Server) : Server :=
  match o with
  | .default => { s with tally := { s.tally with fallback := s.tally.fallback + 1 } }
  | _ => { s with tally := { s.tally with served := s.tally.served + 1 } }

def countFailure (s : Server) : Server :=
  { s with tally := { s.tally with failed := s.tally.failed + 1 } }

end Server
end MockTree
