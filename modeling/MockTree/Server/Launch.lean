import MockTree.Server.Basic
/-! Starting a server: what is announced, and what is asked of the program that listens. -/
namespace MockTree

/-- How to listen for requests. -/
structure Launch where
  host : Value
  port : Value
  logLevel : Value
  accessLog : Value

def Launch.toValue (l : Launch) : Value :=
  .map [(.text "host", l.host), (.text "port", l.port), (.text "log_level", l.logLevel),
    (.text "access_log", l.accessLog)]

namespace Server

/-- The first of two values unless it counts as false. -/
def orElse (v usual : Value) : Value := if v.isTrue then v else usual

def announcement (s : Server) (host port : Value) : List Char :=
  let place := host.plain ++ ':' :: port.plain
  "🚀 filemock server starting...\n".toList ++
    "   Host: ".toList ++ place ++ "\n   Mock directory: ".toList ++ s.root.text.toList ++ ['\n'] ++
    (if s.config.adminEnabled.isTrue then
      "   Admin API: http://".toList ++ place ++ s.config.adminPath.plain ++ "/metrics\n".toList
    else []) ++ ['\n']

/-- Starts with a host and a port of one's own, or those of the settings. -/
def launch (s : Server) (host port accessLog : Value) : List Char × Launch :=
  let host := orElse host s.config.host
  let port := orElse port s.config.port
  (s.announcement host port, ⟨host, port, s.config.logLevel, accessLog⟩)

end Server
end MockTree
