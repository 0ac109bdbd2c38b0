import MockTree.Text.Find
/-! What the words of a command line can be: the commands, their switches, and what stands alone. -/
namespace MockTree.CommandLine

/-- How many words go with a switch. -/
inductive Arity
  | none
  | one
  | several
  deriving DecidableEq, Repr

structure Switch where
  short : Option Char
  long : String
  arity : Arity
  /-- The name of its word in help texts. -/
  placeholder : String
  /-- The words it takes, if not any. -/
  choices : List String
  wholeNumber : Bool
  help : String
  deriving DecidableEq, Repr

namespace Switch

def helpSwitch : Switch :=
  ⟨some 'h', "help", .none, "", [], false, "show this help message and exit"⟩

/-- A switch that takes one word. -/
def taking (short : Option Char) (long placeholder help : String) : Switch :=
  ⟨short, long, .one, placeholder, [], false, help⟩

/-- A switch that takes one whole number. -/
def takingNumber (short : Option Char) (long placeholder help : String) : Switch :=
  ⟨short, long, .one, placeholder, [], true, help⟩

def marking (long help : String) : Switch := ⟨none, long, .none, "", [], false, help⟩

def shortSpelling (s : Switch) : Option (List Char) := s.short.map fun c => ['-', c]
def longSpelling (s : Switch) : List Char := '-' :: '-' :: s.long.toList

end Switch

/-- The form of a command's arguments. -/
structure Form where
  name : String
  summary : String
  /-- The name of the argument that stands alone, and its help. -/
  operand : Option (String × String)
  switches : List Switch
  deriving DecidableEq, Repr

namespace Form

def pathOperand : String × String := ("path", "Request path, e.g. /users/42")

def directorySwitch : Switch :=
  .taking (some 'd') "mock-dir" "MOCK_DIR" "Mock directory (default: ./mocks)"

def methodSwitch : Switch := .taking (some 'm') "method" "METHOD" "HTTP method (default: GET)"

def logLevels : List String := ["debug", "info", "warning", "error"]

def serve : Form where
  name := "serve"
  summary := "Start mock HTTP server"
  operand := none
  switches := [.helpSwitch, directorySwitch,
    .taking (some 'c') "config" "CONFIG" "YAML configuration file",
    .taking none "host" "HOST" "Host to bind (default: 127.0.0.1)",
    .takingNumber (some 'p') "port" "PORT" "Port to bind (default: 8080)",
    { Switch.taking none "log-level" "" "Log level (default: info)" with choices := logLevels },
    .marking "no-admin" "Disable admin API",
    .marking "no-cache" "Disable template caching",
    .takingNumber none "cache-size" "CACHE_SIZE" "Maximum cache entries (default: 1000)"]

def resolve : Form where
  name := "resolve"
  summary := "Show which mock file a request uses"
  operand := some pathOperand
  switches := [.helpSwitch, methodSwitch, directorySwitch]

def render : Form where
  name := "render"
  summary := "Render the response for a request"
  operand := some pathOperand
  switches := [.helpSwitch, methodSwitch, directorySwitch,
    { Switch.taking (some 'q') "query" "QUERY" "Query parameters (key=value)" with arity := .several },
    { Switch.taking (some 'H') "header" "HEADER" "Request headers (key=value)" with arity := .several },
    .taking (some 'b') "body" "BODY" "Request body",
    .marking "verbose" "Show debug logging"]

/-- What can stand before a command. -/
def program : Form where
  name := ""
  summary := "filemock - file-driven HTTP mock server"
  operand := none
  switches := [.helpSwitch]

def commands : List Form := [serve, resolve, render]

end Form
end MockTree.CommandLine
