import MockTree.Yaml.Document
import MockTree.Value.Display
/-! The settings of a server. A setting given in a file can be any value; what it means is looked at
where it is used. -/
namespace MockTree

structure Config where
  directory : Value
  cacheEnabled : Value
  cacheSize : Value
  host : Value
  port : Value
  logLevel : Value
  adminEnabled : Value
  adminPath : Value

namespace Config

def usual : Config where
  directory := .text "./mocks"
  cacheEnabled := .bool true
  cacheSize := .int 1000
  host := .text "127.0.0.1"
  port := .int 8080
  logLevel := .text "info"
  adminEnabled := .bool true
  adminPath := .text "/__admin__"

/-- The settings among some entries; others are the usual ones and entries of other names do not count. -/
def ofEntries (entries : List (Scalar × Value)) : Config where
  directory := (Value.field? "mock_dir" entries).getD usual.directory
  cacheEnabled := (Value.field? "cache_enabled" entries).getD usual.cacheEnabled
  cacheSize := (Value.field? "cache_max_size" entries).getD usual.cacheSize
  host := (Value.field? "host" entries).getD usual.host
  port := (Value.field? "port" entries).getD usual.port
  logLevel := (Value.field? "log_level" entries).getD usual.logLevel
  adminEnabled := (Value.field? "admin_enabled" entries).getD usual.adminEnabled
  adminPath := (Value.field? "admin_prefix" entries).getD usual.adminPath

def toEntries (c : Config) : List (Scalar × Value) :=
  [(.text "mock_dir", c.directory), (.text "cache_enabled", c.cacheEnabled),
    (.text "cache_max_size", c.cacheSize), (.text "host", c.host), (.text "port", c.port),
    (.text "log_level", c.logLevel), (.text "admin_enabled", c.adminEnabled),
    (.text "admin_prefix", c.adminPath)]

def toValue (c : Config) : Value := .map c.toEntries

/-- The settings of a document: an empty one has the usual settings. -/
def ofDocument : Value → Except Fault Config
  | .map entries => .ok (ofEntries entries)
  | v => if v.isTrue then .error (.noEntries v.kindName) else .ok usual

/-- Reads the text of a file of settings. -/
def read (s : List Char) : Except Fault Config := do ofDocument (← Yaml.read s)

/-- The severity that a level's name stands for, in any case. -/
def severity? : Value → Option Nat
  | .text s =>
    match Text.upper s with
    | "DEBUG" => some 10
    | "INFO" => some 20
    | "WARNING" | "WARN" => some 30
    | "ERROR" => some 40
    | "CRITICAL" | "FATAL" => some 50
    | "NOTSET" => some 0
    | _ => none
  | _ => none

/-- More templates than any cache keeps. -/
def beyondCount : Int := 18446744073709551616

/-- The least whole number that is not below a number. -/
def ceiling (x : Double) : Int :=
  match x with
  | .infinite negative => if negative then 0 else beyondCount
  | x =>
    match x.ratio? with
    | some (n, d) => -((-n) / (d : Int))
    | none => beyondCount

/-- The number of templates kept; what is no number cannot be compared with a count. -/
def cacheLimit? (c : Config) : Option Int :=
  match c.cacheSize with
  | .scalar s => s.number?.map fun
    | .inl n => n
    | .inr x => ceiling x
  | _ => none

end Config
end MockTree
