import MockTree.FileTree
import MockTree.Value.Basic
/-! What can go wrong: failures of a mock definition, which are reported with its file, and faults of
the values, texts and files at hand. -/
namespace MockTree

/-- Why the text of a code block gives no response. -/
inductive OverrideFlaw
  | unreadable
  | notMapping (kind : String)
  | badStatus (shown : String)
  | badHeaders
  deriving DecidableEq, Repr

def OverrideFlaw.message : OverrideFlaw → String
  | .unreadable => "code block is not valid YAML or JSON"
  | .notMapping kind => "code block must describe a mapping, got " ++ kind
  | .badStatus shown => "code block status must be an integer, got " ++ shown
  | .badHeaders => "code block headers must be a mapping"

/-- Why a definition gives no response. -/
inductive Cause
  | statusLine (line : String)
  /-- A template cannot be read or carried out; some causes come with a report. -/
  | template (report : Option String)
  | override (flaw : OverrideFlaw)
  deriving DecidableEq, Repr

def Cause.message : Cause → String
  | .statusLine line => "Response code should be valid string: " ++ line
  | .template (some report) => "Template error: " ++ report
  | .template none => "Template error"
  | .override flaw => flaw.message

/-- The name a cause is reported under. -/
def Cause.name : Cause → String
  | .statusLine _ => "DefinitionFormatError"
  | .template _ => "TemplateRenderError"
  | .override _ => "CodeDirectiveError"

structure Failure where
  cause : Cause
  file : Option String
  deriving DecidableEq, Repr

/-- A failure as it is reported. -/
structure Report where
  name : String
  detail : String
  file : Option String
  deriving DecidableEq, Repr

def Failure.report (f : Failure) : Report := ⟨f.cause.name, f.cause.message, f.file⟩

def Report.toValue (r : Report) : Value :=
  .map [(.text "error", .text r.name), (.text "detail", .text r.detail),
    (.text "mock_file", (r.file.map Value.text).getD .null)]

inductive Fault
  | failure (f : Failure)
  /-- A template's own report. -/
  | report (text : String)
  | wrongType
  | badValue
  | overflow
  | noAttribute
  /-- A value of this kind was to be a mapping. -/
  | noEntries (kind : String)
  /-- A value of this kind was to be the path of a file. -/
  | noPath (kind : String)
  /-- The directory of definitions is not there. -/
  | noDirectory (path : String)
  | noKey
  | outOfRange
  | undecodable
  | unencodable
  | noFile
  | isDirectory
  | notDirectory
  | fileSystem
  | unreadableYaml
  | runtime
  | assertion
  deriving DecidableEq, Repr

namespace FileTree

def Found.isFile : Found → Except Fault Bool
  | .node (.file _) => .ok true
  | .nameTooLong => .error .fileSystem
  | _ => .ok false

def Found.isDirectory : Found → Except Fault Bool
  | .node (.directory _) => .ok true
  | .nameTooLong => .error .fileSystem
  | _ => .ok false

def Found.exists : Found → Except Fault Bool
  | .node _ => .ok true
  | .nameTooLong => .error .fileSystem
  | _ => .ok false

def isFile (t : FileTree) (p : Path) : Except Fault Bool := Found.isFile (t.find p)
def isDirectory (t : FileTree) (p : Path) : Except Fault Bool := Found.isDirectory (t.find p)
def hasPath (t : FileTree) (p : Path) : Except Fault Bool := Found.exists (t.find p)

/-- The absolute path, of names that a file can have. -/
def resolve? (t : FileTree) (p : Path) : Except Fault Path :=
  if p.text.toList.contains '\x00' then .error .badValue else .ok (t.resolve p)

def read (t : FileTree) (p : Path) : Except Fault (List UInt8) :=
  match t.find p with
  | .node (.file content) => .ok content
  | .node (.directory _) => .error .isDirectory
  | .missing => .error .noFile
  | .throughFile => .error .notDirectory
  | .nameTooLong => .error .fileSystem
  | .nullName => .error .badValue

/-- The text of a file, its line breaks made one kind. -/
def readText (t : FileTree) (p : Path) : Except Fault (List Char) := do
  match Text.ofUtf8? (← t.read p) with
  | some s => .ok (Text.unifyNewlines s)
  | none => .error .undecodable

end FileTree
end MockTree
