import MockTree.CommandLine.Reader
import MockTree.CommandLine.Help
import MockTree.Server.Launch
import MockTree.Directive.Standard
import MockTree.Query
/-! What the commands do. -/
namespace MockTree.CommandLine
open Text

/-- How a run ended. -/
inductive Ending
  | returned
  | exited (code : Nat)
  | raised (f : Fault)
  deriving DecidableEq, Repr

/-- What a run wrote, how it ended, and the servers it started. -/
structure Run where
  output : List Char
  ending : Ending
  launches : List Launch

def Run.exit (code : Nat) (output : List Char) : Run := ⟨output, .exited code, []⟩
def Run.fail (f : Fault) (output : List Char) : Run := ⟨output, .raised f, []⟩
def Run.done (output : List Char) : Run := ⟨output, .returned, []⟩

/-- The text of a fault that concerns a file. -/
def explain (path : String) : Fault → List Char
  | .noFile => "[Errno 2] No such file or directory: ".toList ++ (Value.text path).shown
  | .notDirectory => "[Errno 20] Not a directory: ".toList ++ (Value.text path).shown
  | .isDirectory => "[Errno 21] Is a directory: ".toList ++ (Value.text path).shown
  | .fileSystem => "[Errno 36] File name too long: ".toList ++ (Value.text path).shown
  | .badValue => "embedded null byte".toList
  | .noEntries kind =>
    let kind := if kind == "date" || kind == "datetime" then "datetime." ++ kind else kind
    '\'' :: kind.toList ++ "' object has no attribute 'items'".toList
  | .noPath kind => "expected str, bytes or os.PathLike object, not ".toList ++ kind.toList
  | .noDirectory path => "Mock directory not found: ".toList ++ path.toList
  | .unreadableYaml => "the settings are not valid YAML".toList
  | _ => "the settings are not valid UTF-8".toList

def line (s : List Char) : List Char := s ++ ['\n']

/-- A setting with the word of a switch, unless the word is empty. -/
def overriding (g : Given) (name : String) (v : Value) : Value :=
  match g.word? name with
  | some w => if w.isEmpty then v else .text w
  | none => v

/-- The number given with a switch. -/
def number? (g : Given) (name : String) : Option Int :=
  (g.word? name).bind fun w => Decimal.readInt? w.toList

/-- Settings changed by switches. -/
def configured (g : Given) (c : Config) : Config where
  directory := overriding g "mock-dir" c.directory
  cacheEnabled := if g.has "no-cache" then .bool false else c.cacheEnabled
  cacheSize := ((number? g "cache-size").map Value.int).getD c.cacheSize
  host := overriding g "host" c.host
  port := match number? g "port" with
    | some n => if n == 0 then c.port else .int n
    | none => c.port
  logLevel := overriding g "log-level" c.logLevel
  adminEnabled := if g.has "no-admin" then .bool false else c.adminEnabled
  adminPath := c.adminPath

def configFile (files : FileTree) (path : String) : Except Fault Config := do
  Config.read (← files.readText (.ofString path))

/-- The settings of the file that is named, or the usual ones. -/
def loadedConfig (files : FileTree) (g : Given) : Except Fault Config :=
  match g.word? "config" with
  | some path => if path.isEmpty then .ok .usual else configFile files path
  | none => .ok .usual

def serve (files : FileTree) (interrupted : Bool) (g : Given) : Run :=
  match loadedConfig files g with
  | .error f =>
    .exit 1 (line ("❌ Failed to load config: ".toList ++ explain ((g.word? "config").getD "") f))
  | .ok c =>
    let c := configured g c
    match Config.severity? c.logLevel with
    | none => .fail .noAttribute []
    | some level =>
      let caching := line
        (if c.cacheEnabled.isTrue then
          "💾 Template caching enabled (max size: ".toList ++ c.cacheSize.plain ++ [')']
        else "💾 Template caching disabled".toList)
      match Server.make files level c with
      | .error f =>
        .exit 1 (caching ++ line ("❌ Failed to create mock server: ".toList ++
          explain (String.ofList c.directory.plain) f))
      | .ok server =>
        let (text, launch) := server.launch .null .null (.bool true)
        let farewell := if interrupted then "\n\n👋 Mock server stopped\n".toList else []
        ⟨caching ++ text ++ farewell, .returned, [launch]⟩

def rootOf (files : FileTree) (g : Given) : Except Fault Path :=
  files.resolve? (.ofString ((g.word? "mock-dir").getD "./mocks"))

def methodOf (g : Given) : String := (g.word? "method").getD "GET"

def resolve (files : FileTree) (g : Given) : Run :=
  let r := Request.simple (methodOf g) (g.operand.getD "")
  let found := do
    let root ← rootOf files g
    pure (root, ← Resolution.definitionFile files root r.path r.method)
  match found with
  | .error f => .fail f []
  | .ok (root, file) =>
    let start := line ("🔍 ".toList ++ r.method.toList ++ ' ' :: r.path.toList) ++
      line ("   Directory: ".toList ++ file.parent.text.toList) ++
      line ("   Mock file: ".toList ++ file.text.toList)
    let note := do
      if ← files.isFile file then pure "   ✅ Mock file exists".toList
      else if ← files.isFile (Engine.fallbackFile root) then
        pure ("   ⚠️  Mock file missing, global default ".toList ++
          (Engine.fallbackFile root).text.toList ++ " will be used".toList)
      else pure "   ⚠️  Mock file missing, built-in 404 will be used".toList
    match note with
    | .error f => .fail f start
    | .ok note => .done (start ++ line note)

/-- Name and value around the first equals sign; words without one do not count. -/
def pairs (ws : List String) : List (String × Value) :=
  (ws.filterMap fun w => cut? '=' w.toList).foldl (fun hs (n, v) => put (String.ofList n) (.ofChars v) hs) []
where
  put (name : String) (v : Value) : List (String × Value) → List (String × Value)
    | [] => [(name, v)]
    | (n, w) :: r => if n == name then (n, v) :: r else (n, w) :: put name v r

/-- The request that switches describe. -/
def requestOf (g : Given) : Request :=
  Request.make (methodOf g) (g.operand.getD "") "http" "1.1"
    (Query.read (joinWith ['&'] (((g.words? "query").getD []).map String.toList)))
    (pairs ((g.words? "header").getD []))
    (Body.decode Body.maxBytes (toUtf8 ((g.word? "body").getD "").toList))

def responseText (r : Response) : List Char :=
  line ("Status: ".toList ++ intText r.status) ++
    (r.headers.flatMap fun (n, v) => line (n.toList ++ ": ".toList ++ v.toList)) ++
    (if r.delay == 0 then [] else line ("Response-Delay: ".toList ++ intText r.delay)) ++ ['\n'] ++
    (match r.origin with
      | .file => line ("<file ".toList ++ (r.file.getD "None").toList ++ ['>'])
      | _ => line r.body.toList)

/-- The session of a run by itself. -/
def freshSession : Session := ⟨.make true (some 1000), 0⟩

def render (s : Setting) (g : Given) : Run :=
  match rootOf s.files g with
  | .error f => .fail f []
  | .ok root =>
    let s := { s with
      request := requestOf g
      sink := ⟨Server.sinkName, 0, if g.has "verbose" then 10 else 30⟩ }
    match (StateT.run (ExceptT.run (Engine.respond Directive.standard root s)) freshSession).1 with
    | .ok r => .done (responseText r)
    | .error (.failure f) =>
      .exit 1 (line ("❌ Failed to render mock: ".toList ++ f.cause.message.toList) ++
        (match f.file with
          | some path => line ("   Mock file: ".toList ++ path.toList)
          | none => []))
    | .error f => .fail f []

/-- Carries out a command line. The setting tells the surroundings; its request and sink do not
count. -/
def run (program : String) (interrupted : Bool) (s : Setting) (args : List String) : Run :=
  match read args with
  | .misuse => .exit 2 []
  | .help form => .exit 0 (help program form)
  | .noCommand => .exit 1 (help program .program)
  | .command form g =>
    if form.name == Form.serve.name then serve s.files interrupted g
    else if form.name == Form.resolve.name then resolve s.files g
    else render s g

/-- The file of settings, if one is named. -/
def Reading.configFile : Reading → Option Path
  | .command form g =>
    if form.name == Form.serve.name then (g.word? "config").map .ofString else none
  | _ => none

/-- The directory of definitions; for a server the file of settings has been read. -/
def Reading.directory (files : FileTree) : Reading → Option Path
  | .command form g =>
    if form.name == Form.serve.name then
      match (loadedConfig files g).toOption.map fun c => (configured g c).directory with
      | some (.text s) => some (.ofString s)
      | _ => none
    else (rootOf files g).toOption
  | _ => none

end MockTree.CommandLine
