import MockTree.Template.Cache
import MockTree.Template.Print
import MockTree.Definition.Content
/-! Working out definitions: rendering the text, splitting the result into head and body, and settling
the body. A session keeps the templates it has read and counts random draws. -/
namespace MockTree
open Template

structure Session where
  cache : Cache
  draws : Nat

/-- A computation in a session; what it did to the session stays if it fails. -/
abbrev Work := ExceptT Fault (StateM Session)

namespace Work

def raise {α : Type} (f : Fault) : Work α := throw f

def modifyCache (f : Cache → Cache) : Work Unit := modify fun s => { s with cache := f s.cache }

/-- Carries out a rendering with the draws of the session. -/
def ofRender {α : Type} (r : Render α) : Work α := do
  let s ← get
  let (result, draws) := StateT.run (ExceptT.run r) s.draws
  set { s with draws := draws }
  ofExcept result

end Work
open Work

/-- Whatever goes wrong in a template fails its definition. -/
def Fault.ofTemplate : Fault → Fault
  | .failure f => .failure f
  | .report text => .failure ⟨.template (some text), none⟩
  | _ => .failure ⟨.template none, none⟩

/-- A failure is reported with the file it was found in. -/
def Fault.inFile (file : String) : Fault → Fault
  | .failure f => .failure { f with file := some file }
  | f => f

def reportOf : Grammar.Flaw × List Char → Fault
  | (.unreadable place, text) => .report (String.ofList (Grammar.placeMessage text place))
  | (.unsound, _) => .wrongType

/-- Reads a template, without the cache. -/
def readTemplate (source : String) : Work (List Node) :=
  match Grammar.read source.toList with
  | .ok nodes => pure nodes
  | .error flaw => raise (reportOf flaw)

/-- The template of a text, from the cache if it is there. -/
def templateOf (source : String) : Work (List Node) := do
  let cache := (← get).cache
  if !cache.enabled then readTemplate source
  else
    match Cache.find? source cache.entries with
    | some nodes => do
      modifyCache Cache.countHit
      pure nodes
    | none => do
      modifyCache Cache.countMiss
      let nodes ← readTemplate source
      match cache.limit with
      | some limit => do
        modifyCache (Cache.store source nodes limit)
        pure nodes
      | none => raise .wrongType

/-- Prints a text that is a template. -/
def render (registry : Registry) (s : Setting) (source : String) : Work String :=
  tryCatch (do
    let nodes ← templateOf source
    pure (String.ofList (← ofRender (Template.print registry s nodes))))
    fun f => raise f.ofTemplate

/-- The response of a rendered definition. -/
def settle (registry : Registry) (s : Setting) (rendered : String) : Work Response := do
  let (r, body) ← ofExcept (Definition.split rendered.toList)
  match Definition.Content.of body with
  | .override entries => ofExcept (Definition.applyOverride r entries)
  | .file path => pure { r with file := some path, origin := .file }
  | .template text => do
    pure { r with body := (← render registry s (String.ofList text)), origin := .template }

/-- The response of a definition. -/
def compile (registry : Registry) (s : Setting) (source : String) : Work Response := do
  settle registry s (← render registry s source)

/-- The response of the definition in a file. -/
def compileFile (registry : Registry) (s : Setting) (file : Path) : Work Response := do
  let source ← ofExcept (s.files.readText file)
  tryCatch (compile registry s (String.ofList source)) fun f => raise (f.inFile file.text)

/-- Drops the templates of the session: how many there were. -/
def clearTemplates : Work Nat := do
  let n := (← get).cache.entries.length
  modifyCache Cache.clear
  pure n

end MockTree
