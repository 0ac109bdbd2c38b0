import MockTree.Template.Builtin
import MockTree.Template.Parser
import MockTree.Text.Escape
/-! Printing a template for some data. -/
namespace MockTree.Template
open Text

/-- The directive of a name: one that was registered, else one that every template has. -/
def directive? (registry : Registry) (name : String) : Option (Directive × Bool) :=
  match registry.find? name with
  | some d => some (d, true)
  | none => (builtins.find? name).map fun d => (d, false)

/-- Calls a directive. Registered ones keep two names of arguments for themselves. -/
def invoke (setting : Setting) (d : Directive × Bool) (call : Call) : Render Datum :=
  if d.2 && call.named.any (fun a => a.1 == "context" || a.1 == "this") then throw .wrongType
  else d.1 setting call

structure Frame where
  setting : Setting
  registry : Registry
  root : Datum

mutual

def argument (f : Frame) (here : Datum) : Argument → Render Datum
  | .literal s => pure (.value (.scalar s))
  | .path segments => Render.ofExcept (resolve segments here)
  | .call name positional named =>
    match directive? f.registry name with
    | none => throw (.report ("Could not find property " ++ name))
    | some d => do
      let ds ← positionalArguments f here positional
      let ns ← namedArguments f here named
      if ns.any fun a => ["helpers", "name", "context"].contains a.1 then throw .wrongType
      else invoke f.setting d ⟨here, none, ds, ns⟩

def positionalArguments (f : Frame) (here : Datum) : List Argument → Render (List Datum)
  | [] => pure []
  | a :: r => do
    let d ← argument f here a
    let ds ← positionalArguments f here r
    pure (d :: ds)

def namedArguments (f : Frame) (here : Datum) :
    List (String × Argument) → Render (List (String × Datum))
  | [] => pure []
  | (n, a) :: r => do
    let d ← argument f here a
    let ds ← namedArguments f here r
    pure ((n, d) :: ds)

end

/-- Calls a directive with the arguments of a tag. -/
def invokeWith (f : Frame) (here this : Datum) (d : Directive × Bool) (block : Option Block)
    (args : Arguments) : Render Datum := do
  let ds ← positionalArguments f here args.positional
  let ns ← namedArguments f here args.named
  invoke f.setting d ⟨this, block, ds, ns⟩

/-- The datum of a tag. A name of one segment may be a directive's. -/
def tagDatum (f : Frame) (here : Datum) (path : List String) (args : Arguments) : Render Datum := do
  let directive := match path with
    | [name] => directive? f.registry name
    | _ => none
  match directive with
  | some d => invokeWith f here here d none args
  | none =>
    let d ← Render.ofExcept (resolve path here)
    match d, path with
    | .operation owner name, _ =>
      let ds ← positionalArguments f here args.positional
      let ns ← namedArguments f here args.named
      if ds.isEmpty && ns.isEmpty then Render.ofExcept (operate owner name here)
      else throw .wrongType
    | .null, [name] =>
      let ds ← positionalArguments f here args.positional
      let ns ← namedArguments f here args.named
      Render.ofExcept (missing name ds ns)
    | d, _ => pure d

/-- A datum as a tag prints it: nothing for null, words for booleans. -/
def tagText (escaped : Bool) : Datum → List Char
  | .null => []
  | .value (.scalar (.bool b)) => (if b then "true" else "false").toList
  | .safe s => s
  | d => if escaped then escape d.plain else d.plain

mutual

/-- A value as a block prints it: text and lists of text. -/
def blockValueText : Value → Except Fault (List Char)
  | .scalar (.text s) => .ok s.toList
  | .scalar _ => .error .wrongType
  | .list items => blockItemsText items
  | .map entries => blockKeysText (entries.map (·.1))
  | .set members => blockKeysText members

def blockItemsText : List Value → Except Fault (List Char)
  | [] => .ok []
  | v :: r =>
    match blockValueText v, blockItemsText r with
    | .ok s, .ok t => .ok (s ++ t)
    | .error f, _ => .error f
    | _, .error f => .error f

def blockKeysText : List Scalar → Except Fault (List Char)
  | [] => .ok []
  | .text s :: r => (blockKeysText r).map (s.toList ++ ·)
  | _ :: _ => .error .wrongType

end

/-- A datum as a block prints it; what counts as false prints nothing. -/
def blockText : Datum → Except Fault (List Char)
  | .value v => if v.isTrue then blockValueText v else .ok []
  | .safe s => .ok s
  | _ => .error .wrongType

/-- What a block prints. Its directive sees a scope over the one at hand; data see the scope itself. -/
def blockOutput (f : Frame) (here : Datum) (name : String) (args : Arguments) (b : Block) :
    Render (List Char) := do
  let d ← match directive? f.registry name with
    | some d => invokeWith f here (.scope here here f.root none) d (some b) args
    | none => do dataBlock b here (← Render.ofExcept (resolve [name] here))
  Render.ofExcept (blockText d)

mutual

def printNode (f : Frame) (here : Datum) : Node → Render (List Char)
  | .text s => pure s
  | .print escaped path args => do pure (tagText escaped (← tagDatum f here path args))
  | .block inverted name args body hasAlternative alternative =>
    let main := fun d => do pure (some (← printNodes f d body))
    let other := fun d => do
      if hasAlternative then pure (some (← printNodes f d alternative)) else pure none
    blockOutput f here name args
      (if inverted then ⟨other, main, f.root⟩ else ⟨main, other, f.root⟩)
  | .part name => throw (.report ("The partial " ++ name ++ " could not be found"))
  | .raw name args text =>
    match directive? f.registry name with
    | some d => do
      let b : Block := ⟨fun _ => pure (some text), fun _ => pure none, f.root⟩
      let r ← invokeWith f here (.scope here here f.root none) d (some b) args
      Render.ofExcept (blockText r)
    | none => pure text

def printNodes (f : Frame) (here : Datum) : List Node → Render (List Char)
  | [] => pure []
  | n :: r => do
    let s ← printNode f here n
    let t ← printNodes f here r
    pure (s ++ t)

end

/-- What every template is printed for: the request, and where messages go. -/
def rootOf (s : Setting) : Datum :=
  .value (.map [(.text "request", s.request.toValue), (.text "logger", .scalar (.sink s.sink))])

def print (registry : Registry) (s : Setting) (nodes : List Node) : Render (List Char) :=
  printNodes ⟨s, registry, rootOf s⟩ (rootOf s) nodes

end MockTree.Template
