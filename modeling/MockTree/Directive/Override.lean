import MockTree.Directive.Signature
import MockTree.Yaml.Document
/-! Responses described by status, headers and body in the text of a block. -/
namespace MockTree.Directive
open Text

def overrideSignature : Signature := ⟨[("status", .null), ("body", .null)], []⟩

/-- The key and the value by which a body is known to be an override. -/
def overrideKey : String := "CamouflageResponseType"
def overrideKind : String := "code"

def overrideFields : List String := ["status", "headers", "body"]

def flawed {α : Type} (flaw : OverrideFlaw) : Except Fault α := .error (.failure ⟨.override flaw, none⟩)

/-- The mapping that a text describes; a blank text describes the empty one. -/
def described (source : List Char) : Except Fault (List (Scalar × Value)) :=
  if (trim source).isEmpty then .ok []
  else
    match Yaml.read source with
    | .error .unreadableYaml => flawed .unreadable
    | .error f => .error f
    | .ok .null => .ok []
    | .ok (.map entries) => .ok entries
    | .ok v => flawed (.notMapping v.kindName)

/-- A value given as an argument takes the place of the one described. -/
def withArgument (name : String) (given : Value) (entries : List (Scalar × Value)) :
    List (Scalar × Value) :=
  match given with
  | .null => entries
  | v => Value.insert (.text name) v entries

/-- A status is a whole number. Any other is shown in the report, if it has a text. -/
def checkStatus (entries : List (Scalar × Value)) : Except Fault Unit :=
  match Value.field? "status" entries with
  | none => .ok ()
  | some v =>
    if (wholeNumber? (.value v)).isSome then .ok ()
    else if v.hasText then flawed (.badStatus (String.ofList v.shown))
    else .error .badValue

def checkHeaders (entries : List (Scalar × Value)) : Except Fault Unit :=
  match Value.field? "headers" entries with
  | none | some (.map _) => .ok ()
  | some _ => flawed .badHeaders

def isField : Scalar → Bool
  | .text name => overrideFields.contains name
  | _ => false

/-- Other fields are named in a message, so their keys need a text. -/
def checkOthers (entries : List (Scalar × Value)) : Except Fault Unit :=
  if entries.all fun e => isField e.1 || e.1.hasText then .ok () else .error .badValue

/-- The override that a text and arguments describe. Other fields are left out. -/
def override (source : List Char) (status body : Value) : Except Fault (List (Scalar × Value)) := do
  let entries ← described source
  checkOthers entries
  let kept := overrideFields.filterMap fun name =>
    (Value.field? name entries).map fun v => (Scalar.text name, v)
  let kept := withArgument "body" body (withArgument "status" status kept)
  checkStatus kept
  checkHeaders kept
  pure (kept ++ [(.text overrideKey, .text overrideKind)])

/-- An argument as a value. -/
def argumentValue : Datum → Value
  | .value v => v
  | .safe s => .list [.ofChars s]
  | d => .ofChars d.plain

/-- The override that a block describes, as JSON. -/
def overrideBlock : Directive := fun _ call => do
  match call.block with
  | none => throw .wrongType
  | some b => do
    if call.named.any (·.1 == "options") then throw .wrongType
    let source ← b.body call.this
    let arg := fun field => argumentValue (overrideSignature.get field call.named)
    let entries ← Render.ofExcept
      (override (source.getD "None".toList) (arg "status") (arg "body"))
    match Json.obstacle? (.map entries) with
    | none => pure (.safe (Json.line (.map entries)))
    | some .key => throw .wrongType
    | some .value => throw .badValue

end MockTree.Directive
