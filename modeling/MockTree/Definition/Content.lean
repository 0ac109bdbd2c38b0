import MockTree.Definition.Head
import MockTree.Directive.Standard
import MockTree.Json.Reader
import MockTree.Json.Writer
import MockTree.Value.Display
/-! What the body of a definition is: an override of the whole response, a file, or a template. -/
namespace MockTree.Definition
open Text Directive

inductive Content
  | override (entries : List (Scalar × Value))
  | file (path : String)
  | template (text : List Char)
  deriving Repr

/-- The path after a mark of a file, up to a semicolon. -/
def markedPath? : List Char → Option (List Char)
  | [] => none
  | c :: r =>
    match after? attachmentMark (c :: r) with
    | some rest =>
      let path := rest.takeWhile (· != ';')
      if path.isEmpty then markedPath? r else some (trim path)
    | none => markedPath? r

/-- The entries of a JSON text that is an override. -/
def overrideOf? (body : List Char) : Option (List (Scalar × Value)) :=
  match Json.read? body with
  | some (.map entries) =>
    match Value.field? overrideKey entries with
    | some (.text kind) => if kind == overrideKind then some entries else none
    | _ => none
  | _ => none

def Content.of (body : List Char) : Content :=
  match overrideOf? body with
  | some entries => .override entries
  | none =>
    match markedPath? body with
    | some path => .file (String.ofList path)
    | none => .template body

/-- The status an override gives, if it is one; what counts as false gives none. -/
def givenStatus? (v : Value) : Except Fault (Option Int) :=
  if !v.isTrue then .ok none
  else
    match v with
    | .int n => .ok (some n)
    | .bool b => .ok (some b.toNat)
    | .text s => .ok (Decimal.readInt? s.toList)
    | .real .nan => .ok none
    | .real x =>
      match x.truncate? with
      | some n => .ok (some n)
      | none => .error .overflow
    | _ => .ok none

/-- A body given by an override: collections as JSON, nothing for null, anything else as text. -/
def givenBody : Value → List Char
  | .null => []
  | .list items => Json.line (.list items)
  | .map entries => Json.line (.map entries)
  | v => v.plain

def applyOverride (r : Response) (entries : List (Scalar × Value)) : Except Fault Response := do
  let status ← givenStatus? ((Value.field? "status" entries).getD .null)
  let headers := match Value.field? "headers" entries with
    | some (.map hs) => hs.foldl (fun (r : Response) (h : Scalar × Value) =>
        r.setHeader (String.ofList h.1.plain) (String.ofList h.2.plain)) r
    | _ => r
  let body := givenBody ((Value.field? "body" entries).getD .null)
  pure { headers with
    status := status.getD r.status, body := String.ofList body, origin := .code }

end MockTree.Definition
