import MockTree.Directive.Signature
import MockTree.Pattern.Matcher
import MockTree.Pattern.Reader
import MockTree.Selector.Reader
import MockTree.Selector.Query
/-! Parts of the request: of its query, its headers, its path and its body. -/
namespace MockTree.Directive
open Text

def captureSignature : Signature :=
  ⟨[("source", .null), ("key", .null), ("regex", .null), ("using", .null), ("selector", .null)],
    [("from", "source")]⟩

def noMatch : List Char := "No match found.".toList

/-- The value under a key; lists and mappings are no keys. -/
def lookupQuery (query : List (String × Value)) : Datum → Except Fault Value
  | .value (.text name) => .ok ((Request.named? name query).getD .null)
  | .value (.scalar _) | .scope .. | .operation .. => .ok .null
  | .value _ | .safe _ => .error .wrongType

/-- The header of a name, which must be text. -/
def lookupHeader (headers : List (String × Value)) : Datum → Except Fault Value
  | .value (.text name) => .ok ((Request.header? name headers).getD .null)
  | .value (.scalar _) | .scope .. | .operation .. => .error .noAttribute
  | .value _ | .safe _ => .error .wrongType

/-- The first group of a pattern in a text, or the whole match if no group took part. -/
def searchText (pattern : String) (text : List Char) : Except Fault Datum :=
  match Pattern.Regex.read pattern.toList with
  | .error .invalid => .ok (.text ("Invalid regex: ".toList ++ pattern.toList))
  | .error .tooManyTimes => .error .overflow
  | .error .contradiction => .error .badValue
  | .ok r =>
    match r.find? text with
    | none => .ok (.text noMatch)
    | some found =>
      if found.hasGroups then
        match found.group? 1 with
        | some s => .ok (.text s)
        | none => .ok .null
      else .ok (.text found.whole)

def search (pattern : Datum) (text : List Char) : Except Fault Datum :=
  match pattern with
  | .value (.text p) => searchText p text
  | _ => .error .wrongType

def isCollection : Value → Bool
  | .list _ | .map _ => true
  | _ => false

/-- What spots hold, between commas. It is not escaped if any of them is a collection. A spot outside
of everything holds nothing, and a number may be too long to have a text. -/
def spotsText (spots : List Selector.Spot) : Except Fault Datum :=
  if spots.any fun s => match s with | .nowhere => true | .at .. => false then .error .noAttribute
  else if spots.isEmpty then .ok (.text noMatch)
  else
    let values := spots.map Selector.Spot.value
    if values.any (!·.hasText) then .error .badValue
    else
      let text := joinWith [','] (values.map Body.stringify)
      .ok (if values.any isCollection then .safe text else .text text)

/-- What a selector finds in a value. -/
def select (selector : Datum) (v : Value) : Except Fault Datum :=
  let found := match selector with
    | .value (.text s) => (Selector.read? s.toList).bind (·.findIn v)
    | _ => none
  match found with
  | some spots => spotsText spots
  | none => .ok (.text ("Invalid jsonpath: ".toList ++ selector.plain))

/-- The text of a body that a pattern is searched in. -/
def bodyText : Value → List Char
  | .text s => s.toList
  | v => Json.write .indented 0 v

def captureBody (using' selector : Datum) (body : Value) : Except Fault Datum :=
  if isNull using' || isNull selector then
    .ok (.text "Please specify using and selector fields.".toList)
  else if isText "regex" using' then search selector (bodyText body)
  else if isText "jsonpath" using' then select selector body
  else .ok .null

def captured (request : Request) (arg : String → Datum) : Except Fault Datum :=
  let source := arg "source"
  let keyed (name : String) (look : Datum → Except Fault Value) : Except Fault Datum :=
    if isNull (arg "key") then .ok (.text ("Please specify a key with ".toList ++ name.toList))
    else (look (arg "key")).map fun v => .text (Body.stringify v)
  if isText "query" source then keyed "query" (lookupQuery request.query)
  else if isText "headers" source then keyed "headers" (lookupHeader request.headers)
  else if isText "path" source then
    if isNull (arg "regex") then .ok (.text "Please specify a regex with path".toList)
    else search (arg "regex") request.path.toList
  else if isText "body" source then captureBody (arg "using") (arg "selector") request.body
  else .ok .null

/-- A part of the request as text. -/
def capture : Directive := fun s call =>
  Render.ofExcept (captured s.request fun field => captureSignature.get field call.named)

end MockTree.Directive
