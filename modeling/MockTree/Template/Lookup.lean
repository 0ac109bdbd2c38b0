import MockTree.Template.Datum
import MockTree.Decimal.Reader
/-! Following a path through data: fields of mappings, places of lists, the special names of scopes,
and the attributes that values have. -/
namespace MockTree.Template

def mappingOperations : List String := ["clear", "copy", "fromkeys", "get", "items", "keys", "pop",
  "popitem", "setdefault", "update", "values"]

def textOperations : List String := ["capitalize", "casefold", "center", "count", "encode", "endswith",
  "expandtabs", "find", "format", "format_map", "index", "isalnum", "isalpha", "isascii", "isdecimal",
  "isdigit", "isidentifier", "islower", "isnumeric", "isprintable", "isspace", "istitle", "isupper",
  "join", "ljust", "lower", "lstrip", "maketrans", "partition", "removeprefix", "removesuffix",
  "replace", "rfind", "rindex", "rjust", "rpartition", "rsplit", "rstrip", "split", "splitlines",
  "startswith", "strip", "swapcase", "title", "translate", "upper", "zfill"]

def listOperations : List String := ["append", "clear", "copy", "count", "extend", "index", "insert",
  "pop", "remove", "reverse", "sort"]

def wholeOperations : List String := ["as_integer_ratio", "bit_count", "bit_length", "conjugate",
  "from_bytes", "to_bytes"]

def realOperations : List String := ["as_integer_ratio", "conjugate", "fromhex", "hex", "is_integer"]

def sinkOperations : List String := ["debug", "info", "warning", "warn", "error", "exception",
  "critical", "fatal", "log", "setLevel", "isEnabledFor", "getEffectiveLevel", "getChild",
  "hasHandlers", "addHandler", "removeHandler", "addFilter", "removeFilter", "handle", "filter",
  "callHandlers", "findCaller", "makeRecord"]

def operationIn (names : List String) (owner : Value) (name : String) : Option Datum :=
  if names.contains name then some (.operation owner name) else none

/-- The attribute of a whole number: its parts as a fraction and as a complex number. -/
def wholeAttribute? (n : Int) (name : String) : Option Datum :=
  if name == "real" || name == "numerator" then some (.value (.int n))
  else if name == "imag" then some (.value (.int 0))
  else if name == "denominator" then some (.value (.int 1))
  else operationIn wholeOperations (.int n) name

def sinkAttribute? (s : Sink) (name : String) : Option Datum :=
  if name == "name" then some (.value (.text s.name))
  else if name == "level" then some (.value (.int s.level))
  else if name == "propagate" then some (.value (.bool true))
  else if name == "disabled" then some (.value (.bool false))
  else if name == "handlers" || name == "filters" then some (.value (.list []))
  else operationIn sinkOperations (.scalar (.sink s)) name

/-- What a value has under a name besides its items. -/
def attribute? (v : Value) (name : String) : Option Datum :=
  match v with
  | .scalar (.bool b) => wholeAttribute? b.toNat name
  | .scalar (.int n) => wholeAttribute? n name
  | .scalar (.real _) =>
    if name == "real" then some (.value v)
    else if name == "imag" then some (.value (.real .zero))
    else operationIn realOperations v name
  | .scalar (.text _) => operationIn textOperations v name
  | .scalar (.sink s) => sinkAttribute? s name
  | .list _ => operationIn listOperations v name
  | .map _ => operationIn mappingOperations v name
  | _ => none

/-- The item or the attribute of that name, else null. -/
def pick (v : Value) (name : String) : Datum :=
  let item := match v with
    | .map entries => Value.field? name entries
    | _ => none
  match item with
  | some x => .value x
  | none => (attribute? v name).getD .null

/-- A field of a datum; scopes have names of their own and pass the others on to what they were
opened for. -/
def field (name : String) : Datum → Datum
  | .value v => pick v name
  | .safe _ => .null
  | .operation .. => .null
  | .scope here above root turn =>
    if name == "@root" then root
    else if name == "@_parent" then above
    else if name == "this" then here
    else
      let special := turn.bind fun t =>
        if name == "@index" then some (Datum.value (.int t.index))
        else if name == "@key" then t.key.map fun k => .value (.scalar k)
        else if name == "@first" then some (.value (.bool (t.index == 0)))
        else if name == "@last" then some (.value (.bool t.last))
        else none
      special.getD (field name here)

/-- The place of an item that a whole number names, negative ones counting from the end. -/
def placeOf? (length : Nat) (n : Int) : Option Nat :=
  let i := if n < 0 then n + length else n
  if 0 ≤ i && i < length then some i.toNat else none

def item (items : List Value) (n : Int) : Except Fault Value :=
  match (placeOf? items.length n).bind (items[·]?) with
  | some v => .ok v
  | none => .error .outOfRange

/-- One step of a path. -/
def step (name : String) : Datum → Except Fault Datum
  | .value (.list items) =>
    if name == "length" then .ok (.value (.int items.length))
    else
      match Decimal.readInt? name.toList with
      | some n => (item items n).map .value
      | none => .error .badValue
  | d => .ok (field name d)

def isNull : Datum → Bool
  | .value (.scalar .null) => true
  | _ => false

/-- The steps of a path; a doubled at sign gives its second to the name after it. -/
def follow (carried : Bool) : List String → Datum → Except Fault Datum
  | [], d => .ok d
  | s :: r, d =>
    let name := if carried then "@" ++ s else s
    let carries := name.startsWith "@@"
    let name := if carries then String.ofList (name.toList.drop 1) else name
    if isNull d then .ok d
    else if name == "" then follow carries r d
    else
      match step name d with
      | .ok x => follow carries r x
      | .error f => .error f

/-- The datum at the end of a path. The empty path of a scope is what it was opened for. -/
def resolve (segments : List String) (d : Datum) : Except Fault Datum :=
  match segments, d with
  | [""], .scope here _ _ _ => .ok here
  | _, _ => follow false segments d

/-- Whether a datum counts as true; a scope asks for the number of items in it. -/
def truth : Datum → Except Fault Bool
  | .value v => .ok v.isTrue
  | .safe _ => .ok true
  | .operation .. => .ok true
  | d =>
    match d.length? with
    | some n => .ok (n != 0)
    | none => .error .wrongType

/-- The outcome of an operation called with the data at hand and nothing else. -/
def operate (owner : Value) (name : String) (this : Datum) : Except Fault Datum :=
  match owner, this with
  | .scalar (.sink _), _ =>
    if ["debug", "info", "warning", "warn", "error", "exception", "critical", "fatal"].contains name
    then .ok .null else .error .wrongType
  | .map _, .scope .. =>
    if name == "get" || name == "setdefault" then .ok .null
    else if name == "pop" then .error .noKey
    else .error .wrongType
  | .scalar (.text s), .value (.map _) =>
    if name == "translate" then .ok (.value owner)
    else if name == "format" && !s.toList.any (fun c => c == '\x7b' || c == '\x7d') then
      .ok (.value owner)
    else .error .wrongType
  | _, _ => .error .wrongType

end MockTree.Template
