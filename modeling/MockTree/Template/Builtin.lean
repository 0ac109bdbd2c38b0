import MockTree.Template.Lookup
/-! The directives every template has: conditions, loops, changes of scope, look-up, and what stands in
for a directive that is missing. -/
namespace MockTree.Template

/-- The arguments for parameters of these names, given by position and then by name. -/
def bind : List String → List Datum → List (String × Datum) → Except Fault (List Datum)
  | [], [], named => if named.isEmpty then .ok [] else .error .wrongType
  | [], _ :: _, _ => .error .wrongType
  | p :: ps, d :: ds, named =>
    if (Request.named? p named).isSome then .error .wrongType
    else (bind ps ds named).map (d :: ·)
  | p :: ps, [], named =>
    match Request.named? p named with
    | some d => (bind ps [] (named.filter (·.1 != p))).map (d :: ·)
    | none => .error .wrongType

/-- What a block offers, printed for a datum; nothing if there is no text for it. -/
def printed (r : Render (Option (List Char))) : Render Datum := do
  match ← r with
  | some s => pure (.safe s)
  | none => pure .null

/-- An operation is called; any other datum is itself. -/
def called (this : Datum) : Datum → Except Fault Datum
  | .operation owner name => operate owner name this
  | d => .ok d

/-- The items of a datum in order, with their keys if it is a mapping. -/
def loopItems : Datum → List (Datum × Option Scalar)
  | .value (.scalar (.text s)) => s.toList.map fun c => (.text [c], none)
  | .value (.scalar (.bytes bs)) => bs.map fun b => (.value (.int b.toNat), none)
  | .value (.list items) => items.map fun v => (.value v, none)
  | .value (.map entries) => entries.map fun (k, v) => (.value v, some k)
  | .value (.set members) => members.map fun m => (.value (.scalar m), none)
  | .safe s => [(.text s, none)]
  | .scope here _ _ _ =>
    match here.inner with
    | .value (.list items) => items.map fun v => (.value v, none)
    | _ => []
  | _ => []

/-- One turn of a loop; a value of the wrong type in it leaves the turn empty. -/
def turnText (b : Block) (this : Datum) (x : Datum) (turn : Turn) : Render (List Char) :=
  tryCatch (do pure ((← b.body (.scope x this b.root (some turn))).getD []))
    fun f => if f == .wrongType then pure [] else throw f

def turns (b : Block) (this : Datum) : Nat → List (Datum × Option Scalar) → Render (List Char)
  | _, [] => pure []
  | i, (x, key) :: r => do
    let s ← turnText b this x ⟨i, r.isEmpty, key⟩
    let t ← turns b this (i + 1) r
    pure (s ++ t)

def loop (b : Block) (this items : Datum) : Render Datum :=
  if items.length?.getD 0 == 0 then printed (b.alternative this)
  else do pure (.safe (← turns b this 0 (loopItems items)))

def condition (b : Block) (this c : Datum) : Render Datum := do
  let c ← Render.ofExcept (called this c)
  if ← Render.ofExcept (truth c) then printed (b.body this) else printed (b.alternative this)

/-- A block without its alternative, printed where the condition fails. -/
def contrary (b : Block) (this c : Datum) : Render Datum := do
  if ← Render.ofExcept (truth c) then pure .null else printed (b.body this)

/-- A block named for data: empty data gives the alternative, a list its items, true the scope at hand
and anything else a scope of its own. -/
def dataBlock (b : Block) (this c : Datum) : Render Datum := do
  let c ← Render.ofExcept (called this c)
  let isEmptyText := match c with
    | .value (.scalar (.text s)) => s.isEmpty
    | _ => false
  let full ← Render.ofExcept (truth c)
  if !isEmptyText && !full then printed (b.alternative this)
  else
    match c with
    | .value (.list _) => loop b this c
    | .safe _ => loop b this c
    | .value (.scalar (.bool true)) => printed (b.body this)
    | c => printed (b.body c)

/-- Something that is no block was given where a block's renderings are asked for. -/
def notBlock : Datum → Fault
  | .value (.map _) => .noKey
  | _ => .wrongType

/-- A directive of a block and one argument. Called without a block it takes its first argument for
one, and fails, unless the answer needs none. -/
def blockDirective (f : Block → Datum → Datum → Render Datum)
    (needless : Datum → Except Fault Bool) : Directive := fun _ call =>
  match call.block with
  | some b => do
    match ← Render.ofExcept (bind ["context"] call.positional call.named) with
    | [c] => f b call.this c
    | _ => throw .wrongType
  | none => do
    match ← Render.ofExcept (bind ["options", "context"] call.positional call.named) with
    | [options, c] =>
      if ← Render.ofExcept (needless c) then pure .null else throw (notBlock options)
    | _ => throw .wrongType

def always (b : Bool) (_ : Datum) : Except Fault Bool := .ok b

/-- The item of a datum under a key, null if there is none. -/
def itemOf (d key : Datum) : Datum :=
  match d, key with
  | .value (.map entries), .value (.scalar k) => (Value.find? k entries).elim .null .value
  | .value (.list items), .value (.scalar (.int n)) =>
    match item items n with
    | .ok v => .value v
    | .error _ => .null
  | .value (.list items), .value (.scalar (.bool b)) => (items[b.toNat]?).elim .null .value
  | .value (.scalar (.text s)), .value (.scalar (.int n)) =>
    match (placeOf? s.length n).bind (s.toList[·]?) with
    | some c => .text [c]
    | none => .null
  | .value (.scalar (.text s)), .value (.scalar (.bool b)) =>
    (s.toList[b.toNat]?).elim .null fun c => .text [c]
  | .scope here above root turn, .value (.scalar (.text name)) =>
    field name (.scope here above root turn)
  | .safe s, .value (.scalar (.int n)) => if n == 0 || n == -1 then .text s else .null
  | _, _ => .null

/-- Two arguments; a block counts as the first of them. -/
def lookupDirective : Directive := fun _ call => do
  match call.block with
  | some _ =>
    let _ ← Render.ofExcept (bind ["key"] call.positional call.named)
    pure .null
  | none =>
    match ← Render.ofExcept (bind ["context", "key"] call.positional call.named) with
    | [d, key] => pure (itemOf d key)
    | _ => throw .wrongType

/-- One argument, which prints nothing; a block may stand for it. -/
def logDirective : Directive := fun _ call => do
  let params := if call.block.isSome then [] else ["context"]
  let _ ← Render.ofExcept (bind params call.positional call.named)
  pure .null

/-- The outcome of a tag whose name means nothing. -/
def missing (name : String) (positional : List Datum) (named : List (String × Datum)) :
    Except Fault Datum :=
  if !named.isEmpty then .error .wrongType
  else if positional.isEmpty then .ok .null
  else .error (.report ("Could not find property " ++ name))

def missingDirective : Directive := fun _ call => do
  match call.positional with
  | name :: r => Render.ofExcept (missing (String.ofList name.plain) r call.named)
  | [] => throw .wrongType

def builtins : Registry := [
  ("if", blockDirective condition (always false)),
  ("unless", blockDirective contrary truth),
  ("each", blockDirective loop (always false)),
  ("with", blockDirective (fun b _ c => printed (b.body c)) (always false)),
  ("blockHelperMissing", blockDirective dataBlock (always false)),
  ("lookup", lookupDirective),
  ("log", logDirective),
  ("helperMissing", missingDirective)]

end MockTree.Template
