import MockTree.Fault
import MockTree.Request
/-! What template tags work on: values, text that needs no escaping, the scopes that blocks open, and
the named operations of a value. -/
namespace MockTree

/-- Where a loop stands. -/
structure Turn where
  index : Nat
  last : Bool
  key : Option Scalar
  deriving Repr

inductive Datum
  | value (v : Value)
  | safe (s : List Char)
  | scope (here above root : Datum) (turn : Option Turn)
  | operation (owner : Value) (name : String)
  deriving Repr

namespace Datum

@[match_pattern] abbrev null : Datum := .value .null

instance : Inhabited Datum := ⟨.null⟩

def text (s : List Char) : Datum := .value (.ofChars s)

/-- The value that a scope was opened for. -/
def inner : Datum → Datum
  | .scope here _ _ _ => here.inner
  | d => d

/-- A datum as plain text. -/
def plain : Datum → List Char
  | .value v => v.plain
  | .safe s => s
  | .scope here _ _ _ => here.plain
  | .operation _ name => name.toList

/-- The number of items, for what has items. -/
def length? : Datum → Option Nat
  | .value (.scalar (.text s)) => some s.length
  | .value (.scalar (.bytes bs)) => some bs.length
  | .value (.list items) => some items.length
  | .value (.map entries) => some entries.length
  | .value (.set members) => some members.length
  | .safe _ => some 1
  | .scope here _ _ _ => here.length?
  | _ => none

end Datum

/-- A computation of a template: it may fail, and takes random draws one after another whether it
fails or not. The state is the number of draws taken. -/
abbrev Render := ExceptT Fault (StateM Nat)

/-- What a template can know besides its own text. -/
structure Setting where
  request : Request
  sink : Sink
  now : Calendar.Moment
  uuid : String
  draws : Nat → Nat
  files : FileTree

namespace Render

def fault {α : Type} (f : Fault) : Render α := throw f

def ofExcept {α : Type} : Except Fault α → Render α
  | .ok a => pure a
  | .error f => throw f

/-- The next random draw. -/
def draw (s : Setting) : Render Nat := do
  let n ← get
  set (n + 1)
  pure (s.draws n)

end Render

/-- The two renderings that a block offers, each for a datum; none if the template has no text for it. -/
structure Block where
  body : Datum → Render (Option (List Char))
  alternative : Datum → Render (Option (List Char))
  root : Datum

/-- How a directive is called. -/
structure Call where
  this : Datum
  block : Option Block
  positional : List Datum
  named : List (String × Datum)

/-- A named operation of templates. -/
abbrev Directive := Setting → Call → Render Datum

/-- The directives that templates can use, by name. -/
abbrev Registry := List (String × Directive)

def Registry.find? (name : String) (r : Registry) : Option Directive := Request.named? name r

def Registry.register (name : String) (d : Directive) : Registry → Registry
  | [] => [(name, d)]
  | (n, e) :: r => if n == name then (n, d) :: r else (n, e) :: Registry.register name d r

end MockTree
