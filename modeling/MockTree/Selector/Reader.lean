import MockTree.Selector.Syntax
import MockTree.Value.Display
import MockTree.Text.Find
/-! Reading selectors. A bracket applies to all that is before it, and arithmetic binds least. -/
namespace MockTree.Selector
open Text

abbrev Reading (α : Type) := StateT (List Token) Option α

namespace Reading

def peek : Reading (Option Token) := do pure (← get).head?

def advance : Reading Unit := modify List.tail

def next : Reading Token := do
  match ← get with
  | t :: r => set r; pure t
  | [] => failure

def accept (t : Token) : Reading Bool := do
  if (← peek) == some t then advance; pure true else pure false

def expect (t : Token) : Reading Unit := do if ← accept t then pure () else failure

end Reading
open Reading

/-- Operators between paths. -/
inductive Joint where
  | anywhere
  | child
  | union
  | meet
  | only (holding : Bool)
  deriving DecidableEq

def Joint.ofToken? : Token → Option Joint
  | .anywhere => some .anywhere
  | .sign '.' => some .child
  | .sign '|' => some .union
  | .sign '&' => some .meet
  | .holding => some (.only true)
  | .lacking => some (.only false)
  | _ => none

/-- The higher it is, the tighter the operator binds. -/
def Joint.level : Joint → Nat
  | .anywhere => 1
  | .child => 2
  | .union => 3
  | .meet => 4
  | .only true => 5
  | .only false => 6

def Joint.apply : Joint → Selector → Selector → Selector
  | .anywhere => .anywhere
  | .child => .child
  | .union => .union
  | .meet => .meet
  | .only holding => .only holding

/-- Joins a path with those waiting to its left whose operators bind at least so tightly. -/
def settle (level : Nat) (path : Selector) :
    List (Selector × Joint) → Selector × List (Selector × Joint)
  | [] => (path, [])
  | (left, j) :: waiting =>
    if level ≤ j.level then settle level (j.apply left path) waiting
    else (path, (left, j) :: waiting)

/-- Names between commas, after the first. -/
def moreNames : Nat → Reading (List (List Char))
  | 0 => pure []
  | fuel + 1 => do
    match ← get with
    | .sign ',' :: .name s :: rest => do
      set rest
      pure (s :: (← moreNames fuel))
    | _ => pure []

def names (first : List Char) : Reading Selector := do
  pure (.fields (first :: (← moreNames (← get).length)))

def moreNumbers : Nat → Reading (List Int)
  | 0 => pure []
  | fuel + 1 => do
    match ← get with
    | .sign ',' :: .number n :: rest => do
      set rest
      pure (n :: (← moreNumbers fuel))
    | _ => pure []

def maybeNumber : Reading (Option Int) := do
  match ← peek with
  | some (.number n) => advance; pure (some n)
  | _ => pure none

/-- Indices, or a slice once a colon comes. -/
def numbers : Reading Selector := do
  let start ← maybeNumber
  if ← accept (.sign ':') then do
    let stop ← maybeNumber
    let step ← if ← accept (.sign ':') then maybeNumber else pure none
    pure (.slice start stop step)
  else
    match start with
    | some n => do pure (.items (n :: (← moreNumbers (← get).length)))
    | none => failure

/-- What may stand in brackets anywhere. -/
def bracket : Reading Selector := do
  match ← peek with
  | some (.sign '*') => advance; pure (.slice none none none)
  | some (.name s) => advance; names s
  | _ => numbers

/-- The forms of the operations that take arguments. -/
def splitForm : String :=
  "split(?:\\s+)?\\((?:\\s+)?(?P<quote>(?:(?:'|\")?))(.+)(?P=quote)(?:\\s+)?,(?:\\s+)?" ++
    "((?:(?:\\-)?\\d+|\\*))(?:\\s+)?,(?:\\s+)?((?:\\-)?\\d+)(?:\\s+)?\\)"
def replaceForm : String := "sub\\(/(.*)/,\\s+(.*)\\)"
def textForm : String := "str\\(\\)"

def groups? (form : String) (s : List Char) : Option (Nat → List Char) :=
  match Pattern.Regex.read form.toList with
  | .ok r => r.groupsAtStart? s
  | .error _ => none

def operation? (s : List Char) : Option Selector :=
  if s == "len".toList then some .length
  else if s == "keys".toList then some .keys
  else if s == "path".toList then some .location
  else if s == "sorted".toList then some .sorted
  else if s == "this".toList then some .here
  else if s == "parent".toList then some .above
  else if startsWith "split(".toList s then do
    let g ← groups? splitForm s
    let most ← Decimal.readInt? (g 4)
    some (.split (g 2) (if g 3 == ['*'] then none else Decimal.readInt? (g 3)) most)
  else if startsWith "sub(".toList s then do
    let g ← groups? replaceForm s
    match Pattern.Regex.read (trim (g 1)) with
    | .ok r => some (.replace r (trim (g 2)))
    | .error _ => none
  else if startsWith "str(".toList s then do
    let _ ← groups? textForm s
    some .text
  else none

def arithmetic? : Token → Option Arithmetic
  | .sign '+' => some .plus
  | .sign '-' => some .minus
  | .sign '*' => some .times
  | _ => none

/-- One name by itself serves as text in arithmetic. -/
def Operand.ofPath : Selector → Operand
  | .fields [s] => .literal (.text (String.ofList s))
  | p => .part p

def Operand.toPath? : Operand → Option Selector
  | .part p => some p
  | .literal (.text s) => some (.fields [s.toList])
  | .literal (.int n) => some (.fields [intText n])
  | .literal _ => none

def literal : Reading Scalar := do
  match ← next with
  | .name s => pure (.text (String.ofList s))
  | .number n => pure (.int n)
  | .real x => pure (.real x)
  | .truth b => pure (.bool b)
  | _ => failure

mutual

def operand : Nat → Reading Operand
  | 0 => failure
  | fuel + 1 => do
    match ← get with
    | .real x :: rest => do
      set rest
      pure (.literal (.real x))
    | .number n :: rest =>
      if (rest.head?.bind Joint.ofToken?).isSome || rest.head? == some (.sign '[') then do
        pure (.ofPath (← path fuel))
      else do
        set rest
        pure (.literal (.int n))
    | _ => do pure (.ofPath (← path fuel))

def expression : Nat → Reading Operand
  | 0 => failure
  | fuel + 1 => do
    let left ← operand fuel
    match (← peek).bind arithmetic? with
    | some op => do
      advance
      let right ← expression fuel
      pure (.part (.arithmetic op left right))
    | none => pure left

def selector : Nat → Reading Selector
  | 0 => failure
  | fuel + 1 => do (← expression fuel).toPath?

def path : Nat → Reading Selector
  | 0 => failure
  | fuel + 1 => do continuePath (← primary fuel) [] fuel

/-- The rest of a path, given its last part and the parts that wait to its left. -/
def continuePath (last : Selector) (waiting : List (Selector × Joint)) : Nat → Reading Selector
  | 0 => failure
  | fuel + 1 => do
    match ← peek with
    | some (.sign '[') => do
      advance
      let step ← postfixBracket fuel
      expect (.sign ']')
      continuePath (.child (settle 0 last waiting).1 step) [] fuel
    | some t =>
      match Joint.ofToken? t with
      | some j => do
        advance
        let (left, waiting) := settle j.level last waiting
        let next ← primary fuel
        continuePath next ((left, j) :: waiting) fuel
      | none => pure (settle 0 last waiting).1
    | none => pure (settle 0 last waiting).1

def primary : Nat → Reading Selector
  | 0 => failure
  | fuel + 1 => do
    match ← next with
    | .sign '$' => pure .root
    | .sign '@' => pure .here
    | .sign '*' => pure (.fields [['*']])
    | .name s => names s
    | .number n => pure (.fields [intText n])
    | .operation s => operation? s
    | .sign '(' => do
      let p ← selector fuel
      expect (.sign ')')
      pure p
    | .sign '[' => do
      let p ← bracket
      expect (.sign ']')
      pure p
    | _ => failure

/-- In brackets after a path there may also be a filter or a sort. -/
def postfixBracket : Nat → Reading Selector
  | 0 => failure
  | fuel + 1 => do
    match ← peek with
    | some (.sign '?') => do
      advance
      pure (.filter (← alternatives fuel))
    | some (.sort _) => do pure (.sortedBy (← orders fuel))
    | _ => bracket

def orders : Nat → Reading Orders
  | 0 => failure
  | fuel + 1 => do
    match ← peek with
    | some (.sort descending) => do
      advance
      let p ← selector fuel
      pure (.order p descending (← orders fuel))
    | _ => pure .done

def alternatives : Nat → Reading Test
  | 0 => failure
  | fuel + 1 => do
    let t ← conjunction fuel
    if ← accept .either then do pure (.either t (← alternatives fuel)) else pure t

def conjunction : Nat → Reading Test
  | 0 => failure
  | fuel + 1 => do
    let t ← test fuel
    match ← peek with
    | some (.sign '&') | some .both => do
      advance
      pure (.both t (← conjunction fuel))
    | _ => pure t

def test : Nat → Reading Test
  | 0 => failure
  | fuel + 1 => comparison fuel <|> do
    expect (.sign '(')
    let t ← alternatives fuel
    expect (.sign ')')
    pure t

def comparison : Nat → Reading Test
  | 0 => failure
  | fuel + 1 => do
    let p ← selector fuel
    match ← peek with
    | some (.compare c) => do
      advance
      pure (.compares p c (← literal))
    | _ => pure (.finds p)

end

def read? (s : List Char) : Option Selector := do
  let ts ← tokens? s
  let (p, rest) ← StateT.run (selector (12 * ts.length + 16)) ts
  if rest.isEmpty then some p else none

end MockTree.Selector
