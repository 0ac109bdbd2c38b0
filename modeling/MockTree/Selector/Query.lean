import MockTree.Selector.Syntax
import MockTree.Value.Display
import MockTree.Value.Order
import MockTree.Text.Find
/-! What a selector finds in a value. A selector that asks for what its value cannot do finds nothing
at all, not even what other parts of it would find. -/
namespace MockTree.Selector
open Text

/-- A part of a value, where it is, and the part that it is in. -/
inductive Spot where
  | nowhere
  | at (value : Value) (location : List Char) (above : Spot)

def thisName : List Char := '\x60' :: "this".toList ++ ['\x60']

namespace Spot

/-- A value by itself. -/
def of (v : Value) : Spot := .at v thisName .nowhere

def value : Spot → Value
  | .nowhere => .null
  | .at v _ _ => v

def location : Spot → List Char
  | .nowhere => thisName
  | .at _ l _ => l

def above : Spot → Spot
  | .nowhere => .nowhere
  | .at _ _ a => a

/-- The value that everything is in. -/
def top : Spot → Spot
  | .nowhere => .at .null ['$'] .nowhere
  | .at v _ .nowhere => .at v ['$'] .nowhere
  | .at _ _ a => a.top

end Spot

def operationName (s : String) : List Char := '\x60' :: s.toList ++ ['\x60']

/-- A name as a location shows it: in quotes if it holds a sign. -/
def nameShown (s : List Char) : List Char :=
  if s.any "*.[]()$,:|&~".toList.contains then '\'' :: s ++ ['\''] else s

def indexShown (n : Int) : List Char := '[' :: intText n ++ [']']

/-- An index from the start, or from the end if it is negative. -/
def position? (length : Nat) (n : Int) : Option Nat :=
  if 0 ≤ n then if n < length then some n.toNat else none
  else if 0 ≤ n + length then some (n + length).toNat else none

/-- A bound of a slice, brought within the list. -/
def clampBound (low high : Int) (length : Nat) (n : Int) : Int :=
  let n := if n < 0 then n + length else n
  max low (min high n)

/-- The indices of a slice; a step cannot be zero. -/
def sliceIndices? (length : Nat) (start stop step : Option Int) : Option (List Nat) :=
  let step := step.getD 1
  if step == 0 then none
  else if 0 < step then
    let a := (start.map (clampBound 0 length length)).getD 0
    let b := (stop.map (clampBound 0 length length)).getD length
    some ((List.range length).filter fun i =>
      decide (a ≤ i) && decide ((i : Int) < b) && (i - a) % step == 0)
  else
    let a := (start.map (clampBound (-1) (length - 1) length)).getD (length - 1)
    let b := (stop.map (clampBound (-1) (length - 1) length)).getD (-1)
    some ((List.range length).reverse.filter fun i =>
      decide ((i : Int) ≤ a) && decide (b < i) && (a - i) % step == 0)

/-- The names of a mapping's entries, in order. -/
def keyNames (entries : List (Scalar × Value)) : List (List Char) := entries.map (·.1.plain)

/-- A star stands for all names, and in a list for all items. -/
def findFields (names : List (List Char)) (s : Spot) : List Spot :=
  match s.value with
  | .map entries =>
    let names := if names.contains ['*'] then keyNames entries else names
    names.filterMap fun n =>
      (Value.field? (String.ofList n) entries).map fun v => .at v (nameShown n) s
  | .list vs =>
    if names.contains ['*'] then vs.zipIdx.map fun (v, i) => .at v (indexShown i) s else []
  | _ => []

def findItems (indices : List Int) (s : Spot) : List Spot :=
  match s.value with
  | .list vs => indices.filterMap fun n => do
    let i ← position? vs.length n
    (vs[i]?).map fun v => .at v (indexShown n) s
  | _ => []

def sliceOf? (start stop step : Option Int) (vs : List Value) (s : Spot) : Option (List Spot) := do
  let indices ← sliceIndices? vs.length start stop step
  pure (indices.filterMap fun (i : Nat) => (vs[i]?).map fun v => .at v (indexShown i) s)

/-- A slice of what is no list is one of the list of it alone, unless it counts as false. -/
def findSlice (start stop step : Option Int) (s : Spot) : Option (List Spot) :=
  match s.value with
  | .list vs => sliceOf? start stop step vs s
  | v =>
    if v.isTrue then sliceOf? start stop step [v] (.at (.list [v]) s.location s.above) else some []

def findLength (s : Spot) : List Spot :=
  let found (n : Nat) := [Spot.at (.int n) (operationName "len") .nowhere]
  match s.value with
  | .text t => found t.length
  | .list vs => found vs.length
  | .map entries => found entries.length
  | _ => []

def findKeys (s : Spot) : List Spot :=
  match s.value with
  | .map entries => entries.map fun (k, _) => .at (.scalar k) (operationName "keys") .nowhere
  | _ => []

/-- The pieces between separators, at most so many cuts being made unless that is negative. -/
def pieces (separator : List Char) (most : Int) : Nat → List Char → List (List Char)
  | 0, s => [s]
  | fuel + 1, s =>
    if most == 0 then [s]
    else
      match cutText? separator s with
      | some (a, b) => a :: pieces separator (most - 1) fuel b
      | none => [s]

def findPiece (separator : List Char) (piece : Option Int) (most : Int) (s : Spot) : List Spot :=
  match s.value with
  | .text t =>
    let ps := pieces separator most t.length t.toList
    match piece with
    | none => [.of (.list (ps.map .ofChars))]
    | some n =>
      match (position? ps.length n).bind (ps[·]?) with
      | some p => [.of (.ofChars p)]
      | none => []
  | _ => []

def findReplaced (pattern : Pattern.Regex) (replacement : List Char) (s : Spot) : Option (List Spot) :=
  match s.value with
  | .text t => do
    let ps ← Pattern.Piece.readAll? replacement
    if ps.any fun p => match p with | .group n => pattern.lastGroup < n | .text _ => false then none
    else
      let u := pattern.replace ps t.toList
      pure (if u == t.toList then [] else [.of (.ofChars u)])
  | _ => none

/-- A mapping is sorted by its keys, of which a list is made. -/
def findSorted (s : Spot) : Option (List Spot) :=
  match s.value with
  | .list vs => do pure [.of (.list (← Value.sortBy? Value.before? vs))]
  | .map entries => do
    pure [.of (.list (← Value.sortBy? Value.before? (entries.map fun (k, _) => .scalar k)))]
  | _ => none

/-- Compares two values as they are. -/
def compareValues? (c : Comparison) (a b : Value) : Option Bool :=
  match c with
  | .equal => some (a.same b)
  | .different => some (!a.same b)
  | .less => a.before? b
  | .more => b.before? a
  | .atMost => (a.before? b).map (· || a.same b)
  | .atLeast => (b.before? a).map (· || a.same b)
  | .fits =>
    match a, b with
    | .text s, .text p =>
      match Pattern.Regex.read p.toList with
      | .ok r => some (r.find? s.toList).isSome
      | .error _ => none
    | .text _, _ => none
    | _, _ => some false

/-- What a value is as a whole number; text that is none does not compare. -/
inductive Whole where
  | number (n : Int)
  | noNumber
  | impossible

def Whole.of : Value → Whole
  | .int n => .number n
  | .bool b => .number b.toNat
  | .real x =>
    match x.truncate?, x with
    | some n, _ => .number n
    | none, .nan => .noNumber
    | none, _ => .impossible
  | .text s =>
    match Decimal.readInt? s.toList with
    | some n => .number n
    | none => .noNumber
  | _ => .impossible

/-- A whole bound makes a whole number of what it is compared with. -/
def compares? (c : Comparison) (bound : Scalar) (v : Value) : Option Bool :=
  match bound with
  | .int _ | .bool _ =>
    match Whole.of v with
    | .number n => compareValues? c (.int n) (.scalar bound)
    | .noNumber => some false
    | .impossible => none
  | _ => compareValues? c v (.scalar bound)

/-- The result of arithmetic; none where the values have no such operation. -/
inductive Outcome where
  | done (v : Value)
  | undefined
  | tooLarge

def toDouble? : Int ⊕ Double → Option Double
  | .inl n => match Double.ofInt n with | .infinite _ => none | x => some x
  | .inr x => some x

def numeric (op : Arithmetic) : Int ⊕ Double → Int ⊕ Double → Outcome
  | .inl a, .inl b => .done (.int (match op with | .plus => a + b | .minus => a - b | .times => a * b))
  | x, y =>
    match toDouble? x, toDouble? y with
    | some a, some b =>
      .done (.real (match op with | .plus => a.add b | .minus => a.sub b | .times => a.mul b))
    | _, _ => .tooLarge

def repeated (n : Int) (xs : List α) : List α := (List.replicate n.toNat xs).flatten

def calculate (op : Arithmetic) (a b : Value) : Outcome :=
  let number? : Value → Option (Int ⊕ Double)
    | .scalar s => s.number?
    | _ => none
  match number? a, number? b with
  | some x, some y => numeric op x y
  | some (.inl n), none =>
    match op, b with
    | .times, .text s => .done (.ofChars (repeated n s.toList))
    | .times, .list xs => .done (.list (repeated n xs))
    | _, _ => .undefined
  | none, some (.inl n) =>
    match op, a with
    | .times, .text s => .done (.ofChars (repeated n s.toList))
    | .times, .list xs => .done (.list (repeated n xs))
    | _, _ => .undefined
  | none, none =>
    match op, a, b with
    | .plus, .text s, .text t => .done (.text (s ++ t))
    | .plus, .list xs, .list ys => .done (.list (xs ++ ys))
    | _, _, _ => .undefined
  | _, _ => .undefined

/-- The results for pairs of values; if one is undefined there is none at all. -/
def calculateAll (op : Arithmetic) : List (Value × Value) → Option (List Spot)
  | pairs => do
    let results ← pairs.mapM fun (a, b) =>
      match calculate op a b with
      | .done v => some (some (Spot.of v))
      | .undefined => some none
      | .tooLarge => none
    pure ((results.mapM id).getD [])

mutual

/-- What a finder finds in a value and in everything inside it, outermost first. -/
def everywhere (f : Spot → Option (List Spot)) (location : List Char) (above : Spot) :
    Value → Option (List Spot)
  | .list vs => do
    let here := Spot.at (.list vs) location above
    pure ((← f here) ++ (← everywhereItems f here 0 vs))
  | .map entries => do
    let here := Spot.at (.map entries) location above
    pure ((← f here) ++ (← everywhereEntries f here entries))
  | v => f (.at v location above)

def everywhereItems (f : Spot → Option (List Spot)) (above : Spot) (index : Nat) :
    List Value → Option (List Spot)
  | [] => some []
  | v :: r => do
    pure ((← everywhere f (indexShown index) above v) ++ (← everywhereItems f above (index + 1) r))

def everywhereEntries (f : Spot → Option (List Spot)) (above : Spot) :
    List (Scalar × Value) → Option (List Spot)
  | [] => some []
  | (k, v) :: r => do
    pure ((← everywhere f (nameShown k.plain) above v) ++ (← everywhereEntries f above r))

end

def flatMapM? (f : Spot → Option (List Spot)) (spots : List Spot) : Option (List Spot) := do
  pure (← spots.mapM f).flatten

/-- The values of a mapping are filtered like the items of a list. -/
def filterItems? (holds : Value → Option Bool) (s : Spot) : Option (List Spot) :=
  let go (vs : List Value) (s : Spot) : Option (List Spot) := do
    let marked ← (vs.zipIdx).mapM fun (v, i) => do
      pure (if ← holds v then some (Spot.at v (indexShown i) s) else none)
    pure (marked.filterMap id)
  match s.value with
  | .list vs => go vs s
  | .map entries =>
    let vs := entries.map (·.2)
    go vs (.at (.list vs) s.location s.above)
  | _ => some []

mutual

def find : Selector → Spot → Option (List Spot)
  | .root, s => some [s.top]
  | .here, s => some [match s with | .nowhere => .of .null | s => s]
  | .above, s => some [s.above]
  | .fields names, s => some (findFields names s)
  | .items indices, s => some (findItems indices s)
  | .slice a b c, s => findSlice a b c s
  | .length, s => some (findLength s)
  | .keys, s => some (findKeys s)
  | .location, s => some [.at (.ofChars s.location) (operationName "path") s]
  | .text, s => if s.value.hasText then some [.of (.ofChars s.value.plain)] else none
  | .split separator piece most, s => some (findPiece separator piece most s)
  | .replace pattern replacement, s => findReplaced pattern replacement s
  | .sorted, s => findSorted s
  | .sortedBy orders, s =>
    match s.value with
    | .list vs => do
      pure [.of (.list (← Value.sortBy? (fun a b => comesBefore? orders (.of a) (.of b)) vs))]
    | _ => none
  | .child outer inner, s => do flatMapM? (find inner) (← find outer s)
  | .anywhere outer inner, s => do
    flatMapM? (fun t => everywhere (find inner) t.location t.above t.value) (← find outer s)
  | .union a b, s => do pure ((← find a s) ++ (← find b s))
  | .meet _ _, _ => none
  | .only holding outer test, s => do
    let marked ← (← find outer s).mapM fun t => do
      pure (if (← find test t).isEmpty == holding then none else some t)
    pure (marked.filterMap id)
  | .filter t, s => filterItems? (fun v => passes? t (.of v)) s
  | .arithmetic op left right, s => do
    match ← operandValues left s, ← operandValues right s with
    | .inl a, .inl b => calculateAll op [(a, b)]
    | .inl a, .inr bs => calculateAll op (bs.map (a, ·))
    | .inr as, .inl b => calculateAll op (as.map (·, b))
    | .inr as, .inr bs => if as.length == bs.length then calculateAll op (as.zip bs) else some []

/-- A literal is one value by itself; a path gives those it finds. -/
def operandValues : Operand → Spot → Option (Value ⊕ List Value)
  | .literal v, _ => some (.inl (.scalar v))
  | .part p, s => do pure (.inr ((← find p s).map Spot.value))

/-- Whether an item comes before another by the first order that tells them apart; an order that does
not find one value in each of them does not. -/
def comesBefore? : Orders → Spot → Spot → Option Bool
  | .done, _, _ => some false
  | .order p descending rest, a, b => do
    match ← find p a, ← find p b with
    | [x], [y] =>
      if x.value.same y.value then comesBefore? rest a b
      else pure ((← x.value.before? y.value) != descending)
    | _, _ => comesBefore? rest a b

def passes? : Test → Spot → Option Bool
  | .finds p, s => do pure !(← find p s).isEmpty
  | .compares p c bound, s => do
    pure ((← (← find p s).mapM fun t => compares? c bound t.value).any id)
  | .both a b, s => do
    let x ← passes? a s
    let y ← passes? b s
    pure (x && y)
  | .either a b, s => do if ← passes? a s then pure true else passes? b s

end

/-- What a selector finds in a value. -/
def findIn (p : Selector) (v : Value) : Option (List Spot) := find p (.at v ['$'] .nowhere)

end MockTree.Selector
