import MockTree.Decimal.Double
import MockTree.Calendar.Moment
/-! The data a definition and a request are made of: scalars, lists, mappings that keep the order of
their keys, and sets. A list or a mapping may stand in itself. -/
namespace MockTree
open Calendar

/-- A destination for messages: its name and the least severity it was given, 0 for none. -/
structure Sink where
  name : String
  level : Nat
  /-- The severity in force when none was given. -/
  inherited : Nat
  deriving DecidableEq, Repr

inductive Scalar
  | null
  | bool (b : Bool)
  | int (n : Int)
  | real (x : Double)
  | text (s : String)
  | bytes (bs : List UInt8)
  | date (d : Date)
  | moment (t : Moment)
  | sink (s : Sink)
  /-- Data that holds itself: in this place is the list or the mapping that it stands in, so many up. -/
  | enclosing (isMap : Bool) (up : Nat)
  deriving DecidableEq, Repr

inductive Value
  | scalar (s : Scalar)
  | list (items : List Value)
  | map (entries : List (Scalar × Value))
  | set (members : List Scalar)
  deriving Repr

namespace Value

@[match_pattern] abbrev null : Value := .scalar .null
@[match_pattern] abbrev bool (b : Bool) : Value := .scalar (.bool b)
@[match_pattern] abbrev int (n : Int) : Value := .scalar (.int n)
@[match_pattern] abbrev real (x : Double) : Value := .scalar (.real x)
@[match_pattern] abbrev text (s : String) : Value := .scalar (.text s)
@[match_pattern] abbrev bytes (bs : List UInt8) : Value := .scalar (.bytes bs)

instance : Inhabited Value := ⟨.null⟩

def ofChars (s : List Char) : Value := .text (String.ofList s)

end Value

namespace Scalar

/-- The number a scalar stands for: true is one and false is zero. -/
def number? : Scalar → Option (Int ⊕ Double)
  | .bool b => some (.inl b.toNat)
  | .int n => some (.inl n)
  | .real x => some (.inr x)
  | _ => none

def compareNumbers? : Int ⊕ Double → Int ⊕ Double → Option Ordering
  | .inl a, .inl b => some (compare a b)
  | .inl a, .inr y => (y.compareInt? a).map Ordering.swap
  | .inr x, .inl b => x.compareInt? b
  | .inr x, .inr y => x.compare? y

/-- Two moments are the same if both clocks are known and they are the same instant, or neither is. -/
def sameMoment (s t : Moment) : Bool :=
  s.offset.isSome == t.offset.isSome && s.epochMicros == t.epochMicros

/-- Equality of values: numbers of any kind by their value, everything else by kind. -/
def same (a b : Scalar) : Bool :=
  match a.number?, b.number? with
  | some x, some y => compareNumbers? x y == some .eq
  | none, none =>
    match a, b with
    | .moment s, .moment t => sameMoment s t
    | a, b => a == b
  | _, _ => false

end Scalar

/-! Mappings are lists of pairs, one pair for a key, in the order in which the keys came. -/
namespace Value

def find? (key : Scalar) : List (Scalar × Value) → Option Value
  | [] => none
  | (k, v) :: r => if k.same key then some v else find? key r

/-- A new key goes to the end; an old one keeps its place and its spelling. -/
def insert (key : Scalar) (value : Value) : List (Scalar × Value) → List (Scalar × Value)
  | [] => [(key, value)]
  | (k, v) :: r => if k.same key then (k, value) :: r else (k, v) :: insert key value r

def field? (name : String) (entries : List (Scalar × Value)) : Option Value :=
  find? (.text name) entries

def ofPairs (pairs : List (Scalar × Value)) : List (Scalar × Value) :=
  pairs.foldl (fun m (k, v) => insert k v m) []

/-- Nothing, zero and what is empty count as false. -/
def isTrue : Value → Bool
  | .scalar s =>
    match s with
    | .null => false
    | .bool b => b
    | .int n => n != 0
    | .real x => !x.isZero
    | .text s => !s.isEmpty
    | .bytes bs => !bs.isEmpty
    | _ => true
  | .list items => !items.isEmpty
  | .map entries => !entries.isEmpty
  | .set members => !members.isEmpty

end Value
end MockTree
