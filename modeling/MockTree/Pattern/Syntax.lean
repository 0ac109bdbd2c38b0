import MockTree.Pattern.Charset
/-! Patterns: what they are made of and how many characters they take. -/
namespace MockTree.Pattern

/-- A place in the text; word edges know letters of ASCII only, or of any script. -/
inductive Anchor where
  | textStart
  | textEnd
  | lastLineEnd
  | lineStart
  | lineEnd
  | wordEdge (ascii : Bool)
  | noWordEdge (ascii : Bool)
  deriving DecidableEq, Repr

/-- Whether a repetition first tries more, first tries to stop, or never gives back. -/
inductive Greed where
  | greedy
  | lazy
  | possessive
  deriving DecidableEq, Repr

inductive Regex where
  | empty
  | chars (set : Charset)
  | anchor (a : Anchor)
  | seq (first second : Regex)
  | alt (first second : Regex)
  | group (number : Nat) (body : Regex)
  | repetition (body : Regex) (low : Nat) (high : Option Nat) (greed : Greed)
  | atomic (body : Regex)
  | ahead (holds : Bool) (body : Regex)
  | behind (holds : Bool) (width : Nat) (body : Regex)
  | sameAs (group : Nat) (folding : Folding)
  | choice (group : Nat) (present absent : Regex)
  deriving Repr

/-- The least number of characters and the greatest, if there is one. -/
structure Width where
  low : Nat
  high : Option Nat
  deriving DecidableEq, Repr

namespace Width

def plus (a b : Width) : Width := ⟨a.low + b.low, do pure ((← a.high) + (← b.high))⟩

def join (a b : Width) : Width := ⟨min a.low b.low, do pure (max (← a.high) (← b.high))⟩

def times (w : Width) (low : Nat) (high : Option Nat) : Width :=
  ⟨w.low * low, match w.high, high with
    | some 0, _ => some 0
    | _, some 0 => some 0
    | some n, some m => some (n * m)
    | _, _ => none⟩

/-- The number of characters, where it is always the same. -/
def fixed? (w : Width) : Option Nat := if w.high == some w.low then some w.low else none

end Width

/-- The width of a pattern, given that of each group it refers back to. -/
def Regex.width (groups : Nat → Width) : Regex → Width
  | .empty | .anchor _ | .ahead .. | .behind .. => ⟨0, some 0⟩
  | .chars _ => ⟨1, some 1⟩
  | .seq a b => (a.width groups).plus (b.width groups)
  | .alt a b => (a.width groups).join (b.width groups)
  | .group _ r | .atomic r => r.width groups
  | .repetition r low high _ => (r.width groups).times low high
  | .sameAs n _ => groups n
  | .choice _ a b => (a.width groups).join (b.width groups)

def Regex.ofList : List Regex → Regex
  | [] => .empty
  | [r] => r
  | r :: rs => .seq r (ofList rs)

end MockTree.Pattern
