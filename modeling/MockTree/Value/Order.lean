import MockTree.Value.Basic
/-! Equality and order of values. Numbers and texts have an order, and lists have the order of their
first difference; nothing else compares. -/
namespace MockTree
namespace Value

mutual

/-- Mappings are the same in any order of their keys. -/
def same : Value → Value → Bool
  | .scalar a, .scalar b => a.same b
  | .list xs, .list ys => sameItems xs ys
  | .map xs, .map ys => xs.length == ys.length && sameEntries xs ys
  | .set xs, .set ys => xs.length == ys.length && xs.all fun x => ys.any x.same
  | _, _ => false

def sameItems : List Value → List Value → Bool
  | [], [] => true
  | x :: xs, y :: ys => x.same y && sameItems xs ys
  | _, _ => false

/-- Whether every entry is in the other mapping too. -/
def sameEntries : List (Scalar × Value) → List (Scalar × Value) → Bool
  | [], _ => true
  | (k, v) :: r, ys => (match find? k ys with | some w => v.same w | none => false) && sameEntries r ys

end

mutual

/-- Whether one value comes before another, for values that compare. -/
def before? : Value → Value → Option Bool
  | .scalar a, .scalar b =>
    match a.number?, b.number? with
    | some x, some y => some (Scalar.compareNumbers? x y == some .lt)
    | _, _ =>
      match a, b with
      | .text s, .text t => some (s < t)
      | _, _ => none
  | .list xs, .list ys => beforeItems? xs ys
  | _, _ => none

def beforeItems? : List Value → List Value → Option Bool
  | [], ys => some (!ys.isEmpty)
  | _ :: _, [] => some false
  | x :: xs, y :: ys => if x.same y then beforeItems? xs ys else x.before? y

end

/-- Puts an item behind those it does not come before. -/
def insertBy? {α : Type} (before? : α → α → Option Bool) (x : α) : List α → Option (List α)
  | [] => some [x]
  | y :: r => do
    if ← before? x y then pure (x :: y :: r) else pure (y :: (← insertBy? before? x r))

/-- The items in order; equals stay in theirs. -/
def sortBy? {α : Type} (before? : α → α → Option Bool) (xs : List α) : Option (List α) :=
  xs.foldlM (fun sorted x => insertBy? before? x sorted) []

end Value
end MockTree
