import MockTree.Selector.Token
import MockTree.Value.Basic
import MockTree.Pattern.Replace
/-! Selectors: paths to parts of a value, tests on such parts, and arithmetic. -/
namespace MockTree

inductive Selector.Arithmetic where
  | plus
  | minus
  | times
  deriving DecidableEq, Repr

mutual

inductive Selector where
  | root
  | here
  | above
  | fields (names : List (List Char))
  | items (indices : List Int)
  | slice (start stop step : Option Int)
  | length
  | keys
  | location
  | text
  | split (separator : List Char) (piece : Option Int) (most : Int)
  | replace (pattern : Pattern.Regex) (replacement : List Char)
  | sorted
  | sortedBy (orders : Selector.Orders)
  | child (outer inner : Selector)
  | anywhere (outer inner : Selector)
  | union (first second : Selector)
  | meet (first second : Selector)
  | only (holding : Bool) (outer test : Selector)
  | filter (test : Selector.Test)
  | arithmetic (op : Selector.Arithmetic) (left right : Selector.Operand)

/-- The orders by which a list is sorted, first the one that counts most. -/
inductive Selector.Orders where
  | done
  | order (path : Selector) (descending : Bool) (rest : Selector.Orders)

inductive Selector.Test where
  | finds (path : Selector)
  | compares (path : Selector) (c : Selector.Comparison) (bound : Scalar)
  | both (first second : Selector.Test)
  | either (first second : Selector.Test)

inductive Selector.Operand where
  | part (path : Selector)
  | literal (value : Scalar)

end
end MockTree
