import MockTree.Fault
import MockTree.Text.Case
/-! Finding the directory of a request in a tree of definitions. A segment of the request's path takes
the directory of its name if there is one, else the wildcard directory; once neither is there the rest
of the path does not count. -/
namespace MockTree
open Text

/-- The directory that stands for any segment. -/
def wildcardName : String := "__"

/-- The segments of a path that are not empty. -/
def segments (path : String) : List String :=
  ((splitAt '/' path.toList).filter (!·.isEmpty)).map String.ofList

/-- Segments that never name a directory. -/
def isDots (segment : String) : Bool := segment == "." || segment == ".."

namespace Resolution

/-- Where a segment leads, and whether the way goes on from there. -/
inductive Step
  | onward (p : Path)
  | stop (p : Path)
  deriving DecidableEq, Repr

def step (t : FileTree) (current : Path) (segment : String) : Except Fault Step := do
  let named := current.join segment
  if !isDots segment && (← t.isDirectory named) then pure (.onward named)
  else if ← t.hasPath (current.join wildcardName) then pure (.onward (current.join wildcardName))
  else pure (.stop named)

def follow (t : FileTree) (current : Path) : List String → Except Fault Path
  | [] => .ok current
  | s :: r =>
    match step t current s with
    | .ok (.onward p) => follow t p r
    | .ok (.stop p) => .ok p
    | .error f => .error f

/-- The directory of a request's path in the tree under a root. -/
def directory (t : FileTree) (root : Path) (path : String) : Except Fault Path :=
  follow t root (segments path)

def definitionName (method : String) : String := upper method ++ ".mock"

/-- The file of the definition for a request, whether it is there or not. -/
def definitionFile (t : FileTree) (root : Path) (path method : String) : Except Fault Path :=
  (directory t root path).map fun d => d.join (definitionName method)

end Resolution
end MockTree
