import MockTree.Session
import MockTree.Resolution
/-! Answering requests from a tree of definitions. -/
namespace MockTree
open Work

/-- The definition that answers for requests without one of their own. -/
def Engine.fallbackFile (root : Path) : Path := (root.join wildcardName).join "GET.mock"

/-- Answers when nothing is defined for the request itself. -/
def Engine.fallback (registry : Registry) (root : Path) (s : Setting) : Work Response := do
  if ← ofExcept (s.files.isFile (Engine.fallbackFile root)) then
    compileFile registry s (Engine.fallbackFile root)
  else pure .notFound

/-- The response to the request of a setting. -/
def Engine.respond (registry : Registry) (root : Path) (s : Setting) : Work Response := do
  let file ← ofExcept (Resolution.definitionFile s.files root s.request.path s.request.method)
  if ← ofExcept (s.files.isFile file) then compileFile registry s file
  else Engine.fallback registry root s

end MockTree
