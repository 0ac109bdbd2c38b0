import MockTree.Template.Node
/-! Templates that have been read, kept by their text. The oldest makes room for a new one. -/
namespace MockTree.Template

/-- A limit that is no number cannot be compared with. -/
structure Cache where
  enabled : Bool
  limit : Option Int
  entries : List (String × List Node)
  hits : Nat
  misses : Nat
  deriving Repr

namespace Cache

def make (enabled : Bool) (limit : Option Int) : Cache := ⟨enabled, limit, [], 0, 0⟩

def keys (c : Cache) : List String := c.entries.map (·.1)

def find? (source : String) : List (String × List Node) → Option (List Node)
  | [] => none
  | (s, nodes) :: r => if s == source then some nodes else find? source r

/-- Keeps a template, dropping the oldest if the cache is full. -/
def store (source : String) (nodes : List Node) (limit : Int) (c : Cache) : Cache :=
  if limit ≤ 0 then c
  else
    let kept := if limit ≤ c.entries.length then c.entries.tail else c.entries
    { c with entries := kept ++ [(source, nodes)] }

def countHit (c : Cache) : Cache := { c with hits := c.hits + 1 }
def countMiss (c : Cache) : Cache := { c with misses := c.misses + 1 }

/-- Drops all templates and starts counting again. -/
def clear (c : Cache) : Cache := { c with entries := [], hits := 0, misses := 0 }

end Cache
end MockTree.Template
