import MockTree.Query
/-! What a request asks for: a path, percent-encoded as it is sent, and the query after the first
question mark. It is joined to an address again, and the address is taken apart. -/
namespace MockTree
open Text

/-- The path as decoded and the query as written. -/
structure Target where
  path : List Char
  query : List Char
  deriving DecidableEq, Repr

namespace Target

def read (s : List Char) : Target :=
  match cut? '?' s with
  | some (path, query) => ⟨Query.decode path, query⟩
  | none => ⟨Query.decode s, []⟩

/-- Characters that are dropped from an address. -/
def isDropped (c : Char) : Bool := c == '\t' || c == '\r' || c == '\n'

/-- A character of a path that is neither dropped nor a mark in an address. -/
def isPlain (c : Char) : Bool := !isDropped c && c != '#' && c != '?'

/-- The path and the query as one text. -/
def joined (t : Target) : List Char :=
  t.path ++ if t.query.isEmpty then [] else '?' :: t.query

/-- The part of the address that counts: up to a number sign. -/
def address (t : Target) : List Char :=
  (t.joined.filter fun c => !isDropped c).takeWhile (· != '#')

/-- The path and the query that an address is taken apart into. -/
def split (t : Target) : Target :=
  ⟨t.address.takeWhile (· != '?'), (t.address.dropWhile (· != '?')).drop 1⟩

end Target
end MockTree
