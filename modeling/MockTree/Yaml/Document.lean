import MockTree.Yaml.Schema
/-! The values of YAML documents. A later key wins over an earlier one, and a mapping's own keys win
over those it merges. -/
namespace MockTree.Yaml

def Node.tag : Node → Tag
  | .scalar (some t) _ => t
  | .scalar none s => tagOf s
  | .sequence _ t _ => t
  | .mapping _ t _ => t
  | .again _ => .unknown

/-- The node that a number stands for, among those that have names. -/
def Node.resolved (known : List Node) : Node → Node
  | .again k => (known.find? (·.number? == some k)).getD (.again k)
  | n => n

def Tag.isCollection : Tag → Bool
  | .seq | .map | .omap | .pairs | .set => true
  | _ => false

/-! What stands on one level of a document is read before what stands inside its collections, and the
merges of a mapping are looked up before its entries are read. So a fault comes with its turn, two for a
level, and of two faults the one whose turn is earlier counts, or else the one written first. -/

abbrev Building (α : Type) := Except (Nat × Fault) α

namespace Building
variable {α β : Type}

def both (a : Building α) (b : Building β) : Building (α × β) :=
  match a, b with
  | .ok x, .ok y => .ok (x, y)
  | .error e, .ok _ => .error e
  | .ok _, .error f => .error f
  | .error e, .error f => .error (if f.1 < e.1 then f else e)

/-- The inside of a collection, which has its turn after the level that the collection is on: as a whole, if
it is the collection itself that is at fault. -/
def inside (a : Building α) : Building α := a.mapError fun (turn, f) => (max turn 1 + 2, f)

/-- A node that cannot be looked up, read where it stands, or read inside. -/
def unmerged : Building α := .error (0, .unreadableYaml)
def unreadable : Building α := .error (1, .unreadableYaml)

/-- A key must be a scalar. -/
def asKey : Building Value → Building Scalar
  | .ok (.scalar (.enclosing ..)) => unreadable
  | .ok (.scalar s) => .ok s
  | .ok _ => unreadable
  | .error (turn, f) => if turn ≤ 1 then .error (turn, f) else unreadable

def ofScalar (tag : Tag) (s : List Char) : Building Value :=
  match readScalar tag s with
  | .ok x => .ok (.scalar x)
  | .error f => .error (1, f)

end Building
open Building

/-- The kinds of values that a scalar may stand for. -/
def Tag.isScalar : Tag → Bool
  | .null | .bool | .int | .float | .binary | .timestamp | .str => true
  | _ => false

/-- The text of a node that is to be a scalar: a mapping may have one under a sign. There is no end to the
search if it comes to a mapping that it has come to before. -/
def Node.textIn (known : List Node) (seen : List Nat) : Nat → Node → Building (List Char)
  | 0, _ => unreadable
  | fuel + 1, n =>
    match n.resolved known with
    | .scalar _ s => .ok s
    | .mapping k _ entries =>
      if seen.contains k then .error (1, .runtime)
      else
        match entries.find? (·.1.tag == .value) with
        | some (_, v) => v.textIn known (k :: seen) fuel
        | none => unreadable
    | _ => unreadable

/-- The value of a mapping in the place of a scalar of this kind. A time is not made of one. -/
def Node.scalarIn (known : List Node) (fuel : Nat) (t : Tag) (n : Node) : Building Value :=
  match n.textIn known [] fuel with
  | .ok s => if t == .timestamp then .error (1, .wrongType) else ofScalar t s
  | .error e => .error e

section
variable (known : List Node) (value : Node → Building Value)

def itemValues : List Node → Building (List Value)
  | [] => .ok []
  | n :: r => (both (value n) (itemValues r)).map fun (v, vs) => v :: vs

/-- Mappings of one entry, each as a list of its key and its value. -/
def pairValues : List Node → Building (List Value)
  | [] => .ok []
  | n :: r =>
    match n.resolved known with
    | .mapping _ _ [(k, v)] =>
      (both (both (value k) (value v)) (pairValues r)).map fun ((key, value), vs) =>
        .list [key, value] :: vs
    | _ => unreadable

/-- The key of an entry: a lone sign is a text. -/
def keyValue (k : Node) : Building Scalar :=
  if k.tag == .value then
    match k with
    | .scalar _ s => .ok (.text (String.ofList s))
    | _ => unreadable
  else asKey (value k)

/-- The entries that a mapping has of its own. -/
def ownEntries : List (Node × Node) → Building (List (Scalar × Value))
  | [] => .ok []
  | (k, v) :: r =>
    if k.tag == .merge then ownEntries r
    else (both (both (keyValue value k) (value v)) (ownEntries r)).map fun (entry, entries) => entry :: entries

end

section
variable (known : List Node) (merged : Node → Building (List (Scalar × Value)))

/-- The entries that a mapping merges. -/
def mergedEntries : List (Node × Node) → Building (List (Scalar × Value))
  | [] => .ok []
  | (k, v) :: r =>
    if k.tag == .merge then
      (both (merged v) (mergedEntries r)).map fun (found, entries) => found ++ entries
    else mergedEntries r

/-- The entries of several mappings, of which the first win. -/
def mergedLists : List Node → Building (List (Scalar × Value))
  | [] => .ok []
  | n :: r =>
    match n.resolved known with
    | .mapping .. => (both (mergedLists r) (merged n)).map fun (later, found) => later ++ found
    | _ => unmerged

end

/-- All entries of a mapping, from the values of nodes and what is to be merged. -/
def mappingEntries (value : Node → Building Value) (merged : Node → Building (List (Scalar × Value)))
    (entries : List (Node × Node)) : Building (List (Scalar × Value)) :=
  (both (mergedEntries merged entries) (ownEntries value entries)).map fun (merged, own) => merged ++ own

mutual

/-- The value of a node, in lists and mappings of these numbers, the innermost first. A pair of an ordered
mapping has no number. -/
def Node.toValue (known : List Node) (above : List (Option Nat)) : Nat → Node → Building Value
  | 0, _ => unreadable
  | fuel + 1, n =>
    match n.resolved known with
    | .again _ => unreadable
    | .scalar tag s =>
      let t := tag.getD (tagOf s)
      if t.isCollection then inside unreadable else ofScalar t s
    | .sequence k tag nodes =>
      match above.idxOf? (some k) with
      | some up => .ok (.scalar (.enclosing false up))
      | none =>
        match tag with
        | .seq => inside ((itemValues (Node.toValue known (some k :: above) fuel) nodes).map .list)
        | .omap | .pairs =>
          inside ((pairValues known (Node.toValue known (none :: some k :: above) fuel) nodes).map .list)
        | t => if t.isCollection then inside unreadable else unreadable
    | .mapping k tag entries =>
      match above.idxOf? (some k) with
      | some up => .ok (.scalar (.enclosing true up))
      | none =>
        let found := mappingEntries (Node.toValue known (some k :: above) fuel)
          (mergedValues known (some k :: above) [k] fuel) entries
        match tag with
        | .map => inside (found.map fun entries => .map (Value.ofPairs entries))
        | .set => inside (found.map fun entries => .set ((Value.ofPairs entries).map (·.1)))
        | t =>
          if t.isCollection then inside unreadable
          else if t.isScalar then Node.scalarIn known fuel t (.mapping k t entries)
          else unreadable

/-- What a merge takes: the entries of a mapping, or those of several. A mapping that is being merged already
gives its own. -/
def mergedValues (known : List Node) (above : List (Option Nat)) (merging : List Nat) :
    Nat → Node → Building (List (Scalar × Value))
  | 0, _ => unmerged
  | fuel + 1, n =>
    match n.resolved known with
    | .mapping k _ entries =>
      if merging.contains k then ownEntries (Node.toValue known above fuel) entries
      else mappingEntries (Node.toValue known above fuel) (mergedValues known above (k :: merging) fuel) entries
    | .sequence _ _ nodes => mergedLists known (mergedValues known above merging fuel) nodes
    | _ => unmerged

end

namespace Document

/-- A value is in no more values than there are numbers, and on the way from one to the next a merge goes
through every node at most once, through its lists and mappings in turn. -/
def fuel (d : Document) : Nat := (d.size + 2) * (2 * d.size + 4)

/-- The value of a document. The entries of a mapping are values of their own, which hold it if they refer
to it. -/
def toValue (d : Document) : Building Value :=
  match d.root with
  | .mapping k .map entries =>
    inside ((mappingEntries (Node.toValue d.named [] d.fuel) (mergedValues d.named [] [k] d.fuel) entries).map
      fun entries => .map (Value.ofPairs entries))
  | n => n.toValue d.named [] d.fuel

end Document

/-- The value of a text: null if it holds no document. -/
def read (s : List Char) : Except Fault Value := do
  match ← compose s with
  | some d => d.toValue.mapError (·.2)
  | none => pure .null

end MockTree.Yaml
