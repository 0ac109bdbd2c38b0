import MockTree.Yaml.Token
/-! YAML documents as trees of nodes. Every node has a tag, but that of a plain scalar may be left to
its text. -/
namespace MockTree.Yaml

inductive Tag where
  | null
  | bool
  | int
  | float
  | binary
  | timestamp
  | omap
  | pairs
  | set
  | str
  | seq
  | map
  | merge
  | value
  /-- A tag that stands for no kind of value. -/
  | unknown
  deriving DecidableEq, Repr

/-- A scalar without a tag of its own is read by its text. Lists and mappings are numbered, so that one can
stand in itself, by its number. -/
inductive Node where
  | scalar (tag : Option Tag) (text : List Char)
  | sequence (number : Nat) (tag : Tag) (items : List Node)
  | mapping (number : Nat) (tag : Tag) (entries : List (Node × Node))
  | again (number : Nat)
  deriving Repr

def Node.number? : Node → Option Nat
  | .sequence k .. | .mapping k .. => some k
  | _ => none

def commonTags : List (String × Tag) := [("null", .null), ("bool", .bool), ("int", .int),
  ("float", .float), ("binary", .binary), ("timestamp", .timestamp), ("omap", .omap),
  ("pairs", .pairs), ("set", .set), ("str", .str), ("seq", .seq), ("map", .map),
  ("merge", .merge), ("value", .value)]

def commonStart : List Char := "tag:yaml.org,2002:".toList

def Tag.ofText (s : List Char) : Tag :=
  match Text.after? commonStart s with
  | some name => (commonTags.lookup (String.ofList name)).getD .unknown
  | none => .unknown

/-- What is left to read and the fault that ends it, the nodes by name, the latest first, the meanings of tag
handles, and how many numbers were given to nodes. -/
structure Composing where
  tokens : List Token
  fault : Option Fault
  names : List (List Char × Node)
  handles : List (List Char × List Char)
  count : Nat

abbrev Compose (α : Type) := StateT Composing (Except Fault) α

namespace Compose

def unreadable {α : Type} : Compose α := throw .unreadableYaml

def require (b : Bool) : Compose Unit := if b then pure () else unreadable

/-- The next token; none at the end. -/
def peek : Compose (Option Token) := do
  let p ← get
  match p.tokens, p.fault with
  | t :: _, _ => pure (some t)
  | [], none => pure none
  | [], some f => throw f

def advance : Compose Unit := modify fun p => { p with tokens := p.tokens.tail }

def accept (t : Token) : Compose Bool := do
  if (← peek) == some t then advance; pure true else pure false

def expect (t : Token) : Compose Unit := do require (← accept t)

/-- Whether the next token is one of these, or there is none. -/
def atOneOf (ts : List Token) : Compose Bool := do
  pure ((← peek).all ts.contains)

def anchor? : Compose (Option (List Char)) := do
  match ← peek with
  | some (.anchor s) => do
    advance
    pure (some s)
  | _ => pure none

def tag? : Compose (Option (Option (List Char) × List Char)) := do
  match ← peek with
  | some (.tag h s) => do
    advance
    pure (some (h, s))
  | _ => pure none

/-- The full text of a tag: its handle must have a meaning. -/
def tagText? : Option (Option (List Char) × List Char) → Compose (Option (List Char))
  | none => pure none
  | some (none, s) => pure (some s)
  | some (some h, s) => do
    match (← get).handles.lookup h with
    | some start => pure (some (start ++ s))
    | none => unreadable

/-- An anchor and a tag, in either order. -/
def properties : Compose (Option (List Char) × Option (List Char)) := do
  match ← anchor? with
  | some a => do pure (some a, ← tagText? (← tag?))
  | none => do
    let t ← tag?
    let a ← if t.isSome then anchor? else pure none
    pure (a, ← tagText? t)

/-- The next number for a node. -/
def nextNumber : Compose Nat := modifyGet fun p => (p.count, { p with count := p.count + 1 })

/-- A name is given once in a document. Until its node is complete it stands for the number. -/
def openName (number : Nat) : Option (List Char) → Compose Unit
  | none => pure ()
  | some s => do
    require ((← get).names.lookup s).isNone
    modify fun p => { p with names := (s, .again number) :: p.names }

def closeName (node : Node) : Option (List Char) → Compose Unit
  | none => pure ()
  | some s => modify fun p => { p with names := (s, node) :: p.names }

def named (s : List Char) : Compose Node := do
  match (← get).names.lookup s with
  | some n => pure n
  | none => unreadable

end Compose
open Compose

/-- The empty scalar. -/
def emptyNode : Node := .scalar none []

/-- The tag of a collection; a lone mark leaves the usual one. -/
def collectionTag (usual : Tag) : Option (List Char) → Tag
  | none => usual
  | some s => if s == ['!'] then usual else Tag.ofText s

/-- The tag of a scalar; a lone mark leaves it to the text, even in quotes. -/
def scalarTag (plain : Bool) : Option (List Char) → Option Tag
  | none => if plain then none else some .str
  | some s => if s == ['!'] then none else some (Tag.ofText s)

/-- Where a node stands: in brackets, in a block, or in a block as the value of a key, where a list
may stand without indentation. -/
inductive Position where
  | flow
  | block
  | ofKey
  deriving DecidableEq

mutual

def node (position : Position) : Nat → Compose Node
  | 0 => unreadable
  | fuel + 1 => do
    match ← peek with
    | some (.alias s) => do
      advance
      named s
    | _ => do
      let (anchor, tag) ← properties
      -- a name is looked at only when there is something to be named
      discard peek
      let number ← nextNumber
      openName number anchor
      let n ← content position number anchor.isSome tag fuel
      closeName n anchor
      pure n

/-- A node after its properties. -/
def content (position : Position) (number : Nat) (hasAnchor : Bool) (tag : Option (List Char)) :
    Nat → Compose Node
  | 0 => unreadable
  | fuel + 1 => do
    let t ← peek
    if position == .ofKey && t == some .entry then
      pure (.sequence number (collectionTag .seq tag) (← plainEntries fuel))
    else
      match t with
      | some (.scalar s isPlain) => do
        advance
        pure (.scalar (scalarTag isPlain tag) s)
      | some .openList => do
        advance
        pure (.sequence number (collectionTag .seq tag) (← listItems true fuel))
      | some .openMap => do
        advance
        pure (.mapping number (collectionTag .map tag) (← mapEntries true fuel))
      | some .blockSequence => do
        require (position != .flow)
        advance
        pure (.sequence number (collectionTag .seq tag) (← blockEntries fuel))
      | some .blockMapping => do
        require (position != .flow)
        advance
        pure (.mapping number (collectionTag .map tag) (← blockPairs fuel))
      | _ =>
        if hasAnchor || tag.isSome then pure (.scalar (scalarTag true tag) []) else unreadable

/-- A node, or the empty one if one of these tokens comes. -/
def nodeUnless (position : Position) (stops : List Token) : Nat → Compose Node
  | 0 => unreadable
  | fuel + 1 => do if ← atOneOf stops then pure emptyNode else node position fuel

def blockEntries : Nat → Compose (List Node)
  | 0 => unreadable
  | fuel + 1 => do
    if ← accept .entry then do
      let n ← nodeUnless .block [.entry, .blockEnd] fuel
      pure (n :: (← blockEntries fuel))
    else do
      expect .blockEnd
      pure []

/-- The entries of a list that is not indented more than the key it belongs to. -/
def plainEntries : Nat → Compose (List Node)
  | 0 => unreadable
  | fuel + 1 => do
    if ← accept .entry then do
      let n ← nodeUnless .block [.entry, .key, .value, .blockEnd] fuel
      pure (n :: (← plainEntries fuel))
    else pure []

def blockPairs : Nat → Compose (List (Node × Node))
  | 0 => unreadable
  | fuel + 1 => do
    if ← accept .key then do
      let k ← nodeUnless .ofKey [.key, .value, .blockEnd] fuel
      let v ← if ← accept .value then nodeUnless .ofKey [.key, .value, .blockEnd] fuel
        else pure emptyNode
      pure ((k, v) :: (← blockPairs fuel))
    else do
      expect .blockEnd
      pure []

/-- Items in brackets; a key makes a mapping of one entry. -/
def listItems (first : Bool) : Nat → Compose (List Node)
  | 0 => unreadable
  | fuel + 1 => do
    if ← accept .closeList then pure []
    else do
      if !first then expect .comma
      match ← peek with
      | some .key => do
        advance
        let k ← nodeUnless .flow [.value, .comma, .closeList] fuel
        let v ← if ← accept .value then nodeUnless .flow [.comma, .closeList] fuel
          else pure emptyNode
        pure (.mapping (← nextNumber) .map [(k, v)] :: (← listItems false fuel))
      | some .closeList => do
        advance
        pure []
      | _ => do
        let n ← node .flow fuel
        pure (n :: (← listItems false fuel))

def mapEntries (first : Bool) : Nat → Compose (List (Node × Node))
  | 0 => unreadable
  | fuel + 1 => do
    if ← accept .closeMap then pure []
    else do
      if !first then expect .comma
      match ← peek with
      | some .key => do
        advance
        let k ← nodeUnless .flow [.value, .comma, .closeMap] fuel
        let v ← if ← accept .value then nodeUnless .flow [.comma, .closeMap] fuel
          else pure emptyNode
        pure ((k, v) :: (← mapEntries false fuel))
      | some .closeMap => do
        advance
        pure []
      | _ => do
        let k ← node .flow fuel
        pure ((k, emptyNode) :: (← mapEntries false fuel))

end

def usualHandles : List (List Char × List Char) := [(['!'], ['!']), (['!', '!'], commonStart)]

/-- The directives before a document; one version at most, and no handle twice. -/
def directives (versioned : Bool) : Nat → Compose Unit
  | 0 => pure ()
  | fuel + 1 => do
    match ← peek with
    | some (.version major) => do
      require (!versioned && major == 1)
      advance
      directives true fuel
    | some (.tagHandle h s) => do
      require ((← get).handles.lookup h).isNone
      modify fun p => { p with handles := (h, s) :: p.handles }
      advance
      directives versioned fuel
    | some .directive => do
      advance
      directives versioned fuel
    | _ => pure ()

def skipEnds : Nat → Compose Unit
  | 0 => pure ()
  | fuel + 1 => do if ← accept .documentEnd then skipEnds fuel else pure ()

def startsDirectly : Token → Bool
  | .version _ | .tagHandle .. | .directive | .documentStart => false
  | _ => true

/-- A document that starts after its directives and three dashes. -/
def markedDocument (fuel : Nat) : Compose Node := do
  directives false fuel
  modify fun p => { p with handles := p.handles ++ usualHandles }
  expect .documentStart
  match ← peek with
  | none | some .documentStart | some .documentEnd => pure emptyNode
  | some t => if startsDirectly t then node .block fuel else pure emptyNode

/-- What comes after the document: nothing. Another one is refused, once its directives are read. -/
def noMore (fuel : Nat) : Compose Unit := do
  skipEnds fuel
  if (← peek).isSome then do
    modify fun p => { p with handles := [] }
    directives false fuel
    unreadable

/-- The one document of a text, if there is any. -/
def document (fuel : Nat) : Compose (Option Node) := do
  match ← peek with
  | none => pure none
  | some t => do
    let n ← if startsDirectly t then do
        modify fun p => { p with handles := usualHandles }
        node .block fuel
      else markedDocument fuel
    noMore fuel
    pure (some n)

/-- A node, those in it that have names, and how many there are. -/
structure Document where
  root : Node
  named : List Node
  size : Nat

def Document.ofScanned (s : Scanned) : Except Fault (Option Document) :=
  (StateT.run (document (4 * s.tokens.length + 8)) ⟨s.tokens, s.fault, [], [], 0⟩).map fun (n, p) =>
    n.map (⟨·, p.names.map (·.2), p.count⟩)

/-- The document of a text, if it holds any. -/
def compose (s : List Char) : Except Fault (Option Document) := Document.ofScanned (scan s)

end MockTree.Yaml
