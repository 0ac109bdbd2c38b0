import MockTree.Value.Display
/-! Writing JSON in several layouts. What JSON has no form for is written as its text. -/
namespace MockTree.Json
open Text

structure Layout where
  betweenItems : List Char
  afterName : List Char
  /-- Characters beyond ASCII are written as escapes. -/
  ascii : Bool
  /-- Spaces of indentation for a level, or everything on one line. -/
  indent : Option Nat

/-- One line, a space after commas and colons. -/
def Layout.line : Layout := ⟨", ".toList, ": ".toList, true, none⟩

/-- One line without spaces, characters beyond ASCII kept. -/
def Layout.compact : Layout := ⟨[','], [':'], false, none⟩

/-- A line for every item, two spaces deeper at every level. -/
def Layout.indented : Layout := ⟨[','], ": ".toList, true, some 2⟩

def unitEscape (n : Nat) : List Char := '\\' :: 'u' :: hexOf 4 n

def escapeChar (ascii : Bool) (c : Char) : List Char :=
  if c == '"' || c == '\\' then ['\\', c]
  else if c == '\n' then ['\\', 'n']
  else if c == '\r' then ['\\', 'r']
  else if c == '\t' then ['\\', 't']
  else if c == '\x08' then ['\\', 'b']
  else if c == '\x0c' then ['\\', 'f']
  else if c.toNat < 32 then unitEscape c.toNat
  else if !ascii || c.toNat < 127 then [c]
  else if c.toNat < 0x10000 then unitEscape c.toNat
  else
    let n := c.toNat - 0x10000
    unitEscape (0xD800 + n / 0x400) ++ unitEscape (0xDC00 + n % 0x400)

def string (ascii : Bool) (s : List Char) : List Char :=
  '"' :: s.flatMap (escapeChar ascii) ++ ['"']

def realText : Double → List Char
  | .nan => "NaN".toList
  | .infinite s => (if s then "-Infinity" else "Infinity").toList
  | x => x.text

/-- The name under which a key is written. -/
def nameOf : Scalar → List Char
  | .null => "null".toList
  | .bool b => (if b then "true" else "false").toList
  | .int n => intText n
  | .real x => realText x
  | s => s.plain

def scalarText (ascii : Bool) : Scalar → List Char
  | .null => "null".toList
  | .bool b => (if b then "true" else "false").toList
  | .int n => intText n
  | .real x => realText x
  | s => string ascii s.plain

def Layout.newline (l : Layout) (depth : Nat) : List Char :=
  match l.indent with
  | some n => '\n' :: List.replicate (n * depth) ' '
  | none => []

def bracketed (l : Layout) (depth : Nat) (first last : Char) (parts : List (List Char)) :
    List Char :=
  match parts with
  | [] => [first, last]
  | p :: ps =>
    first :: l.newline (depth + 1) ++ p ++
      ps.flatMap (fun q => l.betweenItems ++ l.newline (depth + 1) ++ q) ++ l.newline depth ++ [last]

mutual

def write (l : Layout) (depth : Nat) : Value → List Char
  | .scalar s => scalarText l.ascii s
  | .list items => bracketed l depth '[' ']' (writeItems l (depth + 1) items)
  | .map entries => bracketed l depth '\x7b' '\x7d' (writeEntries l (depth + 1) entries)
  | .set members => string l.ascii (Value.set members).plain

def writeItems (l : Layout) (depth : Nat) : List Value → List (List Char)
  | [] => []
  | v :: r => write l depth v :: writeItems l depth r

def writeEntries (l : Layout) (depth : Nat) : List (Scalar × Value) → List (List Char)
  | [] => []
  | (k, v) :: r =>
    (string l.ascii (nameOf k) ++ l.afterName ++ write l depth v) :: writeEntries l depth r

end

/-- What keeps a value from being written: a key that can be no name, or a number that has no text or data that
holds itself. -/
inductive Obstacle
  | key
  | value
  deriving DecidableEq, Repr

/-- A scalar that has a text of its own. -/
def isWritable : Scalar → Bool
  | .enclosing .. => false
  | s => s.hasText

def nameObstacle? (k : Scalar) : Option Obstacle :=
  match k with
  | .null | .bool _ | .int _ | .real _ | .text _ => if k.hasText then none else some .value
  | _ => some .key

mutual

/-- The first obstacle in the order of writing. -/
def obstacle? : Value → Option Obstacle
  | .scalar s => if isWritable s then none else some .value
  | .list items => itemsObstacle? items
  | .map entries => entriesObstacle? entries
  | .set members => if members.all Scalar.hasText then none else some .value

def itemsObstacle? : List Value → Option Obstacle
  | [] => none
  | v :: r => (obstacle? v).or (itemsObstacle? r)

def entriesObstacle? : List (Scalar × Value) → Option Obstacle
  | [] => none
  | (k, v) :: r => (nameObstacle? k).or ((obstacle? v).or (entriesObstacle? r))

end

def line (v : Value) : List Char := write .line 0 v

end MockTree.Json
