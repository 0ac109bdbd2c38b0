import MockTree.Fault
/-! Places in a YAML text, and the characters that part its lines and words. -/
namespace MockTree.Yaml

/-- What is left of the text, and the line and column it starts at. -/
structure Cursor where
  rest : List Char
  place : Nat
  line : Nat
  column : Nat
  deriving Repr

def isBreak (c : Char) : Bool :=
  c == '\n' || c == '\r' || c.toNat == 0x85 || c.toNat == 0x2028 || c.toNat == 0x2029

def isBlankOrBreak (c : Char) : Bool := c == ' ' || c == '\t' || isBreak c

/-- The end of the text, or a character of a kind. -/
def endOr (p : Char → Bool) (c : Option Char) : Bool := c.all p

/-- Characters that may stand in a text. -/
def isAllowed (c : Char) : Bool :=
  let n := c.toNat
  n == 9 || n == 10 || n == 13 || (0x20 ≤ n && n ≤ 0x7e) || n == 0x85 ||
    (0xa0 ≤ n && n ≤ 0xfffd) || 0x10000 ≤ n

def isByteOrderMark (c : Char) : Bool := c.toNat == 0xfeff

namespace Cursor

def start (s : List Char) : Cursor := ⟨s, 0, 0, 0⟩

/-- One character on. A carriage return and the line feed after it part two lines only once. -/
def forward (c : Cursor) : Cursor :=
  match c.rest with
  | [] => c
  | x :: r =>
    if isBreak x && !(x == '\r' && r.head? == some '\n') then ⟨r, c.place + 1, c.line + 1, 0⟩
    else ⟨r, c.place + 1, c.line, if isByteOrderMark x then c.column else c.column + 1⟩

def skip (c : Cursor) : Nat → Cursor
  | 0 => c
  | n + 1 => c.forward.skip n

/-- The longest run of such characters, and the place after it. -/
def run (p : Char → Bool) (c : Cursor) : List Char × Cursor :=
  (c.rest.takeWhile p, c.skip (c.rest.takeWhile p).length)

/-- The line break here, as it counts for the text: none, a line feed or a separator. -/
def lineBreak (c : Cursor) : List Char × Cursor :=
  match c.rest with
  | '\r' :: '\n' :: _ => (['\n'], c.skip 2)
  | x :: _ =>
    if x.toNat == 0x2028 || x.toNat == 0x2029 then ([x], c.forward)
    else if isBreak x then (['\n'], c.forward)
    else ([], c)
  | [] => ([], c)

/-- Three dashes or three points, set apart. -/
def atSeparator (c : Cursor) : Bool :=
  match c.rest with
  | x :: y :: z :: r =>
    (x == '-' || x == '.') && y == x && z == x && endOr isBlankOrBreak r.head?
  | _ => false

end Cursor
end MockTree.Yaml
