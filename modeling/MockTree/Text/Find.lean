/-! Searching a text for a character or for a piece of text, cutting and replacing at what is found, and cutting
a text into lines. -/
namespace MockTree.Text

/-- What stands before and after the first sep. -/
def cut? (sep : Char) : List Char → Option (List Char × List Char)
  | [] => none
  | c :: r => if c == sep then some ([], r) else (cut? sep r).map fun (a, b) => (c :: a, b)

/-- The pieces between the occurrences of sep, always at least one. -/
def splitAt (sep : Char) : List Char → List (List Char)
  | [] => [[]]
  | c :: r =>
    if c == sep then [] :: splitAt sep r
    else match splitAt sep r with
      | p :: ps => (c :: p) :: ps
      | [] => [[c]]

/-- The text after start, if it opens with it. -/
def after? : List Char → List Char → Option (List Char)
  | [], s => some s
  | c :: p, d :: s => if c == d then after? p s else none
  | _ :: _, [] => none

def startsWith (start s : List Char) : Bool := (after? start s).isSome

/-- What stands before and after the first occurrence of a piece of text. -/
def cutText? (piece : List Char) : List Char → Option (List Char × List Char)
  | [] => if piece.isEmpty then some ([], []) else none
  | c :: r =>
    match after? piece (c :: r) with
    | some rest => some ([], rest)
    | none => (cutText? piece r).map fun (a, b) => (c :: a, b)

def contains (piece s : List Char) : Bool := (cutText? piece s).isSome

/-- Only the first occurrence is replaced. -/
def replaceFirst (piece new s : List Char) : List Char :=
  match cutText? piece s with
  | some (a, b) => a ++ new ++ b
  | none => s

def joinWith (sep : List Char) : List (List Char) → List Char
  | [] => []
  | [s] => s
  | s :: t => s ++ sep ++ joinWith sep t

/-! A line ends at a line feed, a carriage return, both in that order, a vertical tab, a form feed, an information
separator, a next-line control or a Unicode separator. -/

def isLineEnd (c : Char) : Bool :=
  let n := c.toNat
  (10 ≤ n && n ≤ 13) || (28 ≤ n && n ≤ 30) || n == 0x85 || n == 0x2028 || n == 0x2029

/-- The lines of a text, given the characters already read of the current line, last first. -/
def linesFrom (line : List Char) : List Char → List (List Char)
  | [] => if line.isEmpty then [] else [line.reverse]
  | '\r' :: '\n' :: r => line.reverse :: linesFrom [] r
  | c :: r => if isLineEnd c then line.reverse :: linesFrom [] r else linesFrom (c :: line) r

/-- A line end closes a line, so text after the last one is a line only if there is any. -/
def lines (s : List Char) : List (List Char) := linesFrom [] s

/-- A carriage return, with or without a line feed after it, becomes a line feed. -/
def unifyNewlines : List Char → List Char
  | [] => []
  | '\r' :: '\n' :: r => '\n' :: unifyNewlines r
  | c :: r => (if c == '\r' then '\n' else c) :: unifyNewlines r

end MockTree.Text
