import MockTree.Pattern.Matcher
import MockTree.Pattern.Reader
/-! Replacing what a pattern matches. -/
namespace MockTree.Pattern

/-- A match at this place or after it; at this very place it must take some text if so asked. -/
def Regex.findNext (r : Regex) (place : Nat) (mustTake : Bool) (before : List Char) :
    List Char → Option (Nat × State)
  | [] =>
    (r.run (fun s => if mustTake && s.place == place then none else some s)
      ⟨place, before, [], ⟨[], []⟩⟩).map (place, ·)
  | c :: rest =>
    match r.run (fun s => if mustTake && s.place == place then none else some s)
        ⟨place, before, c :: rest, ⟨[], []⟩⟩ with
    | some s => some (place, s)
    | none => r.findNext (place + 1) false (c :: before) rest

/-- The matches one after another: where each starts and the state at its end. -/
def Regex.matchesFrom (r : Regex) (place : Nat) (mustTake : Bool) (before rest : List Char) :
    Nat → List (Nat × State)
  | 0 => []
  | fuel + 1 =>
    match r.findNext place mustTake before rest with
    | none => []
    | some (start, s) =>
      (start, s) :: r.matchesFrom s.place (start == s.place) s.before s.after fuel

def Regex.matchesIn (r : Regex) (text : List Char) : List (Nat × State) :=
  r.matchesFrom 0 false [] text (2 * text.length + 2)

/-- A piece of a replacement: text, or what a group took. -/
inductive Piece where
  | text (s : List Char)
  | group (n : Nat)
  deriving Repr

def digitOf (c : Char) : Nat := c.toNat - 48

/-- What a backslash and a character other than a digit stand for. -/
def Piece.escaped? : Char → Option Piece
  | 'n' => some (.text ['\n'])
  | 't' => some (.text ['\t'])
  | 'r' => some (.text ['\r'])
  | '\\' => some (.text ['\\'])
  | c => if c.isAlpha then none else some (.text ['\\', c])

/-- Reads a replacement: a backslash and a number stand for a group. -/
def Piece.readAll? : List Char → Option (List Piece)
  | [] => some []
  | ['\\', c] =>
    if c.isDigit then some [.group (digitOf c)] else (escaped? c).map ([·])
  | '\\' :: c :: d :: r =>
    if c.isDigit then
      if d.isDigit then (readAll? r).map (.group (digitOf c * 10 + digitOf d) :: ·)
      else (readAll? (d :: r)).map (.group (digitOf c) :: ·)
    else (escaped? c).bind fun p => (readAll? (d :: r)).map (p :: ·)
  | c :: r => (readAll? r).map (.text [c] :: ·)

def Piece.fill (text : List Char) (s : State) : Piece → List Char
  | .text t => t
  | .group n =>
    match s.marks.find? n with
    | some (a, b) => (text.drop a).take (b - a)
    | none => []

/-- The text with every match replaced. -/
def Regex.replace (r : Regex) (pieces : List Piece) (text : List Char) : List Char :=
  let (out, place) := (r.matchesIn text).foldl (fun (out, place) (start, s) =>
    (out ++ (text.drop place).take (start - place) ++ pieces.flatMap (·.fill text s), s.place)) ([], 0)
  out ++ text.drop place

/-- The groups of a match at the start of a text. -/
def Regex.groupsAtStart? (r : Regex) (text : List Char) : Option (Nat → List Char) :=
  (r.run some (.start text)).map fun s n =>
    match s.marks.find? n with
    | some (a, b) => s.slice a b
    | none => []

/-- The highest number of a group in a pattern. -/
def Regex.lastGroup : Regex → Nat
  | .empty | .chars _ | .anchor _ | .sameAs .. => 0
  | .seq a b | .alt a b | .choice _ a b => max a.lastGroup b.lastGroup
  | .group n r => max n r.lastGroup
  | .repetition r .. | .atomic r | .ahead _ r | .behind _ _ r => r.lastGroup

end MockTree.Pattern
