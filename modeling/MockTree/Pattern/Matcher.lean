import MockTree.Pattern.Syntax
/-! Finding a pattern in a text: the first place where it matches, and there the first way in the
order in which the pattern tries them. -/
namespace MockTree.Pattern
open Text

/-- Where groups last began and last ended, newest first. -/
structure Marks where
  begun : List (Nat × Nat)
  ended : List (Nat × Nat)
  deriving Repr

/-- The part of the text that a group took. -/
def Marks.find? (m : Marks) (group : Nat) : Option (Nat × Nat) := do
  let start ← m.begun.lookup group
  let stop ← m.ended.lookup group
  if start ≤ stop then some (start, stop) else none

/-- A place in the text, what lies before it, last first, and after it, and the groups so far. -/
structure State where
  place : Nat
  before : List Char
  after : List Char
  marks : Marks
  deriving Repr

namespace State

def start (text : List Char) : State := ⟨0, [], text, ⟨[], []⟩⟩

def openGroup (n : Nat) (s : State) : State :=
  { s with marks := { s.marks with begun := (n, s.place) :: s.marks.begun } }

def closeGroup (n : Nat) (s : State) : State :=
  { s with marks := { s.marks with ended := (n, s.place) :: s.marks.ended } }

/-- One character on. -/
def next? (s : State) : Option (Char × State) :=
  match s.after with
  | [] => none
  | c :: r => some (c, { s with place := s.place + 1, before := c :: s.before, after := r })

/-- So many characters back. -/
def back? (s : State) : Nat → Option State
  | 0 => some s
  | n + 1 =>
    match s.before with
    | [] => none
    | c :: r => back? { s with place := s.place - 1, before := r, after := c :: s.after } n

/-- Reads the given text here. -/
def follow? (folding : Folding) (s : State) : List Char → Option State
  | [] => some s
  | c :: r => do
    let (d, s) ← s.next?
    if sameLetter folding c d then s.follow? folding r else none

def wordSides (ascii : Bool) (s : State) : Bool × Bool :=
  let word := fun c => Category.word.has ascii c
  (s.before.head?.any word, s.after.head?.any word)

/-- Word edges are neither present nor absent in an empty text. -/
def stands (s : State) : Anchor → Bool
  | .textStart => s.before.isEmpty
  | .textEnd => s.after.isEmpty
  | .lastLineEnd => s.after.isEmpty || s.after == ['\n']
  | .lineStart => s.before.isEmpty || s.before.head? == some '\n'
  | .lineEnd => s.after.isEmpty || s.after.head? == some '\n'
  | .wordEdge ascii =>
    !(s.before.isEmpty && s.after.isEmpty) && (s.wordSides ascii).1 != (s.wordSides ascii).2
  | .noWordEdge ascii =>
    !(s.before.isEmpty && s.after.isEmpty) && (s.wordSides ascii).1 == (s.wordSides ascii).2

/-- The text between two places. -/
def slice (s : State) (start stop : Nat) : List Char :=
  ((s.before.reverse ++ s.after).drop start).take (stop - start)

end State

/-- A way to go on from a place to the end of the match, and one that comes first. -/
abbrev Matcher := (State → Option State) → State → Option State

namespace Matcher

def exactly (m : Matcher) : Nat → Matcher
  | 0, k => k
  | n + 1, k => m (m.exactly n k)

/-- Up to so many times, and never twice in succession from one place. -/
def upTo (m : Matcher) (greedy : Bool) : Nat → Option Nat → Matcher
  | 0, _, k, s => k s
  | n + 1, last, k, s =>
    if greedy then
      if last == some s.place then k s
      else (m (m.upTo greedy n (some s.place) k) s).or (k s)
    else
      (k s).or (if last == some s.place then none else m (m.upTo greedy n (some s.place) k) s)

/-- Only the first way counts. -/
def once (m : Matcher) : Matcher := fun k s => (m some s).bind k

/-- The bound on further rounds is the text that is left: each round but the last takes some. -/
def rounds (m : Matcher) (low : Nat) (high : Option Nat) (greedy : Bool) : Matcher := fun k =>
  m.exactly low fun s =>
    let most := s.after.length + 1
    m.upTo greedy (match high with | some h => min (h - low) most | none => most) none k s

end Matcher

/-- Continues after the pattern. -/
def Regex.run : Regex → Matcher
  | .empty, k => k
  | .chars set, k => fun s => do
    let (c, t) ← s.next?
    if set.has c then k t else none
  | .anchor a, k => fun s => if s.stands a then k s else none
  | .seq a b, k => a.run (b.run k)
  | .alt a b, k => fun s => (a.run k s).or (b.run k s)
  | .group n r, k => fun s => r.run (fun t => k (t.closeGroup n)) (s.openGroup n)
  | .repetition r low high .greedy, k => Matcher.rounds r.run low high true k
  | .repetition r low high .lazy, k => Matcher.rounds r.run low high false k
  | .repetition r low high .possessive, k =>
    Matcher.once (Matcher.rounds (Matcher.once r.run) low high true) k
  | .atomic r, k => Matcher.once r.run k
  | .ahead true r, k => fun s => do k { s with marks := (← r.run some s).marks }
  | .ahead false r, k => fun s => if (r.run some s).isSome then none else k s
  | .behind true w r, k => fun s => do
    k { s with marks := (← r.run some (← s.back? w)).marks }
  | .behind false w r, k => fun s =>
    if ((s.back? w).bind (r.run some)).isSome then none else k s
  | .sameAs n folding, k => fun s => do
    let (start, stop) ← s.marks.find? n
    k (← s.follow? folding (s.slice start stop))
  | .choice n a b, k => fun s =>
    if (s.marks.find? n).isSome then a.run k s else b.run k s

/-- The first match at this place or after it: where it starts and the state at its end. -/
def Regex.findFrom (r : Regex) (before : List Char) (place : Nat) :
    List Char → Option (Nat × State)
  | [] => (r.run some ⟨place, before, [], ⟨[], []⟩⟩).map (place, ·)
  | c :: rest =>
    match r.run some ⟨place, before, c :: rest, ⟨[], []⟩⟩ with
    | some s => some (place, s)
    | none => r.findFrom (c :: before) (place + 1) rest

/-- A match: the text it took and the text of each group that took any. -/
structure Found where
  whole : List Char
  group? : Nat → Option (List Char)
  hasGroups : Bool

def Regex.find? (r : Regex) (text : List Char) : Option Found :=
  (r.findFrom [] 0 text).map fun (start, s) =>
    ⟨s.slice start s.place, fun n => (s.marks.find? n).map fun (a, b) => s.slice a b,
      !s.marks.ended.isEmpty⟩

end MockTree.Pattern
