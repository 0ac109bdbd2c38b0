import MockTree.Text.Blank
/-! Grammar rules that read from a place in a text and remember the furthest place any of them saw. -/
namespace MockTree.Template
open Text

structure Cursor where
  place : Nat
  rest : List Char

/-- A rule fails by giving none; what it saw is remembered all the same. -/
abbrev Rule (α : Type) := StateT Cursor (OptionT (StateM Nat)) α

namespace Rule

def fail {α : Type} : Rule α := fun _ => OptionT.fail

/-- Remembers a place as seen. -/
def see (place : Nat) : Rule Unit := fun c => do
  modify (max place)
  pure ((), c)

def seeHere : Rule Unit := do see (← get).place

/-- The next character, if the rule takes it. -/
def satisfy (p : Char → Bool) : Rule Char := do
  let c ← get
  match c.rest with
  | x :: r => if p x then do see c.place; set (Cursor.mk (c.place + 1) r); pure x else fail
  | [] => fail

def char (x : Char) : Rule Unit := discard (satisfy (· == x))

def text : List Char → Rule Unit
  | [] => pure ()
  | x :: r => do char x; text r

/-- The longest run of such characters; the place where it stops is seen. -/
def run (p : Char → Bool) : Rule (List Char) := do
  let c ← get
  let xs := c.rest.takeWhile p
  set (Cursor.mk (c.place + xs.length) (c.rest.dropWhile p))
  seeHere
  pure xs

def run1 (p : Char → Bool) : Rule (List Char) := do
  let xs ← run p
  if xs.isEmpty then fail else pure xs

def spaces : Rule Unit := discard (run isBlank)

/-- Succeeds without moving where the rule fails. -/
def lacking {α : Type} (r : Rule α) : Rule Unit := do
  let c ← get
  let found ← (do let _ ← r; pure true) <|> pure false
  set c
  if found then fail else seeHere

/-- Applies a rule as long as it succeeds, at most so many times. -/
def many {α : Type} (r : Rule α) : Nat → Rule (List α)
  | 0 => pure []
  | fuel + 1 => (do let x ← r; let xs ← many r fuel; pure (x :: xs)) <|> (do seeHere; pure [])

def remaining : Rule Nat := do pure (← get).rest.length

/-- What the rule reads from the start of a text, and the furthest place it saw. -/
def apply {α : Type} (r : Rule α) (s : List Char) : Option α × Nat :=
  let (result, seen) := StateT.run (OptionT.run (StateT.run r ⟨0, s⟩)) 0
  (result.map (·.1), seen)

end Rule
end MockTree.Template
