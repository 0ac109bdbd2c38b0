import MockTree.Yaml.Cursor
import MockTree.Json.Reader
/-! The text of YAML scalars: quoted, plain, and in blocks. -/
namespace MockTree.Yaml

/-- What a scalar is read from: a place, and whether a key may start after it. -/
abbrev Reading (α : Type) := StateT Cursor (Except Fault) α

namespace Reading

def unreadable {α : Type} : Reading α := throw .unreadableYaml

def require (b : Bool) : Reading Unit := if b then pure () else unreadable

def peek : Reading (Option Char) := do pure (← get).rest.head?

def peekAt (n : Nat) : Reading (Option Char) := do pure ((← get).rest[n]?)

def forward : Reading Unit := modify Cursor.forward

def skip (n : Nat) : Reading Unit := modify fun c => c.skip n

def run (p : Char → Bool) : Reading (List Char) := modifyGet (Cursor.run p)

def lineBreak : Reading (List Char) := modifyGet Cursor.lineBreak

def remaining : Reading Nat := do pure (← get).rest.length

def accept (c : Char) : Reading Bool := do
  if (← peek) == some c then forward; pure true else pure false

end Reading
open Reading

def isSpaceOrTab (c : Char) : Bool := c == ' ' || c == '\t'

/-! Quoted scalars. -/

def escapes : List (Char × Nat) := [('0', 0), ('a', 7), ('b', 8), ('t', 9), ('\t', 9), ('n', 10),
  ('v', 11), ('f', 12), ('r', 13), ('e', 27), (' ', 32), ('"', 34), ('\\', 92), ('/', 47),
  ('N', 0x85), ('_', 0xa0), ('L', 0x2028), ('P', 0x2029)]

/-- How many hexadecimal digits an escape takes. -/
def codeLength? : Char → Option Nat
  | 'x' => some 2
  | 'u' => some 4
  | 'U' => some 8
  | _ => none

def hexCode? (ds : List Char) : Option Nat :=
  ds.foldlM (fun n d => (Json.hexValue? d).map (n * 16 + ·)) 0

/-- A character by its code: one outside all planes is a bad value, or too large to be any. -/
def codePoint (length : Nat) : Reading Nat := do
  let ds := (← get).rest.take length
  match hexCode? ds with
  | some n => do
    require (ds.length == length)
    if n ≥ 0x80000000 then throw .overflow
    if n ≥ 0x110000 then throw .badValue
    skip length
    pure n
  | none => unreadable

/-- The escape of a low surrogate, if there is one here. -/
def lowSurrogate? (s : List Char) : Option Nat :=
  match s with
  | '\\' :: 'u' :: r => do
    let n ← hexCode? (r.take 4)
    if (r.take 4).length == 4 && Json.isLowUnit n then some n else none
  | _ => none

/-- A code, joined with the one escaped after it if both are halves of one character. -/
def codeChar (n : Nat) : Reading Char := do
  if Json.isHighUnit n then
    match lowSurrogate? (← get).rest with
    | some m => do
      skip 6
      pure (Char.ofNat (0x10000 + (n - 0xd800) * 0x400 + (m - 0xdc00)))
    | none => pure (Json.ofUnit n)
  else pure (Json.ofUnit n)

/-- Line breaks after the first, with blanks around them. -/
def quotedBreaks : Nat → Reading (List Char)
  | 0 => pure []
  | fuel + 1 => do
    require (!(← get).atSeparator)
    let _ ← run isSpaceOrTab
    let b ← lineBreak
    if b.isEmpty then pure [] else pure (b ++ (← quotedBreaks fuel))

/-- Text between a line break and what follows the breaks after it. -/
def foldBreaks (first more : List Char) : List Char :=
  if first != ['\n'] then first ++ more else if more.isEmpty then [' '] else more

/-- Blanks in a quoted scalar; a single line break counts as a space. -/
def quotedSpaces : Reading (List Char) := do
  let blanks ← run isSpaceOrTab
  match ← peek with
  | none => unreadable
  | some c =>
    if isBreak c then do
      let b ← lineBreak
      pure (foldBreaks b (← quotedBreaks (← remaining)))
    else pure blanks

def isQuotedStop (c : Char) : Bool := c == '\'' || c == '"' || c == '\\' || isBlankOrBreak c

/-- What a backslash stands for in double quotes. -/
def escape : Reading (List Char) := do
  match ← peek with
  | none => unreadable
  | some c =>
    match escapes.lookup c, codeLength? c with
    | some n, _ => do
      forward
      pure [Char.ofNat n]
    | none, some length => do
      forward
      pure [← codeChar (← codePoint length)]
    | none, none => do
      require (isBreak c)
      let _ ← lineBreak
      quotedBreaks (← remaining)

/-- Text without blanks, up to a blank or the closing quote. -/
def quotedWord (double : Bool) : Nat → Reading (List Char)
  | 0 => pure []
  | fuel + 1 => do
    let s ← run (!isQuotedStop ·)
    match ← peek with
    | some '\'' => do
      if double then do
        forward
        pure (s ++ '\'' :: (← quotedWord double fuel))
      else if (← peekAt 1) == some '\'' then do
        skip 2
        pure (s ++ '\'' :: (← quotedWord double fuel))
      else pure s
    | some '"' => do
      if double then pure s
      else do
        forward
        pure (s ++ '"' :: (← quotedWord double fuel))
    | some '\\' => do
      forward
      let e ← if double then escape else pure ['\\']
      pure (s ++ e ++ (← quotedWord double fuel))
    | _ => pure s

def quotedRest (double : Bool) (stop : Char) : Nat → Reading (List Char)
  | 0 => unreadable
  | fuel + 1 => do
    let s ← quotedWord double (← remaining)
    if ← accept stop then pure s
    else do
      let blanks ← quotedSpaces
      pure (s ++ blanks ++ (← quotedRest double stop fuel))

/-- A quoted scalar, from its opening quote. -/
def quoted (stop : Char) : Reading (List Char) := do
  forward
  quotedRest (stop == '"') stop ((← remaining) + 1)

/-! Plain scalars. -/

/-- Signs that end a plain scalar inside brackets. -/
def isFlowSign (c : Char) : Bool :=
  c == ',' || c == '?' || c == '[' || c == ']' || c == '\x7b' || c == '\x7d'

/-- What must follow a colon for it to end a plain scalar. -/
def endsKey (inFlow : Bool) (next : Option Char) : Bool :=
  match next with
  | none => true
  | some c =>
    isBlankOrBreak c ||
      (inFlow && (c == ',' || c == '[' || c == ']' || c == '\x7b' || c == '\x7d'))

/-- The characters of a plain scalar up to a blank or a sign that ends it. -/
def plainWord (inFlow : Bool) : List Char → List Char
  | [] => []
  | c :: r =>
    if isBlankOrBreak c || (c == ':' && endsKey inFlow r.head?) || (inFlow && isFlowSign c) then []
    else c :: plainWord inFlow r

/-- Line breaks after the first in a plain scalar; none if a document ends there. -/
def plainBreaks : Nat → Reading (Option (List Char))
  | 0 => pure (some [])
  | fuel + 1 => do
    let _ ← run (· == ' ')
    let b ← lineBreak
    if b.isEmpty then pure (some [])
    else if (← get).atSeparator then pure none
    else do
      match ← plainBreaks fuel with
      | some more => pure (some (b ++ more))
      | none => pure none

/-- Blanks in a plain scalar, and whether they part lines; no blanks end the scalar. -/
def plainSpaces : Reading (List Char × Bool) := do
  let blanks ← run (· == ' ')
  let b ← lineBreak
  if b.isEmpty then pure (blanks, false)
  else if (← get).atSeparator then pure ([], true)
  else do
    match ← plainBreaks (← remaining) with
    | some more => pure (foldBreaks b more, true)
    | none => pure ([], true)

/-- A plain scalar that must be indented so far, and whether a line ended last in it. -/
def plainFrom (inFlow : Bool) (indent : Int) (spaces : List Char) (newLine : Bool) :
    Nat → Reading (List Char × Bool)
  | 0 => pure ([], newLine)
  | fuel + 1 => do
    if (← peek) == some '#' then pure ([], newLine)
    else do
      let s := plainWord inFlow (← get).rest
      if s.isEmpty then pure ([], newLine)
      else do
        skip s.length
        let (blanks, newLine) ← plainSpaces
        let c ← get
        if blanks.isEmpty || c.rest.head? == some '#' || (!inFlow && decide ((c.column : Int) < indent)) then
          pure (spaces ++ s, newLine)
        else do
          let (more, newLine) ← plainFrom inFlow indent blanks newLine fuel
          pure (spaces ++ s ++ more, newLine)

def plain (inFlow : Bool) (indent : Int) : Reading (List Char × Bool) := do
  plainFrom inFlow indent [] false ((← remaining) + 1)

/-! Scalars in blocks. -/

/-- Whether the last line breaks are dropped, cut to one, or kept. -/
inductive Chomping where
  | drop
  | cut
  | keep
  deriving DecidableEq, Repr

def chomping? : Reading (Option Chomping) := do
  match ← peek with
  | some '+' => do
    forward
    pure (some .keep)
  | some '-' => do
    forward
    pure (some .drop)
  | _ => pure none

def indentation? : Reading (Option Nat) := do
  match ← peek with
  | some c =>
    if c.isDigit then do
      require (c != '0')
      forward
      pure (some (c.toNat - 48))
    else pure none
  | none => pure none

/-- The marks after the sign of a block, in either order. -/
def blockMarks : Reading (Chomping × Option Nat) := do
  let first ← chomping?
  let indent ← indentation?
  let second ← if first.isNone && indent.isSome then chomping? else pure none
  require (endOr (fun c => c == ' ' || isBreak c) (← peek))
  pure ((first.or second).getD .cut, indent)

/-- The rest of a line that holds at most a remark. -/
def restOfLine : Reading Unit := do
  let _ ← run (· == ' ')
  if (← peek) == some '#' then discard (run (!isBreak ·))
  require (endOr isBreak (← peek))
  let _ ← lineBreak

/-- Empty lines at the start of a block, and the furthest indentation seen. -/
def blockStart (most : Nat) : Nat → Reading (List Char × Nat)
  | 0 => pure ([], most)
  | fuel + 1 => do
    let spaces ← run (· == ' ')
    let c ← get
    let most := if spaces.isEmpty then most else max most c.column
    let b ← lineBreak
    if b.isEmpty then pure ([], most)
    else do
      let (more, most) ← blockStart most fuel
      pure (b ++ more, most)

/-- Skips spaces up to a column. -/
def indentTo (indent : Nat) : Reading Unit := do
  let c ← get
  let n := (c.rest.takeWhile (· == ' ')).length
  skip (min n (indent - c.column))

/-- Empty lines in a block. -/
def blockBreaks (indent : Nat) : Nat → Reading (List Char)
  | 0 => pure []
  | fuel + 1 => do
    indentTo indent
    let b ← lineBreak
    if b.isEmpty then pure [] else pure (b ++ (← blockBreaks indent fuel))

def startsBlank (c : Option Char) : Bool := c.any isSpaceOrTab

/-- The lines of a block, each indented so far, after some empty lines; with them the last break and
the empty lines that follow it. -/
def blockLines (folded : Bool) (indent : Nat) (empty : List Char) :
    Nat → Reading (List Char × List Char × List Char)
  | 0 => pure ([], [], empty)
  | fuel + 1 => do
    let c ← get
    if c.column != indent || c.rest.isEmpty then pure ([], [], empty)
    else do
      let blankFirst := startsBlank (← peek)
      let s ← run (!isBreak ·)
      let b ← lineBreak
      let more ← blockBreaks indent (← remaining)
      let d ← get
      if d.column == indent && !d.rest.isEmpty then do
        let joint :=
          if folded && b == ['\n'] && !blankFirst && !startsBlank (← peek) then
            if more.isEmpty then [' '] else []
          else b
        let (text, last, rest) ← blockLines folded indent more fuel
        pure (empty ++ s ++ joint ++ text, last, rest)
      else pure (empty ++ s, b, more)

/-- A block scalar, from its sign, inside so much indentation. -/
def block (folded : Bool) (outer : Int) : Reading (List Char) := do
  forward
  let (chomping, marked) ← blockMarks
  restOfLine
  let least := max 1 (outer + 1).toNat
  let (empty, indent) ← match marked with
    | some n => do
      let indent := least + n - 1
      pure (← blockBreaks indent (← remaining), indent)
    | none => do
      let (empty, most) ← blockStart 0 (← remaining)
      pure (empty, max least most)
  let (text, last, rest) ← blockLines folded indent empty ((← remaining) + 1)
  match chomping with
  | .drop => pure text
  | .cut => pure (text ++ last)
  | .keep => pure (text ++ last ++ rest)

end MockTree.Yaml
