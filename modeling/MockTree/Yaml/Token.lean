import MockTree.Yaml.Scalar
/-! The tokens of YAML. Indentation becomes tokens that open and close blocks, and a key is known as
one only when its colon comes: it is then marked where it began. So a token is certain once none before
it can turn out to be a key, and a fault does not undo those that were certain when it came. -/
namespace MockTree.Yaml

inductive Token where
  | version (major : Nat)
  | tagHandle (handle start : List Char)
  | directive
  | documentStart
  | documentEnd
  | blockSequence
  | blockMapping
  | blockEnd
  | openList
  | closeList
  | openMap
  | closeMap
  | comma
  | entry
  | key
  | value
  | alias (name : List Char)
  | anchor (name : List Char)
  | tag (handle : Option (List Char)) (rest : List Char)
  | scalar (text : List Char) (plain : Bool)
  deriving DecidableEq, Repr

/-- A place that may turn out to have begun a key: the number of tokens before it, whether it must be
a key, and where it is. -/
structure KeyPlace where
  before : Nat
  required : Bool
  place : Nat
  line : Nat
  column : Nat
  deriving Repr

/-- What has been read: the tokens, last first, the depth of brackets, the indentations of the open
blocks, whether a key may start here, and the possible keys by depth. -/
structure Progress where
  cursor : Cursor
  tokens : List Token
  depth : Nat
  indent : Int
  outer : List Int
  keyAllowed : Bool
  keys : List (Nat × KeyPlace)

/-- A place on another line or too far back is no key any more. -/
def Progress.isStale (p : Progress) (k : Nat × KeyPlace) : Bool :=
  k.2.line != p.cursor.line || p.cursor.place - k.2.place > 1024

/-- The tokens before all that may turn out to begin a key. -/
def Progress.certain (p : Progress) : List Token :=
  p.tokens.reverse.take
    ((p.keys.filter (!p.isStale ·)).foldl (fun n k => min n k.2.before) p.tokens.length)

abbrev Scan (α : Type) := StateT Progress (Except Fault) α

namespace Scan

def unreadable {α : Type} : Scan α := throw .unreadableYaml

def require (b : Bool) : Scan Unit := if b then pure () else unreadable

/-- Reads at the current place. -/
def reading {α : Type} (r : Reading α) : Scan α := do
  let p ← get
  let (a, c) ← (StateT.run r p.cursor : Except Fault (α × Cursor))
  set { p with cursor := c }
  pure a

def peek : Scan (Option Char) := do pure (← get).cursor.rest.head?

def skip (n : Nat) : Scan Unit := modify fun p => { p with cursor := p.cursor.skip n }

def add (t : Token) : Scan Unit := modify fun p => { p with tokens := t :: p.tokens }

/-- Puts a token behind the first so many. -/
def insertAt (n : Nat) (t : Token) : Scan Unit := modify fun p =>
  let later := p.tokens.take (p.tokens.length - n)
  { p with tokens := later ++ t :: p.tokens.drop (p.tokens.length - n) }

def allowKey (b : Bool) : Scan Unit := modify fun p => { p with keyAllowed := b }

/-- Forgets possible keys that are none any more; none of them may have been required. -/
def dropStale : Scan Unit := do
  let p ← get
  require (!p.keys.any fun k => p.isStale k && k.2.required)
  set { p with keys := p.keys.filter (!p.isStale ·) }

/-- Forgets the possible key at this depth, which must not have been required. -/
def dropKey : Scan Unit := do
  let p ← get
  require (!(p.keys.lookup p.depth).any (·.required))
  set { p with keys := p.keys.filter (·.1 != p.depth) }

/-- Notes that a key may begin here. -/
def noteKey : Scan Unit := do
  let p ← get
  if p.keyAllowed then do
    dropKey
    modify fun p => { p with keys := (p.depth, { before := p.tokens.length
                                                 required := p.depth == 0 && p.indent == p.cursor.column
                                                 place := p.cursor.place
                                                 line := p.cursor.line
                                                 column := p.cursor.column }) :: p.keys }
  else pure ()

/-- Closes the blocks indented beyond a column. -/
def closeBlocks (column : Int) : Scan Unit := modify fun p =>
  if p.depth != 0 then p
  else
    let rec go (indent : Int) (tokens : List Token) : List Int → Int × List Int × List Token
      | [] => (indent, [], tokens)
      | i :: rest => if column < indent then go i (.blockEnd :: tokens) rest
        else (indent, i :: rest, tokens)
    let (indent, outer, tokens) := go p.indent p.tokens p.outer
    { p with indent := indent, outer := outer, tokens := tokens }

/-- Opens a block at a column beyond the current indentation. -/
def openBlock (column : Nat) (t : Token) (before : Option Nat) : Scan Unit := do
  let p ← get
  if p.indent < column then do
    set { p with indent := column, outer := p.indent :: p.outer }
    match before with
    | some n => insertAt n t
    | none => add t
  else pure ()

/-- Goes to the next token, past blanks, remarks and line breaks. -/
def toNextToken : Nat → Scan Unit
  | 0 => pure ()
  | fuel + 1 => do
    discard (reading (Reading.run (· == ' ')))
    if (← peek) == some '#' then discard (reading (Reading.run (!isBreak ·)))
    let b ← reading Reading.lineBreak
    if b.isEmpty then pure ()
    else do
      if (← get).depth == 0 then allowKey true
      toNextToken fuel

end Scan
open Scan

def isWordChar (c : Char) : Bool := c.isAlphanum || c == '-' || c == '_'

def spaceOrBreak (c : Char) : Bool := c == ' ' || isBreak c

/-- A number of a version, which may be too long to be read. -/
def number : Reading Nat := do
  let ds ← Reading.run Char.isDigit
  Reading.require (!ds.isEmpty)
  if ds.length > Decimal.maxDigits then throw .badValue
  pure (ds.foldl (fun n d => n * 10 + (d.toNat - 48)) 0)

def isTagChar (c : Char) : Bool := c.isAlphanum || "-;/?:@&=+$,_.!~*'()[]%".toList.contains c

/-- Two hexadecimal digits after each percent sign. -/
def percentBytes : Nat → Reading (List UInt8)
  | 0 => pure []
  | fuel + 1 => do
    if ← Reading.accept '%' then do
      let ds := (← get).rest.take 2
      match hexCode? ds with
      | some n => do
        Reading.require (ds.length == 2)
        Reading.skip 2
        pure (n.toUInt8 :: (← percentBytes fuel))
      | none => Reading.unreadable
    else pure []

def tagTextFrom : Nat → Reading (List Char)
  | 0 => pure []
  | fuel + 1 => do
    let s ← Reading.run fun c => isTagChar c && c != '%'
    if (← Reading.peek) == some '%' then do
      match Text.ofUtf8? (← percentBytes fuel) with
      | some t => do pure (s ++ t ++ (← tagTextFrom fuel))
      | none => Reading.unreadable
    else pure s

/-- The text of a tag, which must not be empty. -/
def tagText : Reading (List Char) := do
  let s ← tagTextFrom ((← Reading.remaining) + 1)
  Reading.require (!s.isEmpty)
  pure s

/-- An exclamation mark, and if there is a word after it, the word and another mark. -/
def handle : Reading (List Char) := do
  Reading.require (← Reading.accept '!')
  if (← Reading.peek) == some ' ' then pure ['!']
  else do
    let s ← Reading.run isWordChar
    if ← Reading.accept '!' then pure ('!' :: s ++ ['!'])
    else do
      Reading.require s.isEmpty
      Reading.unreadable

/-- Whether a mark comes before the tag ends, so that the tag starts with a handle. -/
def hasHandle : List Char → Bool
  | [] => false
  | c :: r => !spaceOrBreak c && (c == '!' || hasHandle r)

def tag : Reading Token := do
  let t ← match ← Reading.peekAt 1 with
    | some '<' => do
      Reading.skip 2
      let s ← tagText
      Reading.require (← Reading.accept '>')
      pure (Token.tag none s)
    | c =>
      if endOr isBlankOrBreak c then do
        Reading.forward
        pure (Token.tag none ['!'])
      else do
        let rest := (← get).rest.tail
        let h ← if hasHandle rest then handle else do
          Reading.forward
          pure ['!']
        pure (Token.tag (some h) (← tagText))
  Reading.require (endOr spaceOrBreak (← Reading.peek))
  pure t

/-- The name of an anchor or an alias, after its sign. -/
def anchorName : Reading (List Char) := do
  Reading.forward
  let s ← Reading.run isWordChar
  Reading.require (!s.isEmpty)
  let ends := fun c =>
    isBlankOrBreak c || "?:,]\x7d%@".toList.contains c || c.toNat == 96
  Reading.require (endOr ends (← Reading.peek))
  pure s

def directive : Reading Token := do
  Reading.forward
  let name ← Reading.run isWordChar
  Reading.require (!name.isEmpty)
  Reading.require (endOr spaceOrBreak (← Reading.peek))
  let t ← if name == "YAML".toList then do
      discard (Reading.run (· == ' '))
      let major ← number
      Reading.require (← Reading.accept '.')
      discard number
      Reading.require (endOr spaceOrBreak (← Reading.peek))
      pure (Token.version major)
    else if name == "TAG".toList then do
      discard (Reading.run (· == ' '))
      let h ← handle
      Reading.require ((← Reading.peek) == some ' ')
      discard (Reading.run (· == ' '))
      let s ← tagText
      Reading.require (endOr spaceOrBreak (← Reading.peek))
      pure (Token.tagHandle h s)
    else do
      discard (Reading.run (!isBreak ·))
      pure Token.directive
  restOfLine
  pure t

/-- A token that starts in the first column and ends all blocks. -/
def documentMark (r : Reading Token) : Scan Unit := do
  closeBlocks (-1)
  dropKey
  allowKey false
  add (← reading r)

def opening (t : Token) : Scan Unit := do
  noteKey
  modify fun p => { p with depth := p.depth + 1, keyAllowed := true }
  skip 1
  add t

def closing (t : Token) : Scan Unit := do
  dropKey
  require ((← get).depth != 0)
  modify fun p => { p with depth := p.depth - 1, keyAllowed := false }
  skip 1
  add t

def blockEntry : Scan Unit := do
  let p ← get
  if p.depth == 0 then do
    require p.keyAllowed
    openBlock p.cursor.column .blockSequence none
  allowKey true
  dropKey
  skip 1
  add .entry

def explicitKey : Scan Unit := do
  let p ← get
  if p.depth == 0 then do
    require p.keyAllowed
    openBlock p.cursor.column .blockMapping none
  allowKey (p.depth == 0)
  dropKey
  skip 1
  add .key

/-- A colon: it makes a key of the place noted at this depth, if there is one. -/
def valueMark : Scan Unit := do
  let p ← get
  match p.keys.lookup p.depth with
  | some k => do
    set { p with keys := p.keys.filter (·.1 != p.depth) }
    insertAt k.before .key
    if p.depth == 0 then openBlock k.column .blockMapping (some k.before)
    allowKey false
  | none => do
    if p.depth == 0 then do
      require p.keyAllowed
      openBlock p.cursor.column .blockMapping none
    allowKey (p.depth == 0)
    dropKey
  skip 1
  add .value

/-- A token that may be, or belong to, a key. -/
def keyPart (r : Reading Token) : Scan Unit := do
  noteKey
  allowKey false
  add (← reading r)

def blockScalar (folded : Bool) : Scan Unit := do
  allowKey true
  dropKey
  let s ← reading (block folded (← get).indent)
  add (.scalar s false)

def plainScalar : Scan Unit := do
  noteKey
  allowKey false
  let p ← get
  let (s, newLine) ← reading (plain (p.depth != 0) (p.indent + 1))
  if newLine then allowKey true
  add (.scalar s true)

/-- Characters that cannot start a plain scalar on their own. -/
def isIndicator (c : Char) : Bool :=
  isBlankOrBreak c || "-?:,[]\x7b\x7d#&*!|>'\"%@".toList.contains c || c.toNat == 96

def startsPlain (inFlow : Bool) (c : Char) (next : Option Char) : Bool :=
  !isIndicator c ||
    (!endOr isBlankOrBreak next && (c == '-' || (!inFlow && (c == '?' || c == ':'))))

/-- The next token; the text is not at its end. -/
def oneToken : Scan Unit := do
  let p ← get
  match p.cursor.rest with
  | [] => pure ()
  | c :: r =>
    let first := p.cursor.column == 0
    let apart := endOr isBlankOrBreak r.head?
    let inFlow := p.depth != 0
    if c == '%' && first then documentMark directive
    else if first && p.cursor.atSeparator then
      documentMark do
        Reading.skip 3
        pure (if c == '-' then .documentStart else .documentEnd)
    else if c == '[' then opening .openList
    else if c == '\x7b' then opening .openMap
    else if c == ']' then closing .closeList
    else if c == '\x7d' then closing .closeMap
    else if c == ',' then do
      allowKey true
      dropKey
      skip 1
      add .comma
    else if c == '-' && apart then blockEntry
    else if c == '?' && (inFlow || apart) then explicitKey
    else if c == ':' && (inFlow || apart) then valueMark
    else if c == '*' then keyPart do pure (.alias (← anchorName))
    else if c == '&' then keyPart do pure (.anchor (← anchorName))
    else if c == '!' then keyPart tag
    else if c == '|' && !inFlow then blockScalar false
    else if c == '>' && !inFlow then blockScalar true
    else if c == '\'' || c == '"' then keyPart do pure (.scalar (← quoted c) false)
    else if startsPlain inFlow c r.head? then plainScalar
    else unreadable

/-- Goes on by one token, or closes all blocks at the end of the text. Tells whether it was the end. -/
def fetch : Scan Bool := do
  toNextToken ((← get).cursor.rest.length + 1)
  dropStale
  let p ← get
  closeBlocks p.cursor.column
  if p.cursor.rest.isEmpty then do
    closeBlocks (-1)
    dropKey
    pure true
  else do
    oneToken
    pure false

/-- The tokens of a text, or those that were certain before a fault, and the fault. -/
structure Scanned where
  tokens : List Token
  fault : Option Fault

def scanFrom (p : Progress) : Nat → Scanned
  | 0 => ⟨p.certain, some .unreadableYaml⟩
  | fuel + 1 =>
    match StateT.run fetch p with
    | .error f => ⟨p.certain, some f⟩
    | .ok (true, p) => ⟨p.tokens.reverse, none⟩
    | .ok (false, p) => scanFrom p fuel

/-- Scans a text. A byte order mark may stand at its start. -/
def scan (s : List Char) : Scanned :=
  if !s.all isAllowed then ⟨[], some .unreadableYaml⟩
  else
    let c := Cursor.start s
    let c := if s.head?.any isByteOrderMark then c.forward else c
    scanFrom ⟨c, [], 0, -1, [], true, []⟩ (s.length + 2)

end MockTree.Yaml
