import MockTree.Pattern.Syntax
import MockTree.Decimal.Reader
import MockTree.Text.Names
/-! Reading patterns. -/
namespace MockTree.Pattern
open Text

/-- Why a text is no pattern: it breaks the rules, repeats more often than can be counted, or
states what cannot hold at once or a number too long to read. -/
inductive Flaw where
  | invalid
  | tooManyTimes
  | contradiction
  deriving DecidableEq, Repr

/-- One character, alone or after a backslash. -/
inductive Token where
  | plain (c : Char)
  | escaped (c : Char)
  deriving DecidableEq, Repr

/-- A backslash needs a character after it. -/
def tokens? : List Char → Option (List Token)
  | [] => some []
  | '\\' :: c :: r => (tokens? r).map (.escaped c :: ·)
  | '\\' :: [] => none
  | c :: r => (tokens? r).map (.plain c :: ·)

def Token.chars : Token → List Char
  | .plain c => [c]
  | .escaped c => ['\\', c]

/-- How the pattern is read at a place. -/
structure Options where
  ascii : Bool
  ignoreCase : Bool
  multiline : Bool
  dotAll : Bool
  spaced : Bool
  deriving DecidableEq, Repr

def Options.folding (o : Options) : Folding :=
  if !o.ignoreCase then .exact else if o.ascii then .ascii else .full

/-- What is left to read, and what has been met: the groups opened, each with its width once closed,
their names, the groups that conditions ask about, how many groups there were before the look-behind
that is being read, and whether one was read that has no single width. -/
structure Progress where
  tokens : List Token
  options : Options
  groups : List (Nat × Option Width)
  names : List (List Char × Nat)
  asked : List Nat
  behind : Option Nat
  uneven : Bool
  asciiSet : Bool
  unicodeSet : Bool
  noRepetition : Bool

abbrev Reading (α : Type) := StateT Progress (Except Flaw) α

namespace Reading

def invalid {α : Type} : Reading α := throw .invalid

def require (b : Bool) : Reading Unit := if b then pure () else invalid

def peek : Reading (Option Token) := do pure (← get).tokens.head?

def advance : Reading Unit := modify fun p => { p with tokens := p.tokens.tail }

/-- The next token, which must exist. -/
def next : Reading Token := do
  match ← peek with
  | some t => advance; pure t
  | none => invalid

def accept (c : Char) : Reading Bool := do
  if (← peek) == some (.plain c) then advance; pure true else pure false

def expect (c : Char) : Reading Unit := do require (← accept c)

/-- Up to so many characters of a kind. -/
def upTo (p : Char → Bool) : Nat → Reading (List Char)
  | 0 => pure []
  | n + 1 => do
    match ← peek with
    | some (.plain c) => if p c then do advance; pure (c :: (← upTo p n)) else pure []
    | _ => pure []

def remaining : Reading Nat := do pure (← get).tokens.length

/-- A name before a closing character. -/
def nameFrom (stop : Char) : Nat → Reading (List Char)
  | 0 => invalid
  | n + 1 => do
    let t ← next
    if t == .plain stop then pure [] else pure (t.chars ++ (← nameFrom stop n))

def name (stop : Char) : Reading (List Char) := do
  let s ← nameFrom stop ((← remaining) + 1)
  require (!s.isEmpty)
  pure s

/-- Groups in whose place a part may stand: they are closed, and known before the look-behind. -/
def referTo (group : Nat) : Reading Unit := do
  let p ← get
  require ((p.groups.lookup group).any Option.isSome)
  require (p.behind.all (group < ·))

def groupCount : Reading Nat := do pure ((← get).groups.length + 1)

end Reading
open Reading

def isOctal (c : Char) : Bool := '0' ≤ c && c ≤ '7'

def isHex (c : Char) : Bool := c.isDigit || ('a' ≤ c && c ≤ 'f') || ('A' ≤ c && c ≤ 'F')

def valueIn (base : Nat) (ds : List Char) : Nat :=
  ds.foldl (fun n c => n * base + if c.isDigit then c.toNat - 48 else (c.toNat ||| 32) - 87) 0

/-- Exactly so many hexadecimal digits. -/
def hexadecimal (count : Nat) : Reading Nat := do
  let ds ← upTo isHex count
  require (ds.length == count)
  pure (valueIn 16 ds)

/-- The code point an escaped character stands for, whether in a set or outside. -/
def plainEscape (c : Char) : Reading Nat :=
  match c with
  | 'a' => pure 7
  | 'f' => pure 12
  | 'n' => pure 10
  | 'r' => pure 13
  | 't' => pure 9
  | 'v' => pure 11
  | 'N' => do
    expect '\x7b'
    match codeNamed? (← name '\x7d') with
    | some n => pure n
    | none => invalid
  | 'x' => hexadecimal 2
  | 'u' => hexadecimal 4
  | 'U' => do
    let n ← hexadecimal 8
    require (n < 0x110000)
    pure n
  | c => if c.isAlphanum then invalid else pure c.toNat

def category? : Char → Option (Category × Bool)
  | 'd' => some (.digit, true)
  | 'D' => some (.digit, false)
  | 's' => some (.space, true)
  | 'S' => some (.space, false)
  | 'w' => some (.word, true)
  | 'W' => some (.word, false)
  | _ => none

/-- An escaped character in a set. -/
def memberEscape (c : Char) : Reading Member := do
  match category? c with
  | some (kind, inside) => pure (.category kind inside (← get).options.ascii)
  | none =>
    if c == 'b' then pure (.one 8)
    else if isOctal c then do
      let n := valueIn 8 (c :: (← upTo isOctal 2))
      require (n ≤ 0o377)
      pure (.one n)
    else pure (.one (← plainEscape c))

def member : Token → Reading Member
  | .plain c => pure (.one c.toNat)
  | .escaped c => memberEscape c

/-- The members of a set up to its closing bracket, which may itself be the first of them. -/
def members (started : Bool) : Nat → Reading (List Member)
  | 0 => invalid
  | fuel + 1 => do
    let t ← next
    if started && t == .plain ']' then pure []
    else do
      let first ← member t
      if ← accept '-' then do
        let u ← next
        if u == .plain ']' then pure [first, .one 45]
        else do
          match first, ← member u with
          | .one low, .one high =>
            require (low ≤ high)
            pure (.range low high :: (← members true fuel))
          | _, _ => invalid
      else pure (first :: (← members true fuel))

def literal (code : Nat) : Reading Regex := do
  pure (.chars ⟨false, [.one code], (← get).options.folding⟩)

/-- What a part is, as far as a repetition after it is concerned. -/
inductive Role where
  | place
  | repeated
  | part
  deriving DecidableEq, Repr

/-- A reference to a group by number, or a character by three octal digits. -/
def numberEscape (c : Char) : Reading Regex := do
  let second ← upTo Char.isDigit 1
  let third ← if isOctal c && second.any isOctal then upTo isOctal 1 else pure []
  if third.isEmpty then do
    let n := valueIn 10 (c :: second)
    require (n < (← groupCount))
    referTo n
    pure (.sameAs n (← get).options.folding)
  else do
    let n := valueIn 8 (c :: (second ++ third))
    require (n ≤ 0o377)
    literal n

def escape (c : Char) : Reading (Regex × Role) := do
  let o := (← get).options
  match c with
  | 'A' => pure (.anchor .textStart, .place)
  | 'Z' => pure (.anchor .textEnd, .place)
  | 'b' => pure (.anchor (.wordEdge o.ascii), .place)
  | 'B' => pure (.anchor (.noWordEdge o.ascii), .place)
  | '0' => pure (← literal (valueIn 8 (← upTo isOctal 2)), .part)
  | c =>
    match category? c with
    | some (kind, inside) =>
      pure (.chars ⟨false, [.category kind inside o.ascii], o.folding⟩, .part)
    | none =>
      if c.isDigit then pure (← numberEscape c, .part)
      else pure (← literal (← plainEscape c), .part)

/-- Counts stay below this. -/
def countLimit : Nat := 4294967295

def count? (ds : List Char) : Reading (Option Nat) := do
  if ds.isEmpty then pure none
  else if ds.length > Decimal.maxDigits then throw .contradiction
  else if valueIn 10 ds ≥ countLimit then throw .tooManyTimes
  else pure (some (valueIn 10 ds))

/-- The bounds after an opening brace; none if the brace stands for itself. -/
def bounds? : Reading (Option (Nat × Option Nat)) := do
  let saved := (← get).tokens
  let n ← remaining
  let lows ← upTo Char.isDigit n
  let comma ← accept ','
  let highs ← if comma then upTo Char.isDigit n else pure lows
  if (lows.isEmpty && !comma) || !(← accept '\x7d') then do
    modify fun p => { p with tokens := saved }
    pure none
  else do
    let low := (← count? lows).getD 0
    let high ← count? highs
    require (high.all (low ≤ ·))
    pure (some (low, high))

/-- How a repetition is marked. -/
def greed : Reading Greed := do
  if ← accept '?' then pure .lazy
  else if ← accept '+' then pure .possessive
  else pure .greedy

/-- The repetition of the last part read. -/
def repeatLast (low : Nat) (high : Option Nat) : List (Regex × Role) → Reading (List (Regex × Role))
  | (r, .part) :: rest => do
    let g ← greed
    require (!(← get).noRepetition)
    pure ((.repetition r low high g, .repeated) :: rest)
  | _ => invalid

def skipLine : Nat → Reading Unit
  | 0 => pure ()
  | fuel + 1 => do
    match ← peek with
    | none => pure ()
    | some t => do
      advance
      if t == .plain '\n' then pure () else skipLine fuel

def skipRemark : Nat → Reading Unit
  | 0 => invalid
  | fuel + 1 => do if (← next) == .plain ')' then pure () else skipRemark fuel

def isFlag (c : Char) : Bool := "aimsxutL".toList.contains c

/-- The letters of flags up to a character that is none, which must be one of those given. -/
def flagLetters (stops : List Char) : Nat → Reading (List Char × Char)
  | 0 => invalid
  | fuel + 1 => do
    match ← next with
    | .plain c =>
      if stops.contains c then pure ([], c)
      else if isFlag c then do
        let (fs, stop) ← flagLetters stops fuel
        pure (c :: fs, stop)
      else invalid
    | .escaped _ => invalid

/-- Options with those of the letters switched. -/
def Options.switch (o : Options) (on : Bool) (fs : List Char) : Options :=
  fs.foldl (fun o c => match c with
    | 'a' => { o with ascii := true }
    | 'u' => { o with ascii := false }
    | 'i' => { o with ignoreCase := on }
    | 'm' => { o with multiline := on }
    | 's' => { o with dotAll := on }
    | 'x' => { o with spaced := on }
    | _ => o) o

/-- Flags for the whole pattern, given as none, or for one group. -/
def flags (first : Char) : Reading (Option Options) := do
  let n ← remaining
  let (added, stop) ← if first == '-' then pure ([], '-') else do
    let (fs, stop) ← flagLetters [')', ':', '-'] (n + 1)
    pure (first :: fs, stop)
  require (!added.contains 'L' && !(added.contains 'a' && added.contains 'u'))
  if stop == ')' then do
    modify fun p => { p with
      options := p.options.switch true added
      asciiSet := p.asciiSet || added.contains 'a'
      unicodeSet := p.unicodeSet || added.contains 'u'
      noRepetition := p.noRepetition || added.contains 't' }
    pure none
  else do
    require (!added.contains 't')
    let removed ← if stop == ':' then pure [] else do
      let (fs, _) ← flagLetters [':'] (n + 1)
      require (!fs.isEmpty)
      pure fs
    require (!removed.any "auLt".toList.contains && !removed.any added.contains)
    pure (some (((← get).options.switch true added).switch false removed))

/-- Reads with other options, and leaves those in force as they were. -/
def withOptions {α : Type} (o : Options) (r : Reading α) : Reading α := do
  let saved := (← get).options
  modify fun p => { p with options := o }
  let a ← r
  modify fun p => { p with options := saved }
  pure a

/-- Opens the next group. -/
def openGroup (name : Option (List Char)) : Reading Nat := do
  let n ← groupCount
  let p ← get
  match name with
  | some s =>
    require ((p.names.lookup s).isNone)
    set { p with groups := (n, none) :: p.groups, names := (s, n) :: p.names }
  | none => set { p with groups := (n, none) :: p.groups }
  pure n

def Progress.widthOf (p : Progress) (n : Nat) : Width := ((p.groups.lookup n).join).getD ⟨0, some 0⟩

def closeGroup (n : Nat) (r : Regex) : Reading Unit :=
  modify fun p => { p with
    groups := p.groups.map fun (m, w) => if m == n then (m, some (r.width p.widthOf)) else (m, w) }

/-- The group that a condition asks about, by name or by number. -/
def condition : Reading Nat := do
  let s ← name ')'
  let p ← get
  let n ← if isName s then
      match p.names.lookup s with
      | some n => pure n
      | none => invalid
    else
      match Decimal.readInt? s with
      | some (.ofNat (n + 1)) => do
        modify fun p => { p with asked := (n + 1) :: p.asked }
        pure (n + 1)
      | _ => invalid
  if p.behind.isSome then referTo n
  pure n

def namedReference : Reading Regex := do
  let s ← name ')'
  require (isName s)
  match (← get).names.lookup s with
  | some n => do
    referTo n
    pure (.sameAs n (← get).options.folding)
  | none => invalid

/-- What a look-behind takes must have one width. Whether it has is asked only when all is read. -/
def lookBehind (holds : Bool) (r : Regex) : Reading Regex := do
  match (r.width (← get).widthOf).fixed? with
  | some w => do
    if w > countLimit then modify fun p => { p with uneven := true }
    pure (.behind holds w r)
  | none => do
    modify fun p => { p with uneven := true }
    pure (.behind holds 0 r)

def single (c : Char) : Reading (Regex × Role) := do
  let o := (← get).options
  match c with
  | '^' => pure (.anchor (if o.multiline then .lineStart else .textStart), .place)
  | '$' => pure (.anchor (if o.multiline then .lineEnd else .lastLineEnd), .place)
  | '.' => pure (.chars ⟨true, if o.dotAll then [] else [.one 10], .exact⟩, .part)
  | '[' => do
    let negated ← accept '^'
    let ms ← members false ((← remaining) + 1)
    pure (.chars ⟨negated, ms, o.folding⟩, .part)
  | c => pure (← literal c.toNat, .part)

mutual

/-- Parts up to a bar, a closing parenthesis or the end; the parts read so far come last first. -/
def sequence (first : Bool) (parts : List (Regex × Role)) : Nat → Reading Regex
  | 0 => invalid
  | fuel + 1 => do
    match ← peek with
    | none => pure (.ofList (parts.reverse.map (·.1)))
    | some (.escaped c) => do
      advance
      sequence first ((← escape c) :: parts) fuel
    | some (.plain c) =>
      if c == '|' || c == ')' then pure (.ofList (parts.reverse.map (·.1)))
      else do
        advance
        if (← get).options.spaced && Category.space.has true c then sequence first parts fuel
        else if (← get).options.spaced && c == '#' then do
          skipLine (← remaining)
          sequence first parts fuel
        else
          match c with
          | '?' => do sequence first (← repeatLast 0 (some 1) parts) fuel
          | '*' => do sequence first (← repeatLast 0 none parts) fuel
          | '+' => do sequence first (← repeatLast 1 none parts) fuel
          | '\x7b' => do
            match ← bounds? with
            | some (low, high) => sequence first (← repeatLast low high parts) fuel
            | none => sequence first ((← literal 123, .part) :: parts) fuel
          | '(' => do
            match ← parenthesis (first && parts.isEmpty) fuel with
            | some r => sequence first ((r, .part) :: parts) fuel
            | none => sequence first parts fuel
          | c => do sequence first ((← single c) :: parts) fuel

/-- Sequences between bars. -/
def alternatives (first : Bool) : Nat → Reading Regex
  | 0 => invalid
  | fuel + 1 => do
    let a ← sequence first [] fuel
    if ← accept '|' then pure (.alt a (← alternatives false fuel)) else pure a

/-- What follows an opening parenthesis; remarks and flags for the whole pattern are no part. -/
def parenthesis (atStart : Bool) : Nat → Reading (Option Regex)
  | 0 => invalid
  | fuel + 1 => do
    if ← accept '?' then
      match ← next with
      | .escaped _ => invalid
      | .plain 'P' =>
        if ← accept '<' then do
          let s ← name '>'
          require (isName s)
          pure (some (← captured (some s) fuel))
        else do
          expect '='
          pure (some (← namedReference))
      | .plain ':' => do pure (some (← inside fuel))
      | .plain '>' => do pure (some (.atomic (← inside fuel)))
      | .plain '#' => do
        skipRemark ((← remaining) + 1)
        pure none
      | .plain '=' => do pure (some (.ahead true (← inside fuel)))
      | .plain '!' => do pure (some (.ahead false (← inside fuel)))
      | .plain '<' => do
        let t ← next
        require (t == .plain '=' || t == .plain '!')
        let outer := (← get).behind
        let known ← groupCount
        modify fun p => { p with behind := some (outer.getD known) }
        let r ← alternatives false fuel
        modify fun p => { p with behind := outer }
        expect ')'
        pure (some (← lookBehind (t == .plain '=') r))
      | .plain '(' => do
        let n ← condition
        let present ← sequence false [] fuel
        let absent ← if ← accept '|' then sequence false [] fuel else pure .empty
        expect ')'
        pure (some (.choice n present absent))
      | .plain c =>
        if isFlag c || c == '-' then do
          match ← flags c with
          | none => do
            require atStart
            pure none
          | some o => do pure (some (← withOptions o (inside fuel)))
        else invalid
    else do pure (some (← captured none fuel))

def captured (name : Option (List Char)) : Nat → Reading Regex
  | 0 => invalid
  | fuel + 1 => do
    let n ← openGroup name
    let r ← inside fuel
    closeGroup n r
    pure (.group n r)

/-- Alternatives and the closing parenthesis. -/
def inside : Nat → Reading Regex
  | 0 => invalid
  | fuel + 1 => do
    let r ← alternatives false fuel
    expect ')'
    pure r

end

/-- A pattern must use up its text, the groups it asks about must exist, and what its look-behinds take must
have one width. -/
def whole (fuel : Nat) : Reading Regex := do
  let r ← alternatives true fuel
  let p ← get
  if p.asciiSet && p.unicodeSet then throw .contradiction
  require p.tokens.isEmpty
  require (p.asked.all (· ≤ p.groups.length))
  require !p.uneven
  pure r

def Regex.read (s : List Char) : Except Flaw Regex :=
  match tokens? s with
  | none => .error .invalid
  | some ts =>
    (·.1) <$> StateT.run (whole (4 * ts.length + 8))
      ⟨ts, ⟨false, false, false, false, false⟩, [], [], [], none, false, false, false, false⟩

end MockTree.Pattern
