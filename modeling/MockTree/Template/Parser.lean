import MockTree.Template.Node
import MockTree.Template.Rule
import MockTree.Template.Standalone
import MockTree.Text.Letters
import MockTree.Text.Find
import MockTree.Decimal.Reader
/-! Reading a template. Text runs to the next pair of opening braces; a tag that cannot be read stops
the reading, and is an error unless the reading had seen the end of the text. -/
namespace MockTree.Template.Grammar
open Text Rule

def isSymbolChar (c : Char) : Bool := isWordChar c || c == '-' || c == '@'
def isGap (c : Char) : Bool := c == ' ' || c == '\t' || c == '\r' || c == '\n'

def opening : Rule Unit := Rule.text openBraces
def closing : Rule Unit := Rule.text closeBraces

/-- What stands inside the tag between a block and its alternative. -/
def elseInner : Rule Unit := do
  spaces
  char '^' <|> Rule.text "else".toList
  spaces
  closing

/-- A character that may be left out. -/
def optional (x : Char) : Rule Unit := char x <|> seeHere

/-- A name of letters, digits, hyphens and at signs; a bracket on either side does not count. -/
def symbol : Rule (List Char) := do
  Rule.lacking elseInner
  optional '['
  let s ← run1 isSymbolChar
  optional ']'
  pure s

/-- The name of a named argument, of two characters at least. -/
def argumentName : Rule (List Char) := do
  Rule.lacking elseInner
  optional '['
  let first ← satisfy fun c => isLetter c || c == '_'
  let others ← run1 isWordChar
  optional ']'
  pure (first :: others)

def segment : Rule String :=
  (do char '['; let s ← run1 (· != ']'); char ']'; pure (String.ofList s))
  <|> (do Rule.text "@../".toList; pure "@@_parent")
  <|> (do pure (String.ofList (← symbol)))
  <|> (do char '/'; pure "")
  <|> (do Rule.text "../".toList; pure "@_parent")
  <|> (do char '.'; pure "")

/-- The segment for the value at hand is written in several ways. -/
def plainSegment (s : String) : String := if s == "this" then "" else s

def path : Rule (List String) := do
  Rule.lacking (char '/')
  let n ← remaining
  let segments ← many segment n
  if segments.isEmpty then Rule.fail else pure (segments.map plainSegment)

/-- The characters up to a closing quote; a backslash stands before a quote of either kind. -/
def quotedText (quote : Char) : Rule (List Char) := do
  char quote
  let n ← remaining
  let s ← many (escapedQuote <|> satisfy (· != quote)) n
  char quote
  pure s
where
  escapedQuote : Rule Char := do
    char '\\'
    satisfy fun c => c == '"' || c == '\''

def wholeNumber : Rule Scalar := do
  let negative ← (do char '-'; pure true) <|> (do seeHere; pure false)
  let ds ← run1 isDecimal
  let n := Decimal.natOf (ds.map Decimal.plainDigit)
  pure (.int (if negative then -(n : Int) else n))

def keyword (name : String) (s : Scalar) : Rule Scalar := do
  Rule.text name.toList
  pure s

def literal : Rule Scalar :=
  (do pure (.text (String.ofList (← quotedText '"'))))
  <|> (do pure (.text (String.ofList (← quotedText '\''))))
  <|> wholeNumber
  <|> keyword "false" (.bool false)
  <|> keyword "true" (.bool true)
  <|> keyword "null" .null
  <|> keyword "undefined" .null

/-- An argument as it is written: by position or by name. -/
inductive Written
  | positional (a : Argument)
  | named (name : String) (a : Argument)

def Written.gather (ws : List Written) : Arguments :=
  ⟨ws.filterMap fun | .positional a => some a | .named .. => none,
   ws.filterMap fun | .named n a => some (n, a) | .positional _ => none⟩

mutual

/-- A directive called inside the arguments of a tag. -/
def subexpression : Nat → Rule Argument
  | 0 => Rule.fail
  | fuel + 1 => do
    char '('
    spaces
    let p ← path
    let n ← remaining
    let ws ← many (do spaces; argument fuel) n
    spaces
    char ')'
    let args := Written.gather ws
    pure (.call (String.join p) args.positional args.named)

def argument : Nat → Rule Written
  | 0 => Rule.fail
  | fuel + 1 =>
    (do
      let name ← argumentName
      char '='
      let a ← (do pure (Argument.literal (← literal))) <|> (do pure (Argument.path (← path)))
        <|> subexpression fuel
      pure (.named (String.ofList name) a))
    <|> (do pure (.positional (.literal (← literal))))
    <|> (do pure (.positional (.path (← path))))
    <|> (do pure (.positional (← subexpression fuel)))

end

def writtenArguments : Rule (List Written) := do
  let n ← remaining
  many (do let _ ← run1 isGap; argument (n + 1)) n

/-- Keywords that cannot name an argument. -/
def reservedNames : List String := ["False", "None", "True", "and", "as", "assert", "async", "await",
  "break", "class", "continue", "def", "del", "elif", "else", "except", "finally", "for", "from",
  "global", "if", "import", "in", "is", "lambda", "nonlocal", "not", "or", "pass", "raise", "return",
  "try", "while", "with", "yield", "__debug__"]

def namesAreDistinct : List String → Bool
  | [] => true
  | n :: r => !r.contains n && namesAreDistinct r

/-- A positional argument after a named one. -/
def outOfOrder : Bool → List Written → Bool
  | _, [] => false
  | named, .positional _ :: r => named || outOfOrder named r
  | _, .named .. :: r => outOfOrder true r

/-- Text that a tag cannot carry. -/
def hasNull (s : String) : Bool := s.toList.contains '\x00'

/-- Text that can stand between such quotes on one line. -/
def fitsQuotes (quote : Char) : List Char → Bool
  | [] => true
  | '\\' :: _ :: r => fitsQuotes quote r
  | c :: r => c != quote && c != '\\' && c != '\n' && c != '\r' && c.toNat != 0 && fitsQuotes quote r

def segmentsFit (segments : List String) : Bool :=
  segments.all fun s => fitsQuotes '"' s.toList

mutual

def argumentFits : Argument → Bool
  | .literal (.text s) => !hasNull s
  | .literal _ => true
  | .path segments => segmentsFit segments
  | .call _ positional named =>
    argumentsFit positional && namedFit named && namesAreDistinct (named.map (·.1)) &&
      named.all fun (n, _) => !reservedNames.contains n

def argumentsFit : List Argument → Bool
  | [] => true
  | a :: r => argumentFits a && argumentsFit r

def namedFit : List (String × Argument) → Bool
  | [] => true
  | (_, a) :: r => argumentFits a && namedFit r

end

/-- The arguments, and whether they can be passed on at all. -/
def arguments : Rule (Arguments × Bool) := do
  let ws ← writtenArguments
  let args := Written.gather ws
  pure (args, !outOfOrder false ws && argumentFits (.call "" args.positional args.named))

/-- A piece of a template as read, and whether all its tags can be carried out. -/
structure Piece where
  node : Option Node
  sound : Bool

def shown (escaped : Bool) : Rule Piece := do
  spaces
  let p ← path
  let (args, ok) ← arguments
  spaces
  let pathFits := match p with
    | [s] => fitsQuotes '\'' s.toList
    | _ => segmentsFit p
  pure ⟨some (.print escaped p args), ok && pathFits⟩

def comment : Rule Piece := do
  opening
  char '!'
  let c ← get
  match cutText? closeBraces c.rest with
  | some (before, after) =>
    let place := c.place + before.length + 2
    see (place - 1)
    set (Cursor.mk place after)
    pure ⟨none, true⟩
  | none =>
    see (c.place + c.rest.length)
    Rule.fail

def escapedTag : Rule Piece := do
  opening
  let p ← shown true
  closing
  pure p

def unescapedTag : Rule Piece :=
  (do opening; char '\x7b'; let p ← shown false; char '\x7d'; closing; pure p)
  <|> (do opening; char '&'; let p ← shown false; closing; pure p)

def includeTag : Rule Piece := do
  opening
  char '>'
  spaces
  Rule.lacking elseInner
  let _ ← char '[' <|> char '"' <|> seeHere
  let n ← remaining
  let name ← many (do
    Rule.lacking closing
    satisfy fun c => !isGap c && c != ']' && c != '"') n
  if name.isEmpty then Rule.fail
  let _ ← char ']' <|> char '"' <|> seeHere
  let (_, ok) ← arguments
  spaces
  closing
  pure ⟨some (.part (String.ofList name)), ok && fitsQuotes '\'' name⟩

/-- The end tag of a raw block, and what is before and after it. -/
def cutRaw? (name : List Char) (s : List Char) : Option (List Char × List Char) :=
  cutText? (openBraces ++ openBraces ++ '/' :: name ++ closeBraces ++ closeBraces) s

def rawBlock : Rule Piece := do
  opening
  opening
  spaces
  let name ← symbol
  let (args, ok) ← arguments
  spaces
  closing
  closing
  let c ← get
  match cutRaw? name c.rest with
  | some (body, after) =>
    let place := c.place + (c.rest.length - after.length)
    see (place - 1)
    set (Cursor.mk place after)
    pure ⟨some (.raw (String.ofList name) args body), ok⟩
  | none =>
    see (c.place + c.rest.length)
    Rule.fail

/-- The end tag of a block. -/
def blockEnd (name : List Char) : Rule Unit := do
  opening
  char '/'
  let found ← symbol
  if found != name then Rule.fail
  closing

/-- The text at a place: a line break, a run of blanks, or all up to the next tag. -/
def textHere? : List Char → Option (List Char × List Char)
  | [] => none
  | '\n' :: r => some (['\n'], r)
  | '\r' :: '\n' :: r => some (['\n'], r)
  | c :: r =>
    if isInline c then some (c :: r.takeWhile isInline, r.dropWhile isInline)
    else
      match cutText? openBraces (c :: r) with
      | some ([], _) => none
      | some (before, after) => some (before, openBraces ++ after)
      | none => some (c :: r, [])

def pieceText (s : List Char) : Piece := ⟨some (.text s), true⟩

def nodesOf (ps : List Piece) : List Node := ps.filterMap (·.node)
def allSound (ps : List Piece) : Bool := ps.all (·.sound)

mutual

/-- Text and tags as far as they can be read. -/
def pieces : Nat → Rule (List Piece)
  | 0 => pure []
  | fuel + 1 => do
    let c ← get
    match textHere? c.rest with
    | some (s, rest) =>
      set (Cursor.mk (c.place + (c.rest.length - rest.length)) rest)
      seeHere
      let ps ← pieces fuel
      pure (pieceText s :: ps)
    | none =>
      (do let p ← tag fuel; let ps ← pieces fuel; pure (p :: ps)) <|> (do seeHere; pure [])

def tag : Nat → Rule Piece
  | 0 => Rule.fail
  | fuel + 1 =>
    block fuel '#' <|> block fuel '^' <|> comment <|> escapedTag <|> unescapedTag <|> includeTag
      <|> rawBlock

/-- A block from its first tag to its end tag. -/
def block : Nat → Char → Rule Piece
  | 0, _ => Rule.fail
  | fuel + 1, mark => do
    opening
    char mark
    spaces
    let name ← symbol
    let (args, ok) ← arguments
    spaces
    closing
    let body ← pieces fuel
    let other ← (do opening; elseInner; let ps ← pieces fuel; pure (some ps))
      <|> (do seeHere; pure none)
    blockEnd name
    let alternative := other.getD []
    pure ⟨some (.block (mark == '^') (String.ofList name) args (nodesOf body) other.isSome
      (nodesOf alternative)), ok && allSound body && allSound alternative⟩

end

/-- Why a text is no template. -/
inductive Flaw
  /-- Reading stopped here, and had not seen the end of the text. -/
  | unreadable (place : Nat)
  /-- A tag has arguments that cannot be passed on. -/
  | unsound
  deriving DecidableEq, Repr

/-- The nodes of a text whose white space is settled. A rest that was seen to the end is dropped. -/
def readTidy (s : List Char) : Except Flaw (List Node) :=
  let (result, seen) := Rule.apply (pieces (3 * s.length + 3)) s
  let ps := result.getD []
  if seen < s.length then .error (.unreadable seen)
  else if allSound ps then .ok (nodesOf ps)
  else .error .unsound

/-- What stands around a place: back to braces or a blank, and on to braces or a blank. -/
def wordAt (s : List Char) (place : Nat) : List Char :=
  let left := (s.take place).reverse
  let right := s.drop place
  let leftLength :=
    let n := (left.takeWhile fun c => c != '\x7b' && !isBlank c).length
    if (left.drop n).take 2 == openBraces then n + 2
    else if (left.drop n).take 1 == ['\x7b'] then n + 1 else n
  let rightLength :=
    let n := (right.takeWhile fun c => c != '\x7d' && !isBlank c).length
    if (right.drop n).take 2 == closeBraces then n + 2
    else if (right.drop n).take 1 == ['\x7d'] then n + 1 else n
  (left.take leftLength).reverse ++ right.take rightLength

/-- The report of a place: its column in its line, the number of lines, and the word there. -/
def placeMessage (s : List Char) (place : Nat) : List Char :=
  let before := s.take place
  let column :=
    if before.contains '\n' then (before.reverse.takeWhile (· != '\n')).length + 1 else place
  "Error at character ".toList ++ Nat.toDigits 10 column ++ " of line ".toList ++
    Nat.toDigits 10 (s.count '\n' + 1) ++ " near ".toList ++ wordAt s place

/-- The first argument called from in a tag is passed under another name. -/
def renameFrom : List Char → List Char
  | [] => []
  | c :: r =>
    match renamed? (c :: r) with
    | some (done, rest) =>
      if rest.length ≤ r.length then done ++ renameFrom rest else c :: renameFrom r
    | none => c :: renameFrom r
termination_by s => s.length
decreasing_by all_goals simp <;> omega
where
  /-- A tag's start up to its first such argument, rewritten, and what follows. -/
  renamed? (s : List Char) : Option (List Char × List Char) :=
    match after? openBraces s with
    | some r => (search r).map fun (a, b) => (openBraces ++ a, b)
    | none => none
  search : List Char → Option (List Char × List Char)
    | [] => none
    | c :: r =>
      if c == '\x7d' then none
      else
        match (if isBlank c then after? "from=".toList r else none) with
        | some rest => some (c :: "source=".toList, rest)
        | none => (search r).map fun (a, b) => (c :: a, b)

/-- Reads the text of a template. -/
def read (s : List Char) : Except (Flaw × List Char) (List Node) :=
  let t := tidy (renameFrom s)
  match readTidy t with
  | .ok nodes => .ok nodes
  | .error f => .error (f, t)

end MockTree.Template.Grammar
