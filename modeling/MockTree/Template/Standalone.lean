import MockTree.Text.Blank
/-! White space around tags. A tilde at the edge of a tag removes the blanks on its side, and a line
that holds only block tags or comments leaves neither indentation nor line break. -/
namespace MockTree.Template
open Text

def isInline (c : Char) : Bool := c == ' ' || c == '\t'
def isBrace (c : Char) : Bool := c == '\x7b' || c == '\x7d'

def openBraces : List Char := ['\x7b', '\x7b']
def closeBraces : List Char := ['\x7d', '\x7d']

/-- The start of s that rest follows. -/
def consumed (s rest : List Char) : List Char := s.take (s.length - rest.length)

/-- The inside of a tag that may have a line of its own. -/
def isLineTag (kinds : List Char) (orElse : Bool) (inner : List Char) : Bool :=
  match inner with
  | [] => false
  | k :: t =>
    (kinds.contains k && !t.isEmpty) ||
      (orElse && (inner == "else".toList ||
        (inner.take 8 == "else if ".toList && 8 < inner.length)))

/-- The text after such a tag. -/
def afterLineTag? (kinds : List Char) (orElse : Bool) : List Char → Option (List Char)
  | a :: b :: r =>
    if [a, b] == openBraces then
      let inner := r.takeWhile (!isBrace ·)
      match r.dropWhile (!isBrace ·) with
      | c :: d :: rest =>
        if [c, d] == closeBraces && isLineTag kinds orElse inner then some rest else none
      | _ => none
    else none
  | _ => none

/-- The text after one or more such tags with blanks between them. -/
def afterLineTags? (kinds : List Char) (orElse : Bool) : Nat → List Char → Option (List Char)
  | 0, _ => none
  | fuel + 1, s =>
    match afterLineTag? kinds orElse (s.dropWhile isInline) with
    | none => none
    | some r =>
      match afterLineTags? kinds orElse fuel r with
      | some r' => some r'
      | none => some (r.dropWhile isInline)

def afterNewline? : List Char → Option (List Char)
  | '\r' :: '\n' :: r => some r
  | '\n' :: r => some r
  | _ => none

/-- The text after the tags and the line break that ends their line. -/
def afterTagLine? (kinds : List Char) (orElse : Bool) (s : List Char) : Option (List Char) :=
  (afterLineTags? kinds orElse s.length s).bind afterNewline?

/-- The text after a line break and tags that end the text. -/
def afterLastLine? (s : List Char) : Option (List Char) :=
  (afterNewline? s).bind fun r =>
    match afterLineTags? ['/', '!'] false r.length r with
    | some [] => some []
    | some ['\n'] => some ['\n']
    | _ => none

/-- The text after a tilde on the right edge of a tag and the blanks that follow. -/
def afterRightTilde? : List Char → Option (List Char)
  | '~' :: a :: b :: r => if [a, b] == closeBraces then some (r.dropWhile isBlank) else none
  | _ => none

/-- The text after blanks and a tag's opening with a tilde. -/
def afterLeftTilde? (s : List Char) : Option (List Char) :=
  match s.dropWhile isBlank with
  | a :: b :: '~' :: r => if [a, b] == openBraces then some r else none
  | _ => none

/-- The text after what is to be tidied at this place, given the character before it. -/
def afterTidied? (previous : Option Char) (s : List Char) : Option (List Char) :=
  afterRightTilde? s <|> afterLeftTilde? s
    <|> (if previous == some '\n' then afterTagLine? ['#', '/', '!'] true s else none)
    <|> (if previous == none then afterTagLine? ['#', '!'] false s else none)
    <|> afterLastLine? s

/-- Removes the tildes of tags, and the blanks between two tags. -/
def cleanFrom (before last : Option Char) : List Char → List Char
  | [] => []
  | c :: r =>
    if c == '~' && ([before, last] == openBraces.map some || r.take 2 == closeBraces) then
      cleanFrom last (some c) r
    else if isInline c && [before, last] == closeBraces.map some &&
        (r.dropWhile isInline).take 2 == openBraces then
      cleanFrom before last r
    else c :: cleanFrom last (some c) r

def clean (s : List Char) : List Char := cleanFrom none none (trim s)

def tidyFrom (previous : Option Char) : List Char → List Char
  | [] => []
  | c :: r =>
    match afterTidied? previous (c :: r) with
    | some rest =>
      if rest.length ≤ r.length then
        let taken := consumed (c :: r) rest
        clean taken ++ tidyFrom taken.getLast? rest
      else c :: tidyFrom (some c) r
    | none => c :: tidyFrom (some c) r
termination_by s => s.length
decreasing_by all_goals simp <;> omega

/-- The text of a template with the white space around its tags settled. -/
def tidy (s : List Char) : List Char := tidyFrom none s

end MockTree.Template
