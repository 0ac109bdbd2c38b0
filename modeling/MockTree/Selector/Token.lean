import MockTree.Decimal.Reader
/-! The tokens of selectors. -/
namespace MockTree.Selector
open Text

inductive Comparison where
  | equal
  | different
  | less
  | atMost
  | more
  | atLeast
  | fits
  deriving DecidableEq, Repr

inductive Token where
  | name (s : List Char)
  | number (n : Int)
  | real (x : Double)
  | truth (b : Bool)
  | operation (s : List Char)
  | compare (c : Comparison)
  | sort (descending : Bool)
  | anywhere
  | holding
  | lacking
  | either
  | both
  | sign (c : Char)
  deriving DecidableEq, Repr

def signs : List Char := "*.[]()$,:|&~?@+-/".toList

def isNameStart (c : Char) : Bool := c.isAlpha || c == '_'
def isNameChar (c : Char) : Bool := c.isAlphanum || c == '_' || c == '@' || c == '-'

/-- A quoted text up to its closing character; a backslash takes the next character as it is. -/
def quotedRest? (stop : Char) : List Char → Option (List Char × List Char)
  | [] => none
  | '\\' :: c :: r =>
    if c == '\n' then none else (quotedRest? stop r).map fun (s, rest) => (c :: s, rest)
  | c :: r =>
    if c == stop then some ([], r)
    else if c == '\\' then none
    else (quotedRest? stop r).map fun (s, rest) => (c :: s, rest)

/-- A mark of a sort: a slash of either kind, after blanks and a comma that may be left out. -/
def sortMark? (s : List Char) : Option (Bool × List Char) :=
  let s := match s with | ',' :: r => r | s => s
  match s.dropWhile isBlank with
  | '/' :: r => some (false, r)
  | '\\' :: r => some (true, r)
  | _ => none

/-- A number, which has a fraction if a point and a digit follow. -/
def number? (s : List Char) : Option (Token × List Char) := do
  let (minus, s) := match s with | '-' :: r => (['-'], r) | s => ([], s)
  let whole := s.takeWhile isDecimal
  if whole.isEmpty then none
  else
    let rest := s.dropWhile isDecimal
    match rest with
    | '.' :: r =>
      let fraction := r.takeWhile isDecimal
      if fraction.isEmpty then do some (.number (← Decimal.readInt? (minus ++ whole)), rest)
      else do
        some (.real (← Decimal.read? (minus ++ whole ++ '.' :: fraction)), r.dropWhile isDecimal)
    | _ => do some (.number (← Decimal.readInt? (minus ++ whole)), rest)

def word (s : List Char) : Token :=
  if s == "where".toList then .holding else if s == "wherenot".toList then .lacking else .name s

def name? (s : List Char) : Option (Token × List Char) :=
  let read (lead : List Char) : List Char → Option (Token × List Char)
    | c :: r =>
      if isNameStart c then
        some (word (lead ++ c :: r.takeWhile isNameChar), r.dropWhile isNameChar)
      else none
    | [] => none
  match s with
  | '@' :: r => read ['@'] r
  | s => read [] s

def comparison? : List Char → Option (Comparison × List Char)
  | '=' :: '~' :: r => some (.fits, r)
  | '=' :: '=' :: r => some (.equal, r)
  | '=' :: r => some (.equal, r)
  | '<' :: '=' :: r => some (.atMost, r)
  | '>' :: '=' :: r => some (.atLeast, r)
  | '!' :: '=' :: r => some (.different, r)
  | '<' :: r => some (.less, r)
  | '>' :: r => some (.more, r)
  | _ => none

def truth? (s : List Char) : Option (Bool × List Char) :=
  match s with
  | 't' :: 'r' :: 'u' :: 'e' :: r => some (true, r)
  | 'f' :: 'a' :: 'l' :: 's' :: 'e' :: r => some (false, r)
  | _ => none

/-- Tokens made of signs. -/
def sign? : List Char → Option (Token × List Char)
  | '.' :: '.' :: r => some (.anywhere, r)
  | '|' :: '|' :: r => some (.either, r)
  | '&' :: '&' :: r => some (.both, r)
  | c :: r =>
    if c == '\'' || c == '"' then (quotedRest? c r).map fun (s, rest) => (.name s, rest)
    else if c.toNat == 96 then (quotedRest? c r).map fun (s, rest) => (.operation s, rest)
    else if signs.contains c then some (.sign c, r)
    else none
  | [] => none

/-- The token that a text starts with. -/
def token? (s : List Char) : Option (Token × List Char) :=
  ((truth? s).map fun (b, r) => (.truth b, r))
  |>.or ((sortMark? s).map fun (b, r) => (.sort b, r))
  |>.or (name? s)
  |>.or (number? s)
  |>.or ((comparison? s).map fun (c, r) => (.compare c, r))
  |>.or (sign? s)

/-- All tokens, with spaces, tabs and line ends between them. -/
def tokensFrom : Nat → List Char → Option (List Token)
  | 0, s => if s.isEmpty then some [] else none
  | fuel + 1, s =>
    match s with
    | [] => some []
    | c :: r =>
      if c == ' ' || c == '\t' then tokensFrom fuel r
      else
        match token? s with
        | some (t, rest) => (tokensFrom fuel rest).map (t :: ·)
        | none => if c == '\n' then tokensFrom fuel r else none

def tokens? (s : List Char) : Option (List Token) := tokensFrom (s.length + 1) s

end MockTree.Selector
