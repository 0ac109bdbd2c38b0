import MockTree.Response
import MockTree.Fault
import MockTree.Text.Blank
import MockTree.Text.Find
import MockTree.Decimal.Reader
import MockTree.Pattern.Charset
/-! The head of a rendered definition: the status line and the headers, up to the first blank line. -/
namespace MockTree.Definition
open Text

/-- Three digits of any script at the start. -/
def threeDigits? : List Char → Option Nat
  | a :: b :: c :: _ => do
    let x ← decimalValue? a
    let y ← decimalValue? b
    let z ← decimalValue? c
    pure (x * 100 + y * 10 + z)
  | _ => none

/-- The first three digits that follow a blank. -/
def codeAfterBlank? : List Char → Option Nat
  | [] => none
  | c :: r =>
    if isBlank c then (threeDigits? (r.dropWhile isBlank)).or (codeAfterBlank? r)
    else codeAfterBlank? r

/-- What follows a text at the start, in letters of either case. -/
def afterWord? : List Char → List Char → Option (List Char)
  | [], s => some s
  | _ :: _, [] => none
  | w :: ws, c :: r => if Pattern.foldAscii c == w then afterWord? ws r else none

/-- What follows a protocol and the first digit of its version. -/
def afterVersion? (s : List Char) : Option (List Char) :=
  match afterWord? "http/".toList s with
  | some (d :: r) => if isDecimal d then some r else none
  | _ => none

/-- The status code of a status line: after the version, behind a blank. -/
def statusCode? : List Char → Option Nat
  | [] => none
  | c :: r =>
    match afterVersion? (c :: r) with
    | some rest => (codeAfterBlank? rest).or (statusCode? r)
    | none => statusCode? r

/-- The header that sets a delay. -/
def delayName : List Char := "Response-Delay".toList

/-- Milliseconds, cut down to a whole number; no number and no less than nothing is no delay. -/
def readDelay (s : List Char) : Except Fault Int :=
  match Decimal.read? s with
  | none | some .nan => .ok 0
  | some x =>
    match x.truncate? with
    | some n => .ok (max n 0)
    | none => .error .overflow

/-- A line of the head. -/
inductive Line
  | status (code : Nat)
  | delay (ms : Int)
  | header (name value : String)
  /-- A line without a colon says nothing. -/
  | nothing
  deriving DecidableEq, Repr

def Line.read (line : List Char) : Except Fault Line :=
  if startsWith "HTTP".toList line then
    match statusCode? line with
    | some code => .ok (.status code)
    | none => .error (.failure ⟨.statusLine (String.ofList line), none⟩)
  else
    match cut? ':' line with
    | none => .ok .nothing
    | some (name, value) =>
      if trim name == delayName then (readDelay (trim value)).map .delay
      else .ok (.header (String.ofList (trim name)) (String.ofList (trim value)))

def Line.apply (r : Response) : Line → Response
  | .status code => { r with status := code }
  | .delay ms => { r with delay := ms }
  | .header name value => r.setHeader name value
  | .nothing => r

/-- The response that the head describes, and the lines after the blank one. -/
def readHead (r : Response) : List (List Char) → Except Fault (Response × List (List Char))
  | [] => .ok (r, [])
  | line :: rest =>
    if (trim line).isEmpty then .ok (r, rest)
    else
      match Line.read line with
      | .ok l => readHead (l.apply r) rest
      | .error f => .error f

/-- Puts a space into the first opening and the first closing triple brace. -/
def partBraces (s : List Char) : List Char :=
  replaceFirst "\x7d\x7d\x7d".toList "\x7d\x7d \x7d".toList
    (replaceFirst "\x7b\x7b\x7b".toList "\x7b \x7b\x7b".toList s)

/-- Blanks of a body become single spaces, and triple braces are parted. -/
def normalize (s : List Char) : List Char := partBraces (trim (squeeze s))

/-- The response described by the head of a text, and the body. -/
def split (rendered : List Char) : Except Fault (Response × List Char) :=
  (readHead .empty (lines rendered)).map fun (r, body) => (r, normalize body.flatten)

end MockTree.Definition
