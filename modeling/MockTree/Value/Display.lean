import MockTree.Value.Basic
import MockTree.Decimal.Reader
import MockTree.Text.Quoted
/-! Values written out for people: lists in brackets, mappings and sets in braces, text in quotes when
it stands inside another value. -/
namespace MockTree
open Text Calendar

def severityName (n : Nat) : String :=
  if n == 10 then "DEBUG" else if n == 20 then "INFO" else if n == 30 then "WARNING"
  else if n == 40 then "ERROR" else if n == 50 then "CRITICAL" else if n == 0 then "NOTSET"
  else "Level " ++ toString n

def Sink.effective (s : Sink) : Nat := if s.level == 0 then s.inherited else s.level

def Sink.shown (s : Sink) : List Char :=
  "<Logger ".toList ++ s.name.toList ++ " (".toList ++ (severityName s.effective).toList ++ ")>".toList

def intText (n : Int) : List Char :=
  (if n < 0 then ['-'] else []) ++ Nat.toDigits 10 n.natAbs

def commaSeparated (parts : List (List Char)) : List Char :=
  match parts with
  | [] => []
  | p :: ps => p ++ ps.flatMap (", ".toList ++ ·)

def offsetShown (seconds : Int) : List Char :=
  if seconds == 0 then "datetime.timezone.utc".toList
  else
    let days := seconds.fdiv 86400
    let rest := seconds.fmod 86400
    let parts := (if days == 0 then [] else ["days=".toList ++ intText days]) ++
      (if rest == 0 then [] else ["seconds=".toList ++ intText rest])
    "datetime.timezone(datetime.timedelta(".toList ++ commaSeparated parts ++ "))".toList

def momentShown (t : Moment) : List Char :=
  let clock :=
    if t.micro != 0 then [t.second, t.micro] else if t.second != 0 then [t.second] else []
  let numbers := [t.date.year, t.date.month, t.date.day, t.hour, t.minute] ++ clock
  let zone := match t.offset with
    | some s => ["tzinfo=".toList ++ offsetShown s]
    | none => []
  "datetime.datetime(".toList ++ commaSeparated (numbers.map (Nat.toDigits 10) ++ zone) ++ [')']

def dateShown (d : Date) : List Char :=
  "datetime.date(".toList ++ commaSeparated ([d.year, d.month, d.day].map (Nat.toDigits 10)) ++ [')']

/-- A scalar inside another value. -/
def Scalar.shown : Scalar → List Char
  | .null => "None".toList
  | .bool b => (if b then "True" else "False").toList
  | .int n => intText n
  | .real x => x.text
  | .text s => quoted s.toList
  | .bytes bs => quotedBytes bs
  | .date d => dateShown d
  | .moment t => momentShown t
  | .sink s => s.shown
  | .enclosing isMap _ => (if isMap then "\x7b...\x7d" else "[...]").toList

/-- A scalar on its own. -/
def Scalar.plain : Scalar → List Char
  | .text s => s.toList
  | .date d => d.text
  | .moment t => t.text
  | s => s.shown

mutual

/-- A value inside another value. -/
def Value.shown : Value → List Char
  | .scalar s => s.shown
  | .list items => '[' :: commaSeparated (shownItems items) ++ [']']
  | .map entries => '\x7b' :: commaSeparated (shownEntries entries) ++ ['\x7d']
  | .set members =>
    if members.isEmpty then "set()".toList
    else '\x7b' :: commaSeparated (members.map Scalar.shown) ++ ['\x7d']

def Value.shownItems : List Value → List (List Char)
  | [] => []
  | v :: r => v.shown :: shownItems r

def Value.shownEntries : List (Scalar × Value) → List (List Char)
  | [] => []
  | (k, v) :: r => (k.shown ++ ": ".toList ++ v.shown) :: shownEntries r

end

/-- A whole number of more digits than may be written has no text. -/
def Scalar.hasText : Scalar → Bool
  | .int n => (Nat.toDigits 10 n.natAbs).length ≤ Decimal.maxDigits
  | _ => true

mutual

/-- Every number in a value has a text. -/
def Value.hasText : Value → Bool
  | .scalar s => s.hasText
  | .list items => itemsHaveText items
  | .map entries => entriesHaveText entries
  | .set members => members.all Scalar.hasText

def Value.itemsHaveText : List Value → Bool
  | [] => true
  | v :: r => v.hasText && itemsHaveText r

def Value.entriesHaveText : List (Scalar × Value) → Bool
  | [] => true
  | (k, v) :: r => k.hasText && v.hasText && entriesHaveText r

end

/-- A value on its own: text stands without quotes. -/
def Value.plain : Value → List Char
  | .scalar s => s.plain
  | v => v.shown

/-- The name of the kind of a value. -/
def Value.kindName : Value → String
  | .scalar s =>
    match s with
    | .null => "NoneType"
    | .bool _ => "bool"
    | .int _ => "int"
    | .real _ => "float"
    | .text _ => "str"
    | .bytes _ => "bytes"
    | .date _ => "date"
    | .moment _ => "datetime"
    | .sink _ => "Logger"
    | .enclosing isMap _ => if isMap then "dict" else "list"
  | .list _ => "list"
  | .map _ => "dict"
  | .set _ => "set"

end MockTree
