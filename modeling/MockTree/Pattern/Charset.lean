import MockTree.Text.Blank
import MockTree.Text.Case
/-! Sets of characters as a pattern writes them, and when a character is in one. -/
namespace MockTree.Pattern
open Text

/-- Which characters count as one letter in two cases. -/
inductive Folding where
  | exact
  | ascii
  | full
  deriving DecidableEq, Repr

inductive Category where
  | digit
  | space
  | word
  deriving DecidableEq, Repr

/-- A member of a set; characters are given by their code points. -/
inductive Member where
  | one (code : Nat)
  | range (first last : Nat)
  | category (kind : Category) (inside ascii : Bool)
  deriving DecidableEq, Repr

structure Charset where
  negated : Bool
  members : List Member
  folding : Folding
  deriving DecidableEq, Repr

/-- Lower-case letters that share a capital. -/
def kindred : List (List Nat) := [
  [105, 305], [115, 383], [181, 956], [837, 953, 8126], [912, 8147], [944, 8163], [946, 976],
  [949, 1013], [952, 977], [954, 1008], [960, 982], [961, 1009], [962, 963], [966, 981],
  [1074, 7296], [1076, 7297], [1086, 7298], [1089, 7299], [1090, 7300, 7301], [1098, 7302],
  [1123, 7303], [7304, 42571], [7777, 7835], [64261, 64262]]

/-- The lower case of one character, as one character. -/
def foldChar (c : Char) : Char := if c.toNat == 304 then 'i' else lowerChar c

def foldAscii (c : Char) : Char := if 'A' ≤ c && c ≤ 'Z' then Char.ofNat (c.toNat + 32) else c

/-- A lower-case letter and those that share its capital. -/
def kin (code : Nat) : List Nat :=
  match kindred.find? (·.contains code) with
  | some group => group
  | none => [code]

/-- Code points whose lower case is the given one. -/
def casings (code : Nat) : List Nat :=
  let shifted := lowerRuns.filterMap fun r =>
    let n := ((code : Int) - r.shift).toNat
    if r.covers n && (n : Int) + r.shift == code then some n else none
  let ascii := if 97 ≤ code && code ≤ 122 then [code - 32] else []
  let dotted := if code == 105 then [304] else []
  code :: (ascii ++ dotted ++ shifted)

/-- The code points a character stands for under a folding. -/
def variants (folding : Folding) (c : Char) : List Nat :=
  match folding with
  | .exact => [c.toNat]
  | .ascii =>
    let n := (foldAscii c).toNat
    if 97 ≤ n && n ≤ 122 then [n, n - 32] else [n]
  | .full => (kin (foldChar c).toNat).flatMap casings

def Category.has (kind : Category) (ascii : Bool) (c : Char) : Bool :=
  match kind, ascii with
  | .digit, false => isDecimal c
  | .digit, true => c.isDigit
  | .space, false => isBlank c
  | .space, true => c == ' ' || (9 ≤ c.toNat && c.toNat ≤ 13)
  | .word, false => isWordChar c
  | .word, true => c.isAlphanum || c == '_'

def Member.has (folding : Folding) (c : Char) : Member → Bool
  | .one code => (variants folding c).contains code
  | .range first last => (variants folding c).any fun n => first ≤ n && n ≤ last
  | .category kind inside ascii => kind.has ascii c == inside

def Charset.has (s : Charset) (c : Char) : Bool :=
  s.members.any (·.has s.folding c) != s.negated

/-- Whether two characters are the same letter, where letters sharing a capital stay apart. -/
def sameLetter (folding : Folding) (a b : Char) : Bool :=
  match folding with
  | .exact => a == b
  | .ascii => foldAscii a == foldAscii b
  | .full => foldChar a == foldChar b

end MockTree.Pattern
