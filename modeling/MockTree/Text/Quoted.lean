import MockTree.Text.Letters
/-! Text as a quoted literal: the quote is an apostrophe unless the text holds an apostrophe and no
double quote; backslashes, controls and characters that cannot be shown are escaped. -/
namespace MockTree.Text

def hexDigit (n : Nat) : Char := Char.ofNat (if n < 10 then 48 + n else 87 + n)

/-- Lower-case hexadecimal of a fixed width. -/
def hexOf : Nat → Nat → List Char
  | 0, _ => []
  | width + 1, n => hexOf width (n / 16) ++ [hexDigit (n % 16)]

def quoteFor (s : List Char) : Char :=
  if s.contains '\'' && !s.contains '"' then '"' else '\''

def quotedChar (quote c : Char) : List Char :=
  if c == quote || c == '\\' then ['\\', c]
  else if c == '\t' then ['\\', 't']
  else if c == '\n' then ['\\', 'n']
  else if c == '\r' then ['\\', 'r']
  else if isPrintable c then [c]
  else if c.toNat < 0x100 then ['\\', 'x'] ++ hexOf 2 c.toNat
  else if c.toNat < 0x10000 then ['\\', 'u'] ++ hexOf 4 c.toNat
  else ['\\', 'U'] ++ hexOf 8 c.toNat

def quoted (s : List Char) : List Char :=
  let q := quoteFor s
  q :: s.flatMap (quotedChar q) ++ [q]

def quotedByte (quote : Char) (b : UInt8) : List Char :=
  let c := Char.ofNat b.toNat
  if c == quote || c == '\\' then ['\\', c]
  else if c == '\t' then ['\\', 't']
  else if c == '\n' then ['\\', 'n']
  else if c == '\r' then ['\\', 'r']
  else if 32 ≤ b && b < 127 then [c]
  else ['\\', 'x'] ++ hexOf 2 b.toNat

/-- Bytes are quoted as text is, behind a b. -/
def quotedBytes (bs : List UInt8) : List Char :=
  let q := quoteFor (bs.map fun b => Char.ofNat b.toNat)
  'b' :: q :: bs.flatMap (quotedByte q) ++ [q]

end MockTree.Text
