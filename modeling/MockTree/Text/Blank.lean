/-! Blank characters, and what depends on them: trimming, words, and squeezing runs of blanks. -/
namespace MockTree.Text

def isBlank (c : Char) : Bool :=
  let n := c.toNat
  (9 ≤ n && n ≤ 13) || (28 ≤ n && n ≤ 32) || n == 0x85 || n == 0xa0 || n == 0x1680 ||
    (0x2000 ≤ n && n ≤ 0x200a) || n == 0x2028 || n == 0x2029 || n == 0x202f || n == 0x205f ||
    n == 0x3000

theorem isBlank_space : isBlank ' ' = true := by decide

def trimStart (s : List Char) : List Char := s.dropWhile isBlank
def trimEnd (s : List Char) : List Char := (s.reverse.dropWhile isBlank).reverse
def trim (s : List Char) : List Char := trimEnd (trimStart s)

/-- The words of a text, given the letters already read of the current one, last first. -/
def wordsFrom (word : List Char) : List Char → List (List Char)
  | [] => if word.isEmpty then [] else [word.reverse]
  | c :: r =>
    if isBlank c then
      if word.isEmpty then wordsFrom [] r else word.reverse :: wordsFrom [] r
    else wordsFrom (c :: word) r

/-- The maximal runs without blanks. -/
def words (s : List Char) : List (List Char) := wordsFrom [] s

/-- Every run of blanks becomes one space. -/
def squeeze : List Char → List Char
  | [] => []
  | c :: r =>
    if isBlank c then
      match r with
      | d :: _ => if isBlank d then squeeze r else ' ' :: squeeze r
      | [] => [' ']
    else c :: squeeze r

theorem filter_squeeze (s : List Char) :
    (squeeze s).filter (!isBlank ·) = s.filter (!isBlank ·) := by
  induction s with
  | nil => rfl
  | cons c r ih =>
    by_cases hc : isBlank c = true
    · cases r with
      | nil => simp [squeeze, hc, isBlank_space]
      | cons d r =>
        by_cases hd : isBlank d = true
        · simpa [squeeze, hc, hd] using ih
        · simpa [squeeze, hc, hd, isBlank_space] using ih
    · simpa [squeeze, hc] using ih

end MockTree.Text
