import MockTree.Text.Find
/-! Paths of files: a list of names, from the root of all files or from where one stands. Empty names
and single dots are dropped when a path is read; double dots are kept until it is resolved. -/
namespace MockTree

structure Path where
  absolute : Bool
  names : List String
  deriving DecidableEq, Repr

namespace Path
open Text

def isKept (name : List Char) : Bool := !name.isEmpty && name != ['.']

def namesOf (s : String) : List String :=
  ((splitAt '/' s.toList).filter isKept).map String.ofList

def ofString (s : String) : Path := ⟨s.toList.head? == some '/', namesOf s⟩

def text (p : Path) : String :=
  if p.absolute then "/" ++ String.intercalate "/" p.names
  else if p.names.isEmpty then "."
  else String.intercalate "/" p.names

/-- The path with another after it; an absolute one replaces it. -/
def join (p : Path) (s : String) : Path :=
  let q := ofString s
  if q.absolute then q else ⟨p.absolute, p.names ++ q.names⟩

def parent (p : Path) : Path := ⟨p.absolute, p.names.dropLast⟩

/-- Names with every double dot taken back together with the name before it, last name first. -/
def foldDots (done : List String) : List String → List String
  | [] => done
  | n :: r => if n == ".." then foldDots done.tail r else foldDots (n :: done) r

/-- The absolute path without double dots, read from a working directory. -/
def resolve (p working : Path) : Path :=
  let all := if p.absolute then p.names else working.names ++ p.names
  ⟨true, (foldDots [] all).reverse⟩

theorem foldDots_no_dots (names done : List String) (hd : ".." ∉ done) :
    ".." ∉ foldDots done names := by
  induction names generalizing done with
  | nil => simpa [foldDots] using hd
  | cons n r ih =>
    by_cases h : n = ".."
    · simpa [foldDots, h] using ih done.tail fun hm => hd (List.mem_of_mem_tail hm)
    · have hn : ".." ∉ n :: done := by simp [hd, Ne.symm h]
      simpa [foldDots, h] using ih (n :: done) hn

/-- A resolved path has no double dots. -/
theorem resolve_no_dots (p working : Path) : ".." ∉ (p.resolve working).names := by
  simpa [resolve] using foldDots_no_dots _ [] (by simp)

end Path
end MockTree
