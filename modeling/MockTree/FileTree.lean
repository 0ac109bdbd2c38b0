import MockTree.Path
import MockTree.Text.Utf8
import MockTree.Text.Find
/-! A tree of directories and files, and what can be asked of a path in it. -/
namespace MockTree

inductive FileNode
  | file (content : List UInt8)
  | directory (entries : List (String × FileNode))
  deriving Repr

namespace FileNode

def empty : FileNode := .directory []

def child? (name : String) : List (String × FileNode) → Option FileNode
  | [] => none
  | (n, x) :: r => if n == name then some x else child? name r

def setChild (name : String) (x : FileNode) : List (String × FileNode) → List (String × FileNode)
  | [] => [(name, x)]
  | (n, y) :: r => if n == name then (n, x) :: r else (n, y) :: setChild name x r

def entries : FileNode → List (String × FileNode)
  | .file _ => []
  | .directory es => es

/-- Puts a node at a place below, making the directories on the way. -/
def put (x : FileNode) : List String → FileNode → FileNode
  | [], _ => x
  | n :: r, d => .directory (setChild n (put x r ((child? n d.entries).getD empty)) d.entries)

/-- Makes a directory at a place below unless something is there. -/
def makeDirectory : List String → FileNode → FileNode
  | [], d => d
  | n :: r, d =>
    .directory (setChild n (makeDirectory r ((child? n d.entries).getD empty)) d.entries)

def remove : List String → FileNode → FileNode
  | [], d => d
  | [n], d => .directory (d.entries.filter (·.1 != n))
  | n :: r, d =>
    match child? n d.entries with
    | some x => .directory (setChild n (remove r x) d.entries)
    | none => d

end FileNode

/-- All files, and the directory that relative paths start from. -/
structure FileTree where
  root : FileNode
  working : Path
  deriving Repr

/-- What a walk along a path comes to. -/
inductive Found
  | node (x : FileNode)
  | missing
  /-- A name on the way is that of a file. -/
  | throughFile
  | nameTooLong
  | nullName
  deriving Repr

namespace FileTree

/-- The most bytes of one name. -/
def maxNameBytes : Nat := 255

/-- The most bytes of a whole path. -/
def maxPathBytes : Nat := 4095

/-- Walks down from the first of the nodes; the others are its ancestors, nearest first. -/
def walk : FileNode → List FileNode → List String → Found
  | here, _, [] => .node here
  | .file _, _, _ :: _ => .throughFile
  | .directory entries, above, n :: r =>
    if n == ".." then
      match above with
      | up :: more => walk up more r
      | [] => walk (.directory entries) [] r
    else if maxNameBytes < n.utf8ByteSize then .nameTooLong
    else
      match FileNode.child? n entries with
      | some x => walk x (.directory entries :: above) r
      | none => .missing

def absoluteNames (t : FileTree) (p : Path) : List String :=
  if p.absolute then p.names else t.working.names ++ p.names

def find (t : FileTree) (p : Path) : Found :=
  if p.text.toList.contains '\x00' then .nullName
  else if maxPathBytes < p.text.utf8ByteSize then .nameTooLong
  else walk t.root [] (t.absoluteNames p)

def resolve (t : FileTree) (p : Path) : Path := p.resolve t.working

def makeDirectory (t : FileTree) (p : Path) : FileTree :=
  { t with root := FileNode.makeDirectory (t.resolve p).names t.root }

def write (t : FileTree) (p : Path) (content : List UInt8) : FileTree :=
  { t with root := FileNode.put (.file content) (t.resolve p).names t.root }

def remove (t : FileTree) (p : Path) : FileTree :=
  { t with root := FileNode.remove (t.resolve p).names t.root }

end FileTree
end MockTree
