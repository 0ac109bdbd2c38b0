import MockTree.CommandLine.Form
import MockTree.Text.Find
/-! Help texts: the usage, folded to the width of a terminal, and a column of explanations. -/
namespace MockTree.CommandLine
open Text

/-- The columns that a text can fill. -/
def width : Nat := 78

/-- The column where explanations start. -/
def helpColumn : Nat := 24

def space (n : Nat) : List Char := List.replicate n ' '

/-- The words of a switch as they are explained. -/
def Switch.wordsShown (s : Switch) : List Char :=
  let one := if s.choices.isEmpty then s.placeholder.toList
    else '\x7b' :: joinWith [','] (s.choices.map String.toList) ++ ['\x7d']
  match s.arity with
  | .none => []
  | .one => ' ' :: one
  | .several => ' ' :: one ++ " [".toList ++ one ++ " ...]".toList

def Switch.usage (s : Switch) : List Char :=
  '[' :: s.shortSpelling.getD s.longSpelling ++ s.wordsShown ++ [']']

def Switch.shown (s : Switch) : List Char :=
  joinWith ", ".toList ((s.shortSpelling.toList ++ [s.longSpelling]).map (· ++ s.wordsShown))

/-- Puts parts on lines that are no longer than the width; a line is filled up to its length. -/
def fold (length : Nat) (line : List (List Char)) (indent : Nat) :
    List (List Char) → List (List (List Char))
  | [] => if line.isEmpty then [] else [line.reverse]
  | p :: r =>
    if width < length + 1 + p.length && !line.isEmpty then
      line.reverse :: fold (indent + p.length) [p] indent r
    else fold (length + p.length + 1) (p :: line) indent r

def usageStart : List Char := "usage: ".toList

/-- The usage of a command with switches and other parts. -/
def usage (name : List Char) (switches others : List (List Char)) : List Char :=
  let parts := switches ++ others
  let whole := joinWith [' '] (name :: parts)
  if usageStart.length + whole.length ≤ width then usageStart ++ whole
  else
    let indent := usageStart.length + name.length + 1
    let first := fold (usageStart.length - 1) [] indent (name :: switches)
    let second := fold (indent - 1) [] indent others
    let lines := (first ++ second).map (joinWith [' '])
    usageStart ++ joinWith ('\n' :: space indent) lines

/-- A line of help, or two if what it explains is long. -/
def entry (indent : Nat) (what help : List Char) : List Char :=
  let start := space indent ++ what
  if start.length + 2 ≤ helpColumn then start ++ space (helpColumn - start.length) ++ help ++ ['\n']
  else start ++ '\n' :: space helpColumn ++ help ++ ['\n']

def switchesSection (switches : List Switch) : List Char :=
  "options:\n".toList ++ switches.flatMap fun s => entry 2 s.shown s.help.toList

/-- The help of a command of a program. -/
def commandHelp (program : String) (form : Form) : List Char :=
  let name := program.toList ++ ' ' :: form.name.toList
  usage name (form.switches.map Switch.usage) (form.operand.toList.map (·.1.toList)) ++ "\n\n".toList ++
    (match form.operand with
      | some (n, help) => "positional arguments:\n".toList ++ entry 2 n.toList help.toList ++ ['\n']
      | none => []) ++ switchesSection form.switches

def commandNames : List Char :=
  '\x7b' :: joinWith [','] (Form.commands.map (·.name.toList)) ++ ['\x7d']

def examples (program : List Char) : List Char :=
  "Examples:\n  # Serve a mock tree\n  ".toList ++ program ++
    " serve --mock-dir ./mocks --port 8080\n\n  # Show where a request is resolved\n  ".toList ++ program ++
    " resolve /users/42 --method GET\n\n  # Render a response offline\n  ".toList ++ program ++
    " render /users/42 --query page=2 --header Authorization=token\n        \n".toList

/-- The help of a program. -/
def programHelp (program : String) : List Char :=
  usage program.toList (Form.program.switches.map Switch.usage) [commandNames ++ " ...".toList] ++
    "\n\n".toList ++ Form.program.summary.toList ++ "\n\npositional arguments:\n".toList ++
    entry 2 commandNames "Command to run".toList ++
    (Form.commands.flatMap fun f => entry 4 f.name.toList f.summary.toList) ++ ['\n'] ++
    switchesSection Form.program.switches ++ '\n' :: examples program.toList

def help (program : String) (form : Form) : List Char :=
  if form.name.isEmpty then programHelp program else commandHelp program form

end MockTree.CommandLine
