import MockTree.CommandLine.Form
import MockTree.Decimal.Reader
/-! Reading the words of a command line. A switch can be shortened as long as it stays the only one of
its beginning; short ones can be written together; after two dashes no word is a switch. -/
namespace MockTree.CommandLine
open Text

/-- A text written in one word with a switch, after an equals sign or right behind it. -/
structure Attached where
  equals : Bool
  text : List Char
  deriving DecidableEq, Repr

/-- What a word is. -/
inductive Mark
  | word
  | dashes
  | switch (s : Switch) (short : Bool) (attached : Option Attached)
  /-- Written like a switch that there is none of. -/
  | unknown
  deriving DecidableEq, Repr

namespace Mark

def isSwitch : Mark → Bool
  | .switch .. | .unknown => true
  | _ => false

end Mark

/-- Why reading stops early. -/
inductive Stop
  | help
  | misuse
  deriving DecidableEq, Repr

abbrev Item := List Char × Mark

/-- The switch of a spelling, and whether it is the short one. -/
def spelled? (form : Form) (w : List Char) : Option (Switch × Bool) :=
  match form.switches.find? fun s => s.shortSpelling == some w with
  | some s => some (s, true)
  | none => (form.switches.find? fun s => s.longSpelling == w).map fun s => (s, false)

/-- A dash and digits, with or without a point. -/
def isNegativeNumber : List Char → Bool
  | '-' :: r =>
    let r := if r.getLast? == some '\n' then r.dropLast else r
    let whole := r.takeWhile isDecimal
    match r.dropWhile isDecimal with
    | [] => !whole.isEmpty
    | '.' :: f => !f.isEmpty && f.all isDecimal
    | _ => false
  | _ => false

/-- Switches that a word can be short for. -/
def candidates (form : Form) : List Char → List Mark
  | '-' :: '-' :: r =>
    let (start, attached) : List Char × Option Attached := match cut? '=' r with
      | some (start, text) => (start, some ⟨true, text⟩)
      | none => (r, none)
    (form.switches.filter fun s => startsWith start s.long.toList).map fun s =>
      .switch s false attached
  | '-' :: c :: r =>
    (form.switches.filter fun s => s.short == some c).map fun s => .switch s true (some ⟨false, r⟩)
  | _ => []

def classify (form : Form) (w : List Char) : Except Stop Mark :=
  if w.head? != some '-' then .ok .word
  else
    match spelled? form w with
    | some (s, short) => .ok (.switch s short none)
    | none =>
      if w.length == 1 then .ok .word
      else
        match (cut? '=' w).bind fun (n, t) => (spelled? form n).map fun (s, short) =>
            Mark.switch s short (some ⟨true, t⟩) with
        | some m => .ok m
        | none =>
          match candidates form w with
          | [m] => .ok m
          | _ :: _ :: _ => .error .misuse
          | [] => .ok (if isNegativeNumber w || w.contains ' ' then .word else .unknown)

/-- Marks the words; after two dashes all are plain. -/
def marked (form : Form) : List (List Char) → Except Stop (List Item)
  | [] => .ok []
  | w :: r =>
    if w == ['-', '-'] then .ok ((w, .dashes) :: r.map fun w => (w, .word))
    else do
      let m ← classify form w
      let items ← marked form r
      pure ((w, m) :: items)

/-- What was read: the words of switches by their long names, the operand, and whether words are left
that belong to nothing. -/
structure Given where
  values : List (String × List String)
  operand : Option String
  extra : Bool
  deriving DecidableEq, Repr

namespace Given

def empty : Given := ⟨[], none, false⟩

/-- The words of a switch; a switch given again counts anew. -/
def words? (name : String) (g : Given) : Option (List String) :=
  (g.values.reverse.find? (·.1 == name)).map (·.2)

def word? (name : String) (g : Given) : Option String := (g.words? name).bind (·.head?)

def has (name : String) (g : Given) : Bool := (g.words? name).isSome

def withExtra (g : Given) : Given := { g with extra := true }

end Given

def isAccepted (s : Switch) (w : List Char) : Bool :=
  (!s.wholeNumber || (Decimal.readInt? w).isSome) &&
    (s.choices.isEmpty || s.choices.contains (String.ofList w))

/-- Takes a switch with its words. -/
def take (s : Switch) (ws : List (List Char)) (g : Given) : Except Stop Given :=
  if s == .helpSwitch then .error .help
  else if ws.all (isAccepted s) then
    .ok { g with values := g.values ++ [(s.long, ws.map String.ofList)] }
  else .error .misuse

def takeAll : List (Switch × List (List Char)) → Given → Except Stop Given
  | [], g => .ok g
  | (s, ws) :: r, g => do takeAll r (← take s ws g)

/-- The switches of one word with their words, whether a part of it belongs to nothing, and the items
that are left. -/
structure Cluster where
  switches : List (Switch × List (List Char))
  extra : Bool
  rest : List Item

/-- The text behind a short switch. -/
def attachedOf : List Char → Option Attached
  | [] => none
  | '=' :: r => some ⟨true, r⟩
  | r => some ⟨false, r⟩

def cluster (form : Form) (rest : List Item) :
    Nat → Switch → Bool → Option Attached → Except Stop Cluster
  | _, s, _, none =>
    match s.arity, rest with
    | .none, _ => .ok ⟨[(s, [])], false, rest⟩
    | .one, (w, .word) :: r => .ok ⟨[(s, [w])], false, r⟩
    | .several, (w, .word) :: r =>
      .ok ⟨[(s, w :: (r.takeWhile fun i => i.2 == .word).map (·.1))], false,
        r.dropWhile fun i => i.2 == .word⟩
    | _, _ => .error .misuse
  | 0, _, _, some _ => .error .misuse
  | fuel + 1, s, short, some a =>
    if s.arity != .none then .ok ⟨[(s, [a.text])], false, rest⟩
    else
      match a.text with
      | [] => .error .misuse
      | c :: r =>
        if !short || a.equals || c == '-' then .error .misuse
        else
          match spelled? form ['-', c] with
          | none => .ok ⟨[(s, [])], true, rest⟩
          | some (t, _) => do
            let more ← cluster form rest fuel t true (attachedOf r)
            pure { more with switches := (s, []) :: more.switches }

/-- The operand at the start of some items: a word, with two dashes before or after it. -/
def operandAt? : List Item → Option (List Char × List Item)
  | (_, .dashes) :: (w, .word) :: r => some (w, r)
  | (w, .word) :: (_, .dashes) :: r => some (w, r)
  | (w, .word) :: r => some (w, r)
  | _ => none

def wantsOperand (form : Form) (g : Given) : Bool := form.operand.isSome && g.operand.isNone

/-- Reads items one after another; as many steps as there are items are enough. -/
def readItems (form : Form) : Nat → List Item → Given → Except Stop Given
  | 0, _, g => .ok g
  | _ + 1, [], g => .ok g
  | fuel + 1, (_, .switch s short attached) :: r, g => do
    let length := match attached with
      | some a => a.text.length + 1
      | none => 0
    let c ← cluster form r length s short attached
    let g ← takeAll c.switches g
    readItems form fuel c.rest (if c.extra then g.withExtra else g)
  | fuel + 1, (_, .unknown) :: r, g => readItems form fuel r g.withExtra
  | fuel + 1, items, g =>
    match if wantsOperand form g then operandAt? items else none with
    | some (w, r) => readItems form fuel r { g with operand := some (String.ofList w) }
    | none => readItems form fuel (items.dropWhile fun i => !i.2.isSwitch) g.withExtra

/-- Reads the arguments of a command. -/
def readArguments (form : Form) (ws : List (List Char)) : Except Stop Given := do
  let items ← marked form ws
  let g ← readItems form items.length items .empty
  if wantsOperand form g then throw .misuse
  pure g

/-- What a command line asks for. -/
inductive Reading
  | command (form : Form) (g : Given)
  | noCommand
  | help (form : Form)
  | misuse
  deriving DecidableEq, Repr

/-- Reads a command by its name; words that belong to nothing are a misuse in the end. -/
def readNamed (extra : Bool) (name : List Char) (ws : List (List Char)) : Reading :=
  match Form.commands.find? fun f => f.name.toList == name with
  | none => .misuse
  | some form =>
    match readArguments form ws with
    | .error .help => .help form
    | .error .misuse => .misuse
    | .ok g => if extra || g.extra then .misuse else .command form g

def readProgram (extra : Bool) : List Item → Reading
  | [] => if extra then .misuse else .noCommand
  | (_, .switch s short attached) :: r =>
    match cluster .program r ((attached.map fun a => a.text.length + 1).getD 0) s short attached with
    | .ok _ => .help .program
    | .error _ => .misuse
  | (_, .unknown) :: r => readProgram true r
  | (_, .dashes) :: _ => .misuse
  | (w, .word) :: r => readNamed extra w (r.map (·.1))

def read (args : List String) : Reading :=
  match marked .program (args.map String.toList) with
  | .ok items => readProgram false items
  | .error _ => .misuse

end MockTree.CommandLine
