import MockTree.Directive.Signature
/-! Random text and numbers. -/
namespace MockTree.Directive
open Text

def chanceSignature : Signature :=
  ⟨[("length", .int 16), ("type", .text "ALPHANUMERIC"), ("uppercase", .bool false)], []⟩

def smallLetters : List Char := "abcdefghijklmnopqrstuvwxyz".toList
def capitals : List Char := "ABCDEFGHIJKLMNOPQRSTUVWXYZ".toList
def digits : List Char := "0123456789".toList

/-- The characters that random text of a kind is made of. -/
def alphabet? (kind : String) : Option (List Char) :=
  match kind with
  | "ALPHANUMERIC" => some (smallLetters ++ capitals ++ digits)
  | "ALPHANUMERIC_UPPER" => some (capitals ++ digits)
  | "ALPHABETIC" => some (smallLetters ++ capitals)
  | "ALPHABETIC_UPPER" => some capitals
  | "NUMERIC" => some digits
  | _ => none

/-- So many characters, one for each draw. -/
def drawChars (s : Setting) (chars : List Char) : Nat → Render (List Char)
  | 0 => pure []
  | n + 1 => do
    let r ← Render.draw s
    let cs ← drawChars s chars n
    pure ((chars[r % chars.length]?).toList ++ cs)

/-- Random text of a kind and a length, or a universal identifier. -/
def randomText : Directive := fun s call => do
  let kind := chanceSignature.get "type" call.named
  let length := chanceSignature.get "length" call.named
  let name := upperList kind.plain
  if name == "UUID".toList then pure (.text s.uuid.toList)
  else
    let inCapitals := isYes (chanceSignature.get "uppercase" call.named)
    let name := if inCapitals && contains "ALPHA".toList name then name ++ "_UPPER".toList else name
    match alphabet? (String.ofList name), wholeNumber? length with
    | none, _ => pure (.text ("Unsupported randomValue type: ".toList ++ kind.plain))
    | some chars, some (.ofNat n) => do pure (.text (← drawChars s chars n))
    | some _, _ => pure (.text ("Invalid randomValue length: ".toList ++ length.plain))

def rangeSignature : Signature := ⟨[("lower", .null), ("upper", .null)], []⟩

/-- A number between two bounds, both included; zero if they are no bounds. -/
def randomNumber : Directive := fun s call => do
  match bound? (rangeSignature.get "lower" call.named),
      bound? (rangeSignature.get "upper" call.named) with
  | some lower, some upper =>
    if upper < lower then pure (.value (.int 0))
    else do
      let r ← Render.draw s
      pure (.value (.int (lower + (r : Int) % (upper - lower + 1))))
  | _, _ => pure (.value (.int 0))

end MockTree.Directive
