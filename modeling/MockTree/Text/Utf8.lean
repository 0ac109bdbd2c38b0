/-! UTF-8 bytes of a text, and the text of bytes: strictly, or with every ill-formed run replaced. -/
namespace MockTree.Text

def toUtf8 (s : List Char) : List UInt8 := s.flatMap String.utf8EncodeChar

def isTail (b : UInt8) : Bool := 0x80 ≤ b && b ≤ 0xBF

def scalarOf (lead : UInt8) (mask : Nat) (tails : List UInt8) : Char :=
  Char.ofNat (tails.foldl (fun n b => n * 64 + b.toNat % 64) (lead.toNat % mask))

/-- The bounds of the byte after a lead byte of three or four. -/
def secondBounds (lead : UInt8) : UInt8 × UInt8 :=
  if lead == 0xE0 then (0xA0, 0xBF) else if lead == 0xED then (0x80, 0x9F)
  else if lead == 0xF0 then (0x90, 0xBF) else if lead == 0xF4 then (0x80, 0x8F)
  else (0x80, 0xBF)

/-- One character and the bytes after it. Ill-formed bytes give none, and of them the longest run
that opens some character is passed over. -/
def takeScalar (lead : UInt8) (r : List UInt8) : Option Char × List UInt8 :=
  if lead < 0x80 then (some (Char.ofNat lead.toNat), r)
  else if 0xC2 ≤ lead && lead ≤ 0xDF then
    match r with
    | b :: r' => if isTail b then (some (scalarOf lead 32 [b]), r') else (none, r)
    | [] => (none, r)
  else if 0xE0 ≤ lead && lead ≤ 0xEF then
    match r with
    | b :: r' =>
      if (secondBounds lead).1 ≤ b && b ≤ (secondBounds lead).2 then
        match r' with
        | c :: r'' => if isTail c then (some (scalarOf lead 16 [b, c]), r'') else (none, r')
        | [] => (none, r')
      else (none, r)
    | [] => (none, r)
  else if 0xF0 ≤ lead && lead ≤ 0xF4 then
    match r with
    | b :: r' =>
      if (secondBounds lead).1 ≤ b && b ≤ (secondBounds lead).2 then
        match r' with
        | c :: r'' =>
          if isTail c then
            match r'' with
            | d :: r3 => if isTail d then (some (scalarOf lead 8 [b, c, d]), r3) else (none, r'')
            | [] => (none, r'')
          else (none, r')
        | [] => (none, r')
      else (none, r)
    | [] => (none, r)
  else (none, r)

theorem takeScalar_length (lead : UInt8) (r : List UInt8) :
    (takeScalar lead r).2.length ≤ r.length := by
  unfold takeScalar
  repeat' split
  all_goals simp <;> omega

/-- An ill-formed run becomes one replacement character. -/
def ofUtf8Lossy : List UInt8 → List Char
  | [] => []
  | b :: r => ((takeScalar b r).1.getD '\uFFFD') :: ofUtf8Lossy (takeScalar b r).2
termination_by s => s.length
decreasing_by
  have := takeScalar_length b r
  simp
  omega

def ofUtf8? : List UInt8 → Option (List Char)
  | [] => some []
  | b :: r =>
    match (takeScalar b r).1 with
    | some c => (ofUtf8? (takeScalar b r).2).map (c :: ·)
    | none => none
termination_by s => s.length
decreasing_by
  have := takeScalar_length b r
  simp
  omega

end MockTree.Text
