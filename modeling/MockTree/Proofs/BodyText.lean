import MockTree.Proofs.JsonWriting
import MockTree.Request

/-! The body of a request that holds JSON as directives write it. Such a text is all ASCII, so it has one byte for
each character, and a limit that admits all of them changes nothing. -/
namespace MockTree

namespace Text
variable {s : List Char}

theorem toUtf8_of_ascii (h : ∀ c ∈ s, c.toNat < 128) : toUtf8 s = s.map fun c => UInt8.ofNat c.toNat := by
  induction s with
  | nil => rfl
  | cons c s ih =>
    obtain ⟨hc, hs⟩ := List.forall_mem_cons.1 h
    have hchar : String.utf8EncodeChar c = [UInt8.ofNat c.toNat] := by
      have hle : c.val.toNat ≤ 127 := Nat.le_of_lt_succ hc
      simp only [String.utf8EncodeChar, if_pos hle]
      rfl
    rw [toUtf8, List.flatMap_cons, hchar, ← toUtf8, ih hs]
    rfl

/-- A byte below 128 is a character. -/
theorem takeScalar_of_ascii {c : Char} (h : c.toNat < 128) (r : List UInt8) :
    takeScalar (UInt8.ofNat c.toNat) r = (some c, r) := by
  have hnat : (UInt8.ofNat c.toNat).toNat = c.toNat := by
    rw [UInt8.toNat_ofNat']
    omega
  have hlt : UInt8.ofNat c.toNat < 128 := by
    rw [UInt8.lt_iff_toNat_lt, hnat]
    exact h
  rw [takeScalar.eq_def, if_pos hlt, hnat, Char.ofNat_toNat]

/-- ASCII is read back from its bytes. -/
theorem ofUtf8Lossy_toUtf8 (h : ∀ c ∈ s, c.toNat < 128) : ofUtf8Lossy (toUtf8 s) = s := by
  rw [toUtf8_of_ascii h]
  induction s with
  | nil => rw [List.map_nil, ofUtf8Lossy]
  | cons c s ih =>
    obtain ⟨hc, hs⟩ := List.forall_mem_cons.1 h
    rw [List.map_cons, ofUtf8Lossy, takeScalar_of_ascii hc, Option.getD_some, ih hs]

end Text

namespace Body
open Text

/-- Bytes within the limit are all read. -/
theorem clip_of_length_le {limit : ℤ} {bs : List UInt8} (h : bs.length ≤ limit) : clip limit bs = bs := by
  rw [clip, if_pos (by omega)]
  apply List.take_of_length_le
  omega

/-- Bytes of JSON in ASCII decode to its value. -/
theorem decode_of_read? {limit : ℤ} {s : List Char} {v : Value} (hascii : ∀ c ∈ s, c.toNat < 128)
    (hlimit : (toUtf8 s).length ≤ limit) (hread : Json.read? s = some v) (hnull : v ≠ .null) :
    decode limit (toUtf8 s) = v := by
  have hne : (toUtf8 s).isEmpty = false := by
    rw [List.isEmpty_eq_false_iff]
    intro hempty
    have hs := ofUtf8Lossy_toUtf8 hascii
    rw [hempty, ofUtf8Lossy] at hs
    rw [← hs] at hread
    cases hread
  rw [decode, hne]
  simp only [Bool.false_eq_true, if_false, clip_of_length_le hlimit, ofUtf8Lossy_toUtf8 hascii, hread]

/-- A list or a mapping. -/
def IsCollection (v : Value) : Prop := (∃ items, v = .list items) ∨ ∃ entries, v = .map entries

theorem stringify_of_isCollection {v : Value} (h : IsCollection v) : stringify v = Json.line v := by
  rcases h with ⟨items, rfl⟩ | ⟨entries, rfl⟩ <;> rfl

/-- A list or a mapping that JSON has a form for is got back from the bytes of its text. -/
theorem decode_stringify {limit : ℤ} {v : Value} (hcollection : IsCollection v) (hjson : Json.Writable v)
    (hlimit : (toUtf8 (stringify v)).length ≤ limit) : decode limit (toUtf8 (stringify v)) = v := by
  apply decode_of_read? _ hlimit
  · rw [stringify_of_isCollection hcollection]
    exact hjson.read?_line
  · rintro rfl
    rcases hcollection with ⟨items, h⟩ | ⟨entries, h⟩ <;> cases h
  · intro c hc
    rw [stringify_of_isCollection hcollection] at hc
    have hprint := hjson.written_line.printable c hc
    exact hprint.2.trans (by decide)

/-- Empty collections, and a list of null, a number below zero, and a text with a quote, a control character and a
character beyond the first plane. -/
theorem decode_stringify_nested :
    let v : Value := .map [(.text "b", .list []), (.text "\n", .map []),
      (.text "a", .list [.null, .int (-7), .text "\"\x01é😀"])]
    (toUtf8 (stringify v)).length ≤ maxBytes ∧ decode maxBytes (toUtf8 (stringify v)) = v := by
  intro v
  have hitems : ∀ w ∈ [Value.null, .int (-7), .text "\"\x01é😀"], Json.Writable w :=
    List.forall_mem_cons.2
      ⟨.null, List.forall_mem_cons.2 ⟨.int (by decide), List.forall_mem_singleton.2 (.text _)⟩⟩
  have hjson : Json.Writable v := by
    apply @Json.Writable.map
      [("b", .list []), ("\n", .map []), ("a", .list [.null, .int (-7), .text "\"\x01é😀"])] (by decide)
    refine List.forall_mem_cons.2 ⟨.list (by simp), List.forall_mem_cons.2 ⟨?_, ?_⟩⟩
    · exact @Json.Writable.map [] (by decide) (by simp)
    · exact List.forall_mem_singleton.2 (.list hitems)
  have hlimit : (toUtf8 (stringify v)).length ≤ maxBytes := by decide +kernel
  exact ⟨hlimit, decode_stringify (.inr ⟨_, rfl⟩) hjson hlimit⟩

end Body
end MockTree
