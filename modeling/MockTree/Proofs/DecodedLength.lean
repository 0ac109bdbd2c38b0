import Mathlib.Data.List.TakeWhile
import Mathlib.Tactic.Tauto
import MockTree.Query

/-! How long a text becomes when its percent-encoded bytes are decoded. Texts that are joined decode to no more
characters than by themselves: the joint can only complete the code of a byte or the bytes of a character. A
character that belongs to neither keeps apart what stands around it, and is one character more. -/
namespace MockTree

namespace Text

/-- Whether a byte may come right after a lead byte of three or four. -/
def isSecond (lead b : UInt8) : Bool := (secondBounds lead).1 ≤ b && b ≤ (secondBounds lead).2

/-- The conditions on the bytes after a lead byte. -/
def tailsAfter (lead : UInt8) : List (UInt8 → Bool) :=
  if lead < 0x80 then []
  else if 0xC2 ≤ lead && lead ≤ 0xDF then [isTail]
  else if 0xE0 ≤ lead && lead ≤ 0xEF then [isSecond lead, isTail]
  else if 0xF0 ≤ lead && lead ≤ 0xF4 then [isSecond lead, isTail, isTail]
  else []

/-- What is left after the bytes that meet conditions, one after another. -/
def dropWhiles : List (UInt8 → Bool) → List UInt8 → List UInt8
  | p :: ps, b :: r => if p b then dropWhiles ps r else b :: r
  | _, r => r

@[simp] theorem dropWhiles_nil (ps : List (UInt8 → Bool)) : dropWhiles ps [] = [] := by cases ps <;> rfl

theorem takeScalar_rest (lead : UInt8) (r : List UInt8) :
    (takeScalar lead r).2 = dropWhiles (tailsAfter lead) r := by
  rw [takeScalar.eq_def, tailsAfter]
  split
  · rfl
  split
  · rcases r with _ | ⟨b, r⟩
    · rfl
    · simp only [dropWhiles]
      split <;> rfl
  split
  · rcases r with _ | ⟨b, _ | ⟨c, r⟩⟩
    · rfl
    all_goals
      simp only [dropWhiles, isSecond]
      repeat' split
      all_goals simp [*]
  split
  · rcases r with _ | ⟨b, _ | ⟨c, _ | ⟨d, r⟩⟩⟩
    · rfl
    all_goals
      simp only [dropWhiles, isSecond]
      repeat' split
      all_goals simp [*]
  · rfl

theorem isTail_of_isSecond {lead b : UInt8} (h : isSecond lead b = true) : isTail b = true := by
  have hbounds : isTail (secondBounds lead).1 = true ∧ isTail (secondBounds lead).2 = true := by
    rw [secondBounds]
    repeat' split
    all_goals decide
  simp only [isSecond, isTail, Bool.and_eq_true, decide_eq_true_eq] at h hbounds ⊢
  exact ⟨UInt8.le_trans hbounds.1.1 h.1, UInt8.le_trans h.2 hbounds.2.2⟩

theorem isTail_of_mem_tailsAfter {lead b : UInt8} {p : UInt8 → Bool} (hp : p ∈ tailsAfter lead) (hb : p b = true) :
    isTail b = true := by
  have hp : p = isTail ∨ p = isSecond lead := by
    rw [tailsAfter] at hp
    repeat' split at hp
    all_goals simp only [List.mem_cons, List.not_mem_nil, or_false] at hp
    all_goals tauto
  rcases hp with rfl | rfl
  · exact hb
  · exact isTail_of_isSecond hb

theorem tailsAfter_of_isTail {b : UInt8} (h : isTail b = true) : tailsAfter b = [] := by
  simp only [isTail, Bool.and_eq_true, decide_eq_true_eq, UInt8.le_iff_toNat_le, UInt8.reduceToNat] at h
  simp only [tailsAfter, Bool.and_eq_true, decide_eq_true_eq, UInt8.le_iff_toNat_le, UInt8.lt_iff_toNat_lt,
    UInt8.reduceToNat]
  rw [if_neg (by omega), if_neg (by omega), if_neg (by omega), if_neg (by omega)]

/-- More bytes after a character only lengthen the character, and only where it took all that was left. -/
theorem exists_tails_dropWhiles {ps : List (UInt8 → Bool)} (hps : ∀ p ∈ ps, ∀ b, p b = true → isTail b = true)
    (r ys : List UInt8) :
    ∃ t, (∀ b ∈ t, isTail b = true) ∧ dropWhiles ps r ++ ys = t ++ dropWhiles ps (r ++ ys) ∧
      (t ≠ [] → dropWhiles ps r = []) := by
  induction ps generalizing r ys with
  | nil => exact ⟨[], by simp, rfl, by simp⟩
  | cons p ps ih =>
    obtain ⟨hp, hps⟩ := List.forall_mem_cons.1 hps
    cases r with
    | cons b r =>
      simp only [List.cons_append, dropWhiles]
      split
      · exact ih hps r ys
      · exact ⟨[], by simp, rfl, by simp⟩
    | nil =>
      cases ys with
      | nil => exact ⟨[], by simp, rfl, by simp⟩
      | cons y ys =>
        simp only [List.nil_append, dropWhiles]
        split
        next hy =>
          obtain ⟨t, ht, heq, -⟩ := ih hps [] ys
          refine ⟨y :: t, List.forall_mem_cons.2 ⟨hp y hy, ht⟩, ?_, by simp⟩
          simpa using heq
        · exact ⟨[], by simp, rfl, by simp⟩

theorem length_ofUtf8Lossy_cons (b : UInt8) (r : List UInt8) :
    (ofUtf8Lossy (b :: r)).length = (ofUtf8Lossy (dropWhiles (tailsAfter b) r)).length + 1 := by
  rw [ofUtf8Lossy, takeScalar_rest, List.length_cons]

theorem length_ofUtf8Lossy_tails {t : List UInt8} (ht : ∀ b ∈ t, isTail b = true) (ys : List UInt8) :
    (ofUtf8Lossy (t ++ ys)).length = t.length + (ofUtf8Lossy ys).length := by
  induction t with
  | nil => simp
  | cons b t ih =>
    obtain ⟨hb, ht⟩ := List.forall_mem_cons.1 ht
    rw [List.cons_append, length_ofUtf8Lossy_cons, tailsAfter_of_isTail hb]
    simp only [dropWhiles, ih ht, List.length_cons]
    omega

/-- Bytes that are joined make no more characters than by themselves, and just as many if no tail comes right
after the joint. -/
theorem length_ofUtf8Lossy_append (xs ys : List UInt8) :
    (ofUtf8Lossy (xs ++ ys)).length ≤ (ofUtf8Lossy xs).length + (ofUtf8Lossy ys).length ∧
      ((∀ b, ys.head? = some b → isTail b = false) →
        (ofUtf8Lossy (xs ++ ys)).length = (ofUtf8Lossy xs).length + (ofUtf8Lossy ys).length) := by
  match xs with
  | [] => simp [ofUtf8Lossy]
  | b :: r =>
    have htails : ∀ p ∈ tailsAfter b, ∀ c, p c = true → isTail c = true :=
      fun p hp _ => isTail_of_mem_tailsAfter hp
    obtain ⟨t, ht, heq, hnil⟩ := exists_tails_dropWhiles htails r ys
    have hlt : (dropWhiles (tailsAfter b) r).length < (b :: r).length := by
      rw [← takeScalar_rest]
      exact Nat.lt_succ_of_le (takeScalar_length b r)
    obtain ⟨hle, hsame⟩ := length_ofUtf8Lossy_append (dropWhiles (tailsAfter b) r) ys
    rw [heq, length_ofUtf8Lossy_tails ht] at hle hsame
    rw [List.cons_append, length_ofUtf8Lossy_cons, length_ofUtf8Lossy_cons]
    refine ⟨by omega, fun hhead => ?_⟩
    have htnil : t = [] := by
      cases t with
      | nil => rfl
      | cons c t =>
        rw [hnil (List.cons_ne_nil c t)] at heq
        exact absurd (ht c List.mem_cons_self) (by simp [hhead c (by rw [← List.nil_append ys, heq]; rfl)])
    have hsame := hsame hhead
    rw [htnil] at hsame
    simp only [List.length_nil] at hsame
    omega
termination_by xs.length
decreasing_by exact hlt

theorem length_ofUtf8Lossy_singleton (b : UInt8) : (ofUtf8Lossy [b]).length = 1 := by
  rw [length_ofUtf8Lossy_cons, dropWhiles_nil]
  simp [ofUtf8Lossy]

theorem length_ofUtf8Lossy_cons_ascii {b : UInt8} (h : b < 0x80) (ys : List UInt8) :
    (ofUtf8Lossy (b :: ys)).length = (ofUtf8Lossy ys).length + 1 := by
  have hafter : tailsAfter b = [] := by rw [tailsAfter, if_pos h]
  rw [length_ofUtf8Lossy_cons, hafter]
  rfl

theorem length_ofUtf8Lossy_ascii {b : UInt8} (h : b < 0x80) (xs ys : List UInt8) :
    (ofUtf8Lossy (xs ++ b :: ys)).length = (ofUtf8Lossy xs).length + 1 + (ofUtf8Lossy ys).length := by
  have htail : isTail b = false := by
    rw [isTail, decide_eq_false (by simpa using h), Bool.false_and]
  rw [(length_ofUtf8Lossy_append xs (b :: ys)).2 (by simp [htail]), length_ofUtf8Lossy_cons_ascii h]
  omega

theorem length_ofUtf8Lossy_insert_le (xs : List UInt8) (b : UInt8) (ys : List UInt8) :
    (ofUtf8Lossy (xs ++ b :: ys)).length ≤ (ofUtf8Lossy xs).length + 1 + (ofUtf8Lossy ys).length := by
  have hxs := (length_ofUtf8Lossy_append xs (b :: ys)).1
  have hb := (length_ofUtf8Lossy_append [b] ys).1
  rw [length_ofUtf8Lossy_singleton, List.singleton_append] at hb
  omega

end Text

namespace Query
open Text

/-- The byte of a character of ASCII. -/
abbrev byte (c : Char) : UInt8 := c.toNat.toUInt8

/-- A character that belongs neither to a percent-encoded byte nor to a character of several bytes. -/
structure Breaks (c : Char) : Prop where
  percent : c ≠ '%'
  digit : Json.hexValue? c = none
  ascii : isAscii c = true

theorem byte_lt {c : Char} (h : isAscii c = true) : byte c < 0x80 := by
  rw [isAscii, decide_eq_true_eq] at h
  rw [UInt8.lt_iff_toNat_lt]
  simp [byte, Nat.toUInt8]
  omega

theorem isAscii_of_hexValue? {c : Char} (h : (Json.hexValue? c).isSome) : isAscii c = true := by
  have hle : c ≤ 'f' := by
    rw [Json.hexValue?] at h
    simp only [Bool.and_eq_true, decide_eq_true_eq] at h
    split at h
    next hc => exact Char.le_trans hc.2 (by decide)
    split at h
    next hc => exact hc.2
    split at h
    next hc => exact Char.le_trans hc.2 (by decide)
    · cases h
  rw [isAscii, decide_eq_true_eq]
  exact Nat.lt_of_le_of_lt (UInt32.le_iff_toNat_le.1 hle) (by decide)

/-- Whether two digits come next, which a percent sign before them makes a byte. -/
def OpensCode (s : List Char) : Prop :=
  ∃ a b r, s = a :: b :: r ∧ (Json.hexValue? a).isSome ∧ (Json.hexValue? b).isSome

theorem percentBytes_plain {c : Char} {s : List Char} (h : c = '%' → ¬ OpensCode s) :
    percentBytes (c :: s) = byte c :: percentBytes s := by
  rw [percentBytes.eq_def]
  split
  next heq => cases heq
  next a b r heq =>
    cases heq
    split
    next ha hb => exact absurd ⟨a, b, r, rfl, by simp [ha], by simp [hb]⟩ (h rfl)
    · rfl
  next heq =>
    cases heq
    rfl

theorem percentBytes_code {a b : Char} {x y : Nat} (ha : Json.hexValue? a = some x) (hb : Json.hexValue? b = some y)
    (s : List Char) : percentBytes ('%' :: a :: b :: s) = UInt8.ofNat (x * 16 + y) :: percentBytes s := by
  simp [percentBytes, ha, hb]

/-- Percent-encoded bytes and other characters come one after another. -/
theorem percentBytes_induction {P : List Char → Prop} (nil : P [])
    (code : ∀ a b r x y, Json.hexValue? a = some x → Json.hexValue? b = some y → P r → P ('%' :: a :: b :: r))
    (plain : ∀ c r, (c = '%' → ¬ OpensCode r) → P r → P (c :: r)) (s : List Char) : P s := by
  induction s using percentBytes.induct with
  | case1 => exact nil
  | case2 a b r x y hb ha ih => exact code a b r x y ha hb ih
  | case3 a b r hnone ih =>
    refine plain _ _ (fun _ => ?_) ih
    rintro ⟨a, b, r, heq, ha, hb⟩
    cases heq
    obtain ⟨x, hx⟩ := Option.isSome_iff_exists.1 ha
    obtain ⟨y, hy⟩ := Option.isSome_iff_exists.1 hb
    exact hnone x y hx hy
  | case4 c r hshort ih =>
    refine plain c r (fun hc => ?_) ih
    rintro ⟨a, b, r, rfl, -⟩
    exact hshort a b r hc rfl

/-- A character makes at most one more of what comes after it. -/
theorem length_percentBytes_cons_le (bs : List UInt8) (c : Char) (s : List Char) :
    (ofUtf8Lossy (bs ++ percentBytes (c :: s))).length ≤
      (ofUtf8Lossy bs).length + 1 + (ofUtf8Lossy (percentBytes s)).length := by
  by_cases hcode : c = '%' → ¬ OpensCode s
  · rw [percentBytes_plain hcode]
    exact length_ofUtf8Lossy_insert_le ..
  · obtain ⟨rfl, a, b, r, rfl, ha, hb⟩ : c = '%' ∧ OpensCode s := by simpa using hcode
    have hdigit {d : Char} {u : List Char} (hd : (Json.hexValue? d).isSome) :
        (ofUtf8Lossy (percentBytes (d :: u))).length = (ofUtf8Lossy (percentBytes u)).length + 1 := by
      have hne : d ≠ '%' := by
        rintro rfl
        exact absurd hd (by decide)
      rw [percentBytes_plain (absurd · hne), length_ofUtf8Lossy_cons_ascii (byte_lt (isAscii_of_hexValue? hd))]
    obtain ⟨x, hx⟩ := Option.isSome_iff_exists.1 ha
    obtain ⟨y, hy⟩ := Option.isSome_iff_exists.1 hb
    rw [percentBytes_code hx hy, hdigit ha, hdigit hb]
    have := length_ofUtf8Lossy_insert_le bs (UInt8.ofNat (x * 16 + y)) (percentBytes r)
    omega

theorem length_percentBytes_append_le (bs : List UInt8) (x y : List Char) :
    (ofUtf8Lossy (bs ++ percentBytes (x ++ y))).length ≤
      (ofUtf8Lossy (bs ++ percentBytes x)).length + (ofUtf8Lossy (percentBytes y)).length := by
  induction x using percentBytes_induction generalizing bs with
  | nil => simpa [percentBytes] using (length_ofUtf8Lossy_append bs (percentBytes y)).1
  | code a b r v w ha hb ih => simpa [percentBytes_code ha hb] using ih (bs ++ [UInt8.ofNat (v * 16 + w)])
  | plain c r hcode ih =>
    rw [percentBytes_plain hcode]
    by_cases hjoint : c = '%' → ¬ OpensCode (r ++ y)
    · rw [List.cons_append, percentBytes_plain hjoint]
      simpa using ih (bs ++ [byte c])
    · -- Only the joint makes the sign and its digits a byte.
      obtain ⟨rfl, a, b, u, heq, ha, hb⟩ : c = '%' ∧ OpensCode (r ++ y) := by simpa using hjoint
      have hsign (ys : List UInt8) := length_ofUtf8Lossy_ascii (show byte '%' < 0x80 by decide) bs ys
      have hle := length_percentBytes_cons_le bs '%' (r ++ y)
      match r, heq with
      | [], _ =>
        rw [hsign]
        simp only [List.nil_append, List.cons_append, percentBytes, ofUtf8Lossy, List.length_nil] at hle ⊢
        omega
      | [e], _ =>
        have hdigit := length_percentBytes_cons_le [] e y
        rw [hsign, percentBytes_plain (fun _ => by simp [OpensCode])]
        simp only [percentBytes, length_ofUtf8Lossy_singleton]
        simp only [List.nil_append, List.cons_append, ofUtf8Lossy, List.length_nil] at hle hdigit ⊢
        omega
      | _ :: _ :: _, heq =>
        cases heq
        exact absurd ⟨_, _, _, rfl, ha, hb⟩ (hcode rfl)

theorem percentBytes_breaks {d : Char} (h : Breaks d) (x y : List Char) :
    percentBytes (x ++ d :: y) = percentBytes x ++ byte d :: percentBytes y := by
  induction x using percentBytes_induction with
  | nil => exact percentBytes_plain (absurd · h.percent)
  | code a b r v w ha hb ih => simp [percentBytes_code ha hb, ih]
  | plain c r hcode ih =>
    have hjoint : c = '%' → ¬ OpensCode (r ++ d :: y) := by
      rintro hc ⟨a, b, u, heq, ha, hb⟩
      match r, heq with
      | [], heq =>
        cases heq
        simp [h.digit] at ha
      | [e], heq =>
        cases heq
        simp [h.digit] at hb
      | _ :: _ :: _, heq =>
        cases heq
        exact hcode hc ⟨_, _, _, rfl, ha, hb⟩
    rw [List.cons_append, percentBytes_plain hjoint, percentBytes_plain hcode, ih, List.cons_append]

/-! ### Decoding -/

theorem decodeFrom_eq {n m : Nat} {s : List Char} (hn : s.length ≤ n) (hm : s.length ≤ m) :
    decodeFrom n s = decodeFrom m s := by
  induction n generalizing m s with
  | zero =>
    rw [List.eq_nil_of_length_eq_zero (Nat.le_zero.1 hn)]
    cases m <;> rfl
  | succ n ih =>
    cases s with
    | nil => cases m <;> rfl
    | cons c s =>
      obtain ⟨m, rfl⟩ : ∃ k, m = k + 1 := Nat.exists_eq_add_one_of_ne_zero (by simp at hm; omega)
      have hrest : (s.dropWhile isAscii).length ≤ s.length := (List.dropWhile_sublist _).length_le
      simp only [List.length_cons] at hn hm
      rw [decodeFrom, decodeFrom, ih (by omega) (by omega : _ ≤ m), ih (s := s) (by omega) (by omega : _ ≤ m)]

theorem decode_cons_ascii {c : Char} (h : isAscii c = true) (s : List Char) :
    decode (c :: s) = ofUtf8Lossy (percentBytes (c :: s.takeWhile isAscii)) ++ decode (s.dropWhile isAscii) := by
  rw [decode, List.length_cons, decodeFrom, if_pos h, decode,
    decodeFrom_eq (List.dropWhile_sublist _).length_le (Nat.le_refl _)]

theorem decode_cons {c : Char} (h : isAscii c = false) (s : List Char) : decode (c :: s) = c :: decode s := by
  rw [decode, List.length_cons, decodeFrom, if_neg (by simp [h]), decode]

theorem decode_ascii {s : List Char} (h : ∀ c ∈ s, isAscii c = true) : decode s = ofUtf8Lossy (percentBytes s) := by
  cases s with
  | nil => simp [decode, decodeFrom, percentBytes, ofUtf8Lossy]
  | cons c s =>
    obtain ⟨hc, hs⟩ := List.forall_mem_cons.1 h
    rw [decode_cons_ascii hc, List.takeWhile_eq_self_iff.2 hs, List.dropWhile_eq_nil_iff.2 hs]
    exact List.append_nil _

theorem exists_other {s : List Char} (h : ¬ ∀ c ∈ s, isAscii c = true) :
    ∃ a c r, s = a ++ c :: r ∧ isAscii c = false := by
  obtain ⟨c, hc, hascii⟩ : ∃ c ∈ s, isAscii c = false := by simpa using h
  obtain ⟨a, r, rfl⟩ := List.append_of_mem hc
  exact ⟨a, c, r, rfl, hascii⟩

/-- A character outside ASCII keeps apart what stands around it. -/
theorem decode_append_cons {c : Char} (h : isAscii c = false) (a s : List Char) :
    decode (a ++ c :: s) = decode a ++ c :: decode s := by
  match a with
  | [] => exact decode_cons h s
  | e :: a =>
    cases he : isAscii e with
    | false => rw [List.cons_append, decode_cons he, decode_cons he, decode_append_cons h a s, List.cons_append]
    | true =>
      by_cases ha : ∀ e ∈ a, isAscii e = true
      · have htake : (a ++ c :: s).takeWhile isAscii = a := by
          rw [List.takeWhile_append_of_pos ha, List.takeWhile_cons_of_neg (by simp [h]), List.append_nil]
        have hdrop : (a ++ c :: s).dropWhile isAscii = c :: s := by
          rw [List.dropWhile_append_of_pos ha, List.dropWhile_cons_of_neg (by simp [h])]
        rw [List.cons_append, decode_cons_ascii he, htake, hdrop, decode_cons h,
          decode_ascii (List.forall_mem_cons.2 ⟨he, ha⟩)]
      · obtain ⟨b, f, r, rfl, hf⟩ := exists_other ha
        have hsplit : e :: (b ++ f :: r) ++ c :: s = (e :: b) ++ f :: (r ++ c :: s) := by simp
        have hleft : decode (e :: (b ++ f :: r)) = decode (e :: b) ++ f :: decode r :=
          decode_append_cons hf (e :: b) r
        rw [hsplit, decode_append_cons hf (e :: b), decode_append_cons h r, hleft, List.append_assoc,
          List.cons_append]
termination_by a.length

/-- Texts that are joined decode to no more characters than by themselves; a character that breaks codes is one
character more. -/
theorem length_decode_append (x y : List Char) :
    (decode (x ++ y)).length ≤ (decode x).length + (decode y).length ∧
      ∀ d, Breaks d → (decode (x ++ d :: y)).length = (decode x).length + 1 + (decode y).length := by
  by_cases hx : ∀ c ∈ x, isAscii c = true
  · by_cases hy : ∀ c ∈ y, isAscii c = true
    · rw [decode_ascii hx, decode_ascii hy]
      constructor
      · rw [decode_ascii fun c hc => (List.mem_append.1 hc).elim (hx c) (hy c)]
        exact length_percentBytes_append_le [] x y
      · intro d hd
        rw [decode_ascii fun c hc => (List.mem_append.1 hc).elim (hx c) fun hc =>
          (List.mem_cons.1 hc).elim (fun h => h ▸ hd.ascii) (hy c), percentBytes_breaks hd]
        exact length_ofUtf8Lossy_ascii (byte_lt hd.ascii) _ _
    · obtain ⟨a, c, r, rfl, hc⟩ := exists_other hy
      obtain ⟨hle, hbreaks⟩ := length_decode_append x a
      rw [← List.append_assoc, decode_append_cons hc, decode_append_cons hc]
      constructor
      · simp only [List.length_append, List.length_cons]
        omega
      · intro d hd
        have := hbreaks d hd
        rw [← List.cons_append, ← List.append_assoc, decode_append_cons hc]
        simp only [List.length_append, List.length_cons]
        omega
  · obtain ⟨a, c, r, rfl, hc⟩ := exists_other hx
    obtain ⟨hle, hbreaks⟩ := length_decode_append r y
    rw [decode_append_cons hc, List.append_assoc, List.cons_append, decode_append_cons hc]
    constructor
    · simp only [List.length_append, List.length_cons]
      omega
    · intro d hd
      have := hbreaks d hd
      rw [List.append_assoc, List.cons_append, decode_append_cons hc]
      simp only [List.length_append, List.length_cons]
      omega
termination_by x.length + y.length

end Query
end MockTree
