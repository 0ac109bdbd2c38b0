import Mathlib.Algebra.Order.Floor.Ring
import Mathlib.Data.Rat.Floor
import MockTree.Proofs.WholeDoubles
import MockTree.Proofs.WholeNumbers

/-! Numbers as they are written: a sign or none, digits, and a point with more digits or none. A literal has an
exact value; it is read as a whole number just when it has no point, and as the double nearest to its value. -/
namespace MockTree.Decimal
open Text

inductive Sign
  | bare
  | plus
  | minus
  deriving DecidableEq, Repr

def Sign.text : Sign → List Char
  | bare => []
  | plus => ['+']
  | minus => ['-']

/-- The sign before digits is read back. -/
theorem sign_text (g : Sign) {c : Char} (hc : c.isDigit = true) (s : List Char) :
    sign (g.text ++ c :: s) = (g == .minus, c :: s) := by
  cases g with
  | bare => exact sign_digits hc s
  | plus => rfl
  | minus => rfl

/-- A decimal as it is written. -/
structure Literal where
  sign : Sign
  whole : List Char
  /-- What stands behind the point, if there is one. -/
  fraction : Option (List Char)
  nonempty : whole ≠ []
  whole_digits : ∀ c ∈ whole, c.isDigit = true
  fraction_digits : ∀ c ∈ fraction.getD [], c.isDigit = true

namespace Literal

def text (l : Literal) : List Char :=
  l.sign.text ++ l.whole ++ l.fraction.elim [] ('.' :: ·)

/-- All digits, with no point between them. -/
def digits (l : Literal) : List Char := l.whole ++ l.fraction.getD []

/-- The number of digits behind the point. -/
def places (l : Literal) : ℕ := (l.fraction.getD []).length

def isNegative (l : Literal) : Bool := l.sign == .minus

/-- The value without its sign. -/
def size (l : Literal) : ℚ := natOf l.digits / 10 ^ l.places

/-- The number that is written. -/
def value (l : Literal) : ℚ := if l.isNegative then -l.size else l.size

/-- The value cut toward zero. -/
def cut (l : Literal) : ℤ := if 0 ≤ l.value then ⌊l.value⌋ else ⌈l.value⌉

/-- The double nearest to the value. -/
def nearest (l : Literal) : Double := Double.ofDigits l.isNegative (natOf l.digits) (-l.places)

theorem all_digits (l : Literal) : ∀ c ∈ l.digits, c.isDigit = true :=
  List.forall_mem_append.2 ⟨l.whole_digits, l.fraction_digits⟩

theorem size_nonneg (l : Literal) : 0 ≤ l.size := by
  unfold size
  positivity

theorem size_le (l : Literal) : l.size ≤ natOf l.digits :=
  div_le_self (Nat.cast_nonneg _) (one_le_pow₀ (by norm_num))

/-- Ten bits are more than three digits. -/
theorem size_lt_two_pow {l : Literal} {k : ℕ} (h : l.digits.length ≤ 3 * k) :
    l.size < 2 ^ ((10 * k : ℕ) : ℤ) := by
  have hdigits : natOf l.digits < 10 ^ (3 * k) :=
    (natOf_lt l.all_digits).trans_le (Nat.pow_le_pow_right (by norm_num) h)
  calc l.size ≤ natOf l.digits := l.size_le
    _ < 10 ^ (3 * k) := by exact_mod_cast hdigits
    _ = 1000 ^ k := by rw [pow_mul]; norm_num
    _ ≤ 1024 ^ k := pow_le_pow_left₀ (by norm_num) (by norm_num) k
    _ = 2 ^ ((10 * k : ℕ) : ℤ) := by rw [zpow_natCast, pow_mul]; norm_num

/-- The digits before the point are the whole part. -/
theorem floor_size (l : Literal) : ⌊l.size⌋ = natOf l.whole := by
  have hpow : (0 : ℚ) < 10 ^ l.places := by positivity
  have hlt : (natOf (l.fraction.getD []) : ℚ) < 10 ^ l.places := by
    exact_mod_cast natOf_lt l.fraction_digits
  rw [Int.floor_eq_iff, size, digits, natOf_append, ← places]
  push_cast
  constructor
  · rw [le_div_iff₀ hpow]
    linarith [(Nat.cast_nonneg (natOf (l.fraction.getD [])) : (0 : ℚ) ≤ _)]
  · rw [div_lt_iff₀ hpow]
    linarith

theorem cut_eq (l : Literal) : l.cut = if l.isNegative then -(natOf l.whole : ℤ) else natOf l.whole := by
  have hsize := l.size_nonneg
  unfold cut value
  cases l.isNegative with
  | false => simp only [Bool.false_eq_true, if_false, if_pos hsize, floor_size]
  | true =>
    simp only [if_true, Left.nonneg_neg_iff]
    split
    · next hle =>
      obtain hz : l.size = 0 := le_antisymm hle hsize
      have hfloor := l.floor_size
      rw [hz, Int.floor_zero] at hfloor
      rw [hz, neg_zero, Int.floor_zero]
      omega
    · rw [Int.ceil_neg, floor_size]

/-! ### Reading -/

theorem isMargin_of_numeral {c : Char} (h : c.isDigit = true ∨ c ∈ ['+', '-', '.']) : isMargin c = false := by
  rcases h with hd | hm
  · have := isDigit_iff.1 hd
    simp only [isMargin, isBlank, Bool.and_eq_false_iff, Bool.or_eq_false_iff, decide_eq_false_iff_not,
      beq_eq_false_iff_ne]
    omega
  · have hall : ∀ c ∈ ['+', '-', '.'], isMargin c = false := by simp [isMargin, isBlank]
    exact hall c hm

theorem mem_text {l : Literal} {c : Char} (h : c ∈ l.text) : c.isDigit = true ∨ c ∈ ['+', '-', '.'] := by
  unfold text at h
  rcases List.mem_append.1 h with h | h
  · rcases List.mem_append.1 h with h | h
    · right
      cases hs : l.sign <;> simp_all [Sign.text]
    · exact .inl (l.whole_digits c h)
  · cases hf : l.fraction with
    | none => simp [hf] at h
    | some fs =>
      simp only [hf, Option.elim_some, List.mem_cons] at h
      rcases h with rfl | h
      · simp
      · exact .inl (l.fraction_digits c (by simpa [hf] using h))

theorem trimMargin_text (l : Literal) : trimMargin l.text = l.text := by
  rw [trimMargin_eq_strip]
  exact strip_of_not fun c hc => isMargin_of_numeral (mem_text hc)

/-- The digits of a literal are the plain ones already. -/
theorem map_plainDigit_text (l : Literal) : l.text.map plainDigit = l.text := by
  conv_rhs => rw [← List.map_id' l.text]
  apply List.map_congr_left
  intro c hc
  rcases mem_text hc with hd | hm
  · exact plainDigit_of_isDigit hd
  · have hall : (['+', '-', '.'].all fun c => plainDigit c == c) = true := by decide
    exact eq_of_beq (List.all_eq_true.1 hall c hm)

theorem dropUnderscores?_text (l : Literal) : dropUnderscores? false l.text = some l.text := by
  apply dropUnderscores?_of_not_mem
  intro h
  rcases mem_text h with hd | hm
  · cases hd
  · revert hm
    decide

theorem sign_text_eq (l : Literal) :
    Decimal.sign l.text = (l.isNegative, l.whole ++ l.fraction.elim [] ('.' :: ·)) := by
  obtain ⟨c, ds, hds⟩ := List.exists_cons_of_ne_nil l.nonempty
  have hc : c.isDigit = true := l.whole_digits c (by simp [hds])
  rw [text, List.append_assoc, hds, List.cons_append]
  exact sign_text l.sign hc _

/-- A literal without a point is read as the whole number that it is. -/
theorem readInt?_text {l : Literal} (hf : l.fraction = none) (hlen : l.whole.length ≤ maxDigits) :
    readInt? l.text = some l.cut := by
  have hall : allDigits l.whole = true := by
    rw [allDigits, Bool.and_eq_true, List.all_eq_true]
    exact ⟨by simp [l.nonempty], l.whole_digits⟩
  rw [readInt?, trimMargin_text, map_plainDigit_text, sign_text_eq, hf, cut_eq]
  simp only [Option.elim_none, List.append_nil, dropUnderscores?_digits l.whole_digits, Option.bind_eq_bind,
    Option.bind_some, hall, hlen, decide_true, Bool.and_self, if_true]

/-- A whole number as it is written. -/
def ofInt (n : ℤ) : Literal where
  sign := if n < 0 then .minus else .bare
  whole := Nat.toDigits 10 n.natAbs
  fraction := none
  nonempty := Nat.toDigits_ne_nil
  whole_digits := fun c hc => by
    rw [← Json.isDigit_eq]
    exact Json.digits_toDigits _ c hc
  fraction_digits := by simp

theorem text_ofInt (n : ℤ) : (ofInt n).text = intText n := by
  simp only [text, ofInt, intText, Option.elim_none, List.append_nil]
  split <;> rfl

theorem cut_ofInt (n : ℤ) : (ofInt n).cut = n := by
  rw [cut_eq]
  simp only [isNegative, ofInt, natOf_toDigits]
  by_cases hneg : n < 0
  · simp only [hneg, if_true, beq_self_eq_true]
    omega
  · simp only [hneg, if_false]
    rw [if_neg (by decide)]
    omega

/-- The text of a whole number is read as the number. -/
theorem readInt?_intText {n : ℤ} (h : (Nat.toDigits 10 n.natAbs).length ≤ maxDigits) :
    readInt? (intText n) = some n := by
  rw [← text_ofInt, readInt?_text rfl h, cut_ofInt]

/-- A literal with a point is no whole number. -/
theorem readInt?_text_eq_none {l : Literal} {fs : List Char} (hf : l.fraction = some fs) :
    readInt? l.text = none := by
  have hdot : '.' ∈ l.text := by simp [text, hf]
  exact readInt?_eq_none (by rwa [trimMargin_text]) (by decide)

theorem toLower_of_isDigit {c : Char} (h : c.isDigit = true) : c.toLower = c := by
  have hc := isDigit_iff.1 h
  have hnot : ¬ (c.val ≥ 'A'.val ∧ c.val ≤ 'Z'.val) := by
    rintro ⟨hle, -⟩
    have hle : 65 ≤ c.toNat := hle
    omega
  exact dif_neg hnot

/-- No name of a number opens with a digit. -/
theorem named?_of_isDigit {c : Char} (h : c.isDigit = true) (s : List Char) : named? (c :: s) = none := by
  have hne (w : String) (hw : w.toList.head?.any Char.isDigit = false) :
      ¬ (String.ofList ((c :: s).map Char.toLower) == w) = true := by
    intro he
    rw [← eq_of_beq he, String.toList_ofList, List.map_cons, toLower_of_isDigit h] at hw
    simp [h] at hw
  unfold named?
  simp only
  rw [if_neg, if_neg (hne "nan" (by decide))]
  rw [Bool.or_eq_true]
  exact not_or.2 ⟨hne "inf" (by decide), hne "infinity" (by decide)⟩

theorem decimalParts_text (l : Literal) :
    decimalParts (l.whole ++ l.fraction.elim [] ('.' :: ·)) = (l.whole, l.fraction.getD [], []) := by
  unfold decimalParts
  cases hf : l.fraction with
  | none =>
    obtain ⟨h1, h2⟩ := run_append (v := []) l.whole_digits (by simp)
    simp only [Option.elim_none, h1, h2]
    rfl
  | some fs =>
    have hfs : ∀ c ∈ fs, c.isDigit = true := by simpa [hf] using l.fraction_digits
    obtain ⟨h1, h2⟩ := run_append (v := '.' :: fs) l.whole_digits (by simp)
    obtain ⟨h3, h4⟩ := run_append (v := []) hfs (by simp)
    rw [List.append_nil] at h3 h4
    simp only [Option.elim_some, h1, h2, h3, h4, Option.getD_some]

/-- A literal is read as the double nearest to it. -/
theorem read?_text (l : Literal) : read? l.text = some l.nearest := by
  obtain ⟨c, ds, hds⟩ := List.exists_cons_of_ne_nil l.nonempty
  have hc : c.isDigit = true := l.whole_digits c (by simp [hds])
  have hname : named? (l.whole ++ l.fraction.elim [] ('.' :: ·)) = none := by
    rw [hds, List.cons_append]
    exact named?_of_isDigit hc _
  rw [read?, trimMargin_text, map_plainDigit_text, dropUnderscores?_text]
  simp only [Option.bind_eq_bind, Option.bind_some, readPlain?, sign_text_eq, hname, decimalParts_text,
    List.isEmpty_eq_false_iff.2 l.nonempty, Bool.false_and, Bool.false_eq_true, if_false, exponent?,
    Option.map_some, Int.zero_sub]
  exact congrArg some (scaled_eq l.isNegative l.all_digits _)

/-! ### The nearest double -/

theorem exists_nearest_eq (l : Literal) :
    ∃ num den, l.nearest = Double.ofRatio l.isNegative num den ∧ den ≠ 0 ∧ (num : ℚ) / den = l.size := by
  obtain ⟨num, den, hof, hden, hval⟩ := ofDigits_eq_ofRatio l.isNegative (natOf l.digits) (-l.places)
  refine ⟨num, den, hof, hden, ?_⟩
  rw [hval, size, zpow_neg, zpow_natCast, div_eq_mul_inv]

/-- A literal that is worth a whole number up to 2^53 is read as this number. -/
theorem is_nearest {l : Literal} {n : ℕ} (h : l.size = n) (hle : n ≤ 2 ^ 53) :
    l.nearest.Is (if l.isNegative then -n else n) := by
  obtain ⟨num, den, hof, hden, hval⟩ := l.exists_nearest_eq
  rw [hof]
  exact Double.is_ofRatio l.isNegative hden (hval.trans h) hle

/-- A literal that is worth a whole number up to 2^53, with its sign, is read as this number. -/
theorem is_nearest_of_value {l : Literal} {n : ℤ} (h : l.value = n) (hle : n.natAbs ≤ 2 ^ 53) :
    l.nearest.Is n := by
  have hsize : l.size = n.natAbs := by
    have habs : |l.value| = l.size := by
      unfold value
      cases l.isNegative <;> simp [abs_of_nonneg l.size_nonneg]
    rw [← habs, h, ← Int.cast_abs, Int.abs_eq_natAbs, Int.cast_natCast]
  have hsign : (if l.isNegative then -(n.natAbs : ℤ) else n.natAbs) = n := by
    have hcast : (((if l.isNegative then -(n.natAbs : ℤ) else n.natAbs) : ℤ) : ℚ) = n := by
      rw [← h, value, hsize]
      split <;> simp
    exact_mod_cast hcast
  rw [← hsign]
  exact is_nearest hsize hle

theorem exists_nearest_near {l : Literal} {k : ℤ} (h : l.size < 2 ^ k) (hk : k ≤ 1000) :
    ∃ m e, l.nearest = .finite l.isNegative m e ∧
      |(m : ℚ) * 2 ^ e - l.size| ≤ l.size / 2 ^ 52 + 2 ^ (-1074 : ℤ) := by
  obtain ⟨num, den, hof, hden, hval⟩ := l.exists_nearest_eq
  rw [hof, ← hval]
  exact Double.exists_ofRatio_near l.isNegative hden (hval ▸ h) hk

theorem size_eq (l : Literal) : l.size = natOf l.whole + natOf (l.fraction.getD []) / 10 ^ l.places := by
  have hpow : (10 : ℚ) ^ l.places ≠ 0 := by positivity
  rw [size, digits, natOf_append, ← places]
  push_cast
  field_simp

/-- A literal of no more than fifteen digits keeps its whole part when it is rounded. -/
theorem truncate?_nearest_of_short {l : Literal} (h : l.digits.length ≤ 15) :
    l.nearest.truncate? = some l.cut := by
  have hdigits : natOf l.digits < 10 ^ 15 :=
    (natOf_lt l.all_digits).trans_le (Nat.pow_le_pow_right (by norm_num) h)
  have hplaces : l.places ≤ 15 := by
    rw [digits, List.length_append, ← places] at h
    omega
  have hwhole : natOf l.whole ≤ natOf l.digits := by
    have := Nat.le_mul_of_pos_right (natOf l.whole) (show 0 < 10 ^ l.places by positivity)
    rw [digits, natOf_append, ← places]
    omega
  have hsize := l.size_eq
  rw [cut_eq]
  by_cases hzero : natOf (l.fraction.getD []) = 0
  · rw [hzero, Nat.cast_zero, zero_div, add_zero] at hsize
    exact (is_nearest hsize (by omega)).truncate?
  · -- The value is at least one step of its last place away from the whole numbers around it.
    have hpow : (0 : ℚ) < 10 ^ l.places := by positivity
    have hlow : (1 : ℚ) / 10 ^ l.places ≤ natOf (l.fraction.getD []) / 10 ^ l.places := by
      apply div_le_div_of_nonneg_right _ hpow.le
      exact_mod_cast Nat.pos_of_ne_zero hzero
    have hhigh : (natOf (l.fraction.getD []) : ℚ) / 10 ^ l.places ≤ 1 - 1 / 10 ^ l.places := by
      rw [div_le_iff₀ hpow, sub_mul, div_mul_cancel₀ _ hpow.ne', one_mul, le_sub_iff_add_le]
      exact_mod_cast natOf_lt l.fraction_digits
    have hpart : l.size / 2 ^ 52 ≤ 1 / 10 ^ l.places / 4 := by
      have hnum : (natOf l.digits : ℚ) ≤ 10 ^ 15 := by exact_mod_cast hdigits.le
      rw [size, div_div, div_div, div_le_div_iff₀ (by positivity) (by positivity)]
      nlinarith
    have hstep : (1 : ℚ) / 10 ^ 15 ≤ 1 / 10 ^ l.places :=
      one_div_le_one_div_of_le hpow (pow_le_pow_right₀ (by norm_num) hplaces)
    have htiny : (2 : ℚ) ^ (-1074 : ℤ) ≤ 1 / 10 ^ 15 / 4 :=
      calc (2 : ℚ) ^ (-1074 : ℤ) ≤ 2 ^ (-52 : ℤ) := zpow_le_zpow_right₀ (by norm_num) (by norm_num)
        _ ≤ 1 / 10 ^ 15 / 4 := by norm_num
    have hbound : l.size < 2 ^ ((10 * 5 : ℕ) : ℤ) := size_lt_two_pow h
    obtain ⟨m, e, hm, hnear⟩ := exists_nearest_near hbound (by norm_num)
    rw [abs_le] at hnear
    rw [hm]
    apply Double.truncate?_of_between
    · linarith
    · linarith

end Literal

/-! ### Digits of what is read -/

theorem mem_of_dropUnderscores?_some {b : Bool} {s t : List Char} (h : dropUnderscores? b s = some t) {c : Char}
    (hc : c ∈ t) : c ∈ s := by
  fun_induction dropUnderscores? b s generalizing t with
  | case1 =>
    cases h
    cases hc
  | case2 b d r hd ih => exact List.mem_cons_of_mem _ (ih h hc)
  | case3 => cases h
  | case4 => cases h
  | case5 b d r hd ih =>
    obtain ⟨t, ht, rfl⟩ := Option.map_eq_some_iff.1 h
    rcases List.mem_cons.1 hc with rfl | hc
    · exact List.mem_cons_self
    · exact List.mem_cons_of_mem _ (ih ht hc)

theorem sign_suffix (s : List Char) : (sign s).2 <:+ s := by
  rw [sign.eq_def]
  split
  · exact List.suffix_cons _ _
  · exact List.suffix_cons _ _
  · exact List.suffix_rfl

theorem exists_plainDigit {s : List Char} {c : Char} (hc : c ∈ (trimMargin s).map plainDigit)
    (hd : c.isDigit = true) : ∃ c ∈ s, (plainDigit c).isDigit = true := by
  obtain ⟨c, hmem, rfl⟩ := List.mem_map.1 hc
  rw [trimMargin_eq_strip] at hmem
  exact ⟨c, mem_of_mem_strip hmem, hd⟩

theorem isFinite_of_named? {s : List Char} {x : Double} (h : named? s = some x) : x.isFinite = false := by
  unfold named? at h
  simp only at h
  split at h
  · cases h
    rfl
  split at h
  · cases h
    rfl
  · cases h

theorem digits_decimalParts {s : List Char} {c : Char} (hc : c ∈ (decimalParts s).1 ++ (decimalParts s).2.1) :
    c ∈ s ∧ c.isDigit = true := by
  unfold decimalParts at hc
  simp only at hc
  split at hc
  · next r hr =>
    rcases List.mem_append.1 hc with hc | hc
    · exact ⟨(List.takeWhile_prefix _).subset hc, List.mem_takeWhile_imp hc⟩
    · have hmem : c ∈ s.dropWhile Char.isDigit := by
        rw [hr]
        exact List.mem_cons_of_mem _ ((List.takeWhile_prefix _).subset hc)
      exact ⟨(List.dropWhile_suffix _).subset hmem, List.mem_takeWhile_imp hc⟩
  · rw [List.append_nil] at hc
    exact ⟨(List.takeWhile_prefix _).subset hc, List.mem_takeWhile_imp hc⟩

theorem exists_digit_of_readPlain? {s : List Char} {x : Double} (h : readPlain? s = some x)
    (hx : x.isFinite = true) : ∃ c ∈ s, c.isDigit = true := by
  unfold readPlain? at h
  simp only at h
  split at h
  · next y hy =>
    have hinf := isFinite_of_named? hy
    cases h
    split at hx
    · rw [Double.isFinite_neg, hinf] at hx
      cases hx
    · rw [hinf] at hx
      cases hx
  · split at h
    · cases h
    · next hdigits =>
      have hne : (decimalParts (sign s).2).1 ++ (decimalParts (sign s).2).2.1 ≠ [] := by
        simpa using hdigits
      obtain ⟨c, hc⟩ := List.exists_mem_of_ne_nil _ hne
      obtain ⟨hmem, hd⟩ := digits_decimalParts hc
      exact ⟨c, (sign_suffix s).subset hmem, hd⟩

/-- A whole number is written with a digit, of whatever script. -/
theorem exists_digit_of_readInt? {s : List Char} {n : ℤ} (h : readInt? s = some n) :
    ∃ c ∈ s, (plainDigit c).isDigit = true := by
  rw [readInt?] at h
  obtain ⟨es, hes, h⟩ := Option.bind_eq_some_iff.1 h
  have hall : allDigits es = true := by
    split at h
    · next hd => exact (Bool.and_eq_true_iff.1 hd).1
    · cases h
  obtain ⟨hne, hdigits⟩ := Bool.and_eq_true_iff.1 hall
  obtain ⟨c, hc⟩ := List.exists_mem_of_ne_nil es (by simpa using hne)
  apply exists_plainDigit _ (List.all_eq_true.1 hdigits c hc)
  exact (sign_suffix _).subset (mem_of_dropUnderscores?_some hes hc)

/-- A finite decimal is written with a digit, of whatever script. -/
theorem exists_digit_of_read? {s : List Char} {x : Double} (h : read? s = some x) (hx : x.isFinite = true) :
    ∃ c ∈ s, (plainDigit c).isDigit = true := by
  rw [read?] at h
  obtain ⟨t, ht, h⟩ := Option.bind_eq_some_iff.1 h
  obtain ⟨c, hc, hd⟩ := exists_digit_of_readPlain? h hx
  exact exists_plainDigit (mem_of_dropUnderscores?_some ht hc) hd

end MockTree.Decimal
