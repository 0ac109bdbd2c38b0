import MockTree.Proofs.Decimals

/-! Doubles that are whole numbers, and doubles between two of them. Whole numbers up to 2^53 are doubles, so are
their products up to there, and the whole part of a decimal of few digits outlives rounding. -/
namespace MockTree.Double

/-- A double that is a whole number. -/
def Is (x : Double) (n : ℤ) : Prop := ∃ d : ℕ, d ≠ 0 ∧ x.ratio? = some (n * d, d)

theorem Is.isWhole {x : Double} {n : ℤ} (h : x.Is n) : x.isWhole = true := by
  obtain ⟨d, -, hx⟩ := h
  simp [Double.isWhole, hx]

theorem Is.truncate? {x : Double} {n : ℤ} (h : x.Is n) : x.truncate? = some n := by
  obtain ⟨d, hd, hx⟩ := h
  simp [Double.truncate?, hx, hd]

theorem isFinite_neg (x : Double) : x.neg.isFinite = x.isFinite := by
  cases x <;> rfl

theorem is_zero (negative : Bool) : (finite negative 0 0).Is 0 :=
  ⟨1, one_ne_zero, by cases negative <;> rfl⟩

/-- A normal form that is worth a whole number is this number. -/
theorem is_of_value (negative : Bool) {m n : ℕ} {e : ℤ} (h : (m : ℚ) * 2 ^ e = n) :
    (finite negative m e).Is (if negative then -n else n) := by
  by_cases he : 0 ≤ e
  · have hn : m * 2 ^ e.toNat = n := by
      rw [zpow_of_nonneg 2 he] at h
      exact_mod_cast h
    refine ⟨1, one_ne_zero, ?_⟩
    simp only [ratio?, if_pos he, ← hn]
    cases negative <;> simp
  · have hn : m = n * 2 ^ (-e).toNat := by
      rw [zpow_of_neg 2 he, ← div_eq_mul_inv, div_eq_iff (by positivity)] at h
      exact_mod_cast h
    refine ⟨2 ^ (-e).toNat, by positivity, ?_⟩
    simp only [ratio?, if_neg he, hn]
    cases negative <;> simp

/-- Every whole number up to 2^53 has a normal form. -/
theorem exists_normal {n : ℕ} (hpos : 0 < n) (hle : n ≤ 2 ^ 53) :
    ∃ m e, Normal m e ∧ (m : ℚ) * 2 ^ e = n := by
  rcases Nat.lt_or_eq_of_le hle with hlt | rfl
  · have hlog : Nat.log2 n ≤ 52 := by
      have := (Nat.log2_lt hpos.ne').2 hlt
      omega
    have hlow := Nat.log2_self_le hpos.ne'
    have hup : n < 2 ^ (Nat.log2 n + 1) := Nat.lt_log2_self
    have hsplit : 2 ^ Nat.log2 n * 2 ^ (52 - Nat.log2 n) = 2 ^ 52 := by
      rw [← pow_add]
      congr 1
      omega
    have hshift : 0 < 2 ^ (52 - Nat.log2 n) := by positivity
    refine ⟨n * 2 ^ (52 - Nat.log2 n), (Nat.log2 n : ℤ) - 52,
      ⟨by positivity, ?_, by omega, by omega, ?_⟩, ?_⟩
    · rw [pow_succ] at hup
      nlinarith
    · right
      nlinarith
    · have he : (Nat.log2 n : ℤ) - 52 = -((52 - Nat.log2 n : ℕ) : ℤ) := by omega
      rw [he, zpow_neg, zpow_natCast]
      push_cast
      field_simp
  · exact ⟨2 ^ 52, 1, ⟨by norm_num, by norm_num, by norm_num, by norm_num, .inr le_rfl⟩, by norm_num⟩

/-- A quotient that is a whole number up to 2^53 is not rounded. -/
theorem is_ofRatio (negative : Bool) {num den n : ℕ} (hd : den ≠ 0) (h : (num : ℚ) / den = n)
    (hle : n ≤ 2 ^ 53) : (ofRatio negative num den).Is (if negative then -n else n) := by
  have hden : (den : ℚ) ≠ 0 := by exact_mod_cast hd
  rcases Nat.eq_zero_or_pos n with rfl | hpos
  · obtain rfl : num = 0 := by simpa [hden] using h
    have hzero : ofRatio negative 0 den = finite negative 0 0 := rfl
    rw [hzero]
    simpa using is_zero negative
  · obtain ⟨m, e, hnormal, hval⟩ := exists_normal hpos hle
    rw [ofRatio_of_near negative hnormal hd (by rw [h, hval])]
    · exact is_of_value negative hval
    · have htwo : (0 : ℚ) < 2 ^ e := by positivity
      rw [h, ← hval]
      nlinarith

theorem is_ofSigned (zeroNegative : Bool) {num n : ℤ} {den : ℕ} (hd : den ≠ 0) (h : num = n * den)
    (hle : n.natAbs ≤ 2 ^ 53) : (ofSigned zeroNegative num den).Is n := by
  have hden : (den : ℚ) ≠ 0 := by exact_mod_cast hd
  have hzero : num = 0 ↔ n = 0 := by simp [h, hd]
  have hneg : num < 0 ↔ n < 0 := by
    have : (0 : ℤ) < den := by exact_mod_cast Nat.pos_of_ne_zero hd
    rw [h, mul_neg_iff]
    omega
  unfold ofSigned
  by_cases hn : n = 0
  · rw [if_pos (by simpa using hzero.2 hn), hn]
    exact is_zero _
  · rw [if_neg (by simpa using fun he => hn (hzero.1 he))]
    have hval : ((num.natAbs : ℕ) : ℚ) / den = n.natAbs := by
      rw [h, Int.natAbs_mul, Int.natAbs_natCast]
      push_cast
      field_simp
    have his := is_ofRatio (decide (num < 0)) hd hval hle
    have habs : (if decide (num < 0) = true then -(n.natAbs : ℤ) else n.natAbs) = n := by
      simp only [decide_eq_true_eq, hneg]
      split <;> omega
    rwa [habs] at his

theorem ofInt_eq (n : ℤ) : ofInt n = ofSigned false n 1 := by
  unfold ofInt ofSigned
  by_cases hn : n = 0
  · rw [hn]
    rfl
  · rw [if_neg (by simpa using hn)]

theorem is_ofInt {n : ℤ} (hle : n.natAbs ≤ 2 ^ 53) : (ofInt n).Is n := by
  rw [ofInt_eq]
  exact is_ofSigned false one_ne_zero (by simp) hle

/-- The product of whole numbers is not rounded up to 2^53. -/
theorem Is.mul {x y : Double} {a b : ℤ} (hx : x.Is a) (hy : y.Is b) (hle : (a * b).natAbs ≤ 2 ^ 53) :
    (x.mul y).Is (a * b) := by
  obtain ⟨c, hc, hx⟩ := hx
  obtain ⟨d, hd, hy⟩ := hy
  unfold Double.mul
  simp only [hx, hy]
  apply is_ofSigned _ (Nat.mul_ne_zero hc hd) _ hle
  push_cast
  ring

/-! ### Rounding -/

/-- Units of a place that is not too high make a double. -/
theorem exists_finite (negative : Bool) (k : ℕ) {e : ℤ} (he : e ≤ 971) :
    ∃ m e', (if k = 0 then finite negative 0 0 else if 971 < e then infinite negative else finite negative k e) =
      finite negative m e' ∧ (m : ℚ) * 2 ^ e' = k * 2 ^ e := by
  by_cases hk : k = 0
  · exact ⟨0, 0, if_pos hk, by simp [hk]⟩
  · exact ⟨k, e, by rw [if_neg hk, if_neg (by omega)], rfl⟩

section
variable {x : ℚ} {units : ℤ → ℕ} (hunits : ∀ e, Nearest (x / 2 ^ e) (units e))
include hunits

/-- Units of a place are away from what they were counted of by half of one. -/
theorem abs_units_sub_le (e : ℤ) : |units e * 2 ^ e - x| ≤ 2 ^ e / 2 := by
  have hpos : (0 : ℚ) < 2 ^ e := by positivity
  have h := mul_le_mul_of_nonneg_right (hunits e).1 hpos.le
  have hscale : units e * 2 ^ e - x = -((x / 2 ^ e - units e) * 2 ^ e) := by
    field_simp
    ring
  rw [hscale, abs_neg, abs_mul, abs_of_pos hpos]
  linarith

/-- Counted from a place, a double is away from what it was made of by no more than a unit of the place. -/
theorem exists_fromPlace_near (negative : Bool) {e : ℤ} (h : Admits x e) (he : e + 2 ≤ 971) :
    ∃ m e', fromPlace negative units e = finite negative m e' ∧ |(m : ℚ) * 2 ^ e' - x| ≤ 2 ^ e := by
  have hpos : (0 : ℚ) < 2 ^ e := by positivity
  have hsucc : (2 : ℚ) ^ (e + 1) = 2 ^ e * 2 := by rw [zpow_add₀ (by norm_num), zpow_one]
  have hfirst := abs_units_sub_le hunits e
  have hsecond := abs_units_sub_le hunits (e + 1)
  rcases Nat.lt_or_ge (units e) (2 ^ 53) with hs | hs
  · rw [fromPlace_of_lt hs]
    obtain ⟨m, e', hm, hval⟩ := exists_finite negative (units e) (show e ≤ 971 by omega)
    refine ⟨m, e', hm, ?_⟩
    rw [hval]
    linarith
  · rw [fromPlace_of_le hs]
    split
    · obtain ⟨m, e', hm, hval⟩ := exists_finite negative (units (e + 1)) (show e + 1 ≤ 971 by omega)
      refine ⟨m, e', hm, ?_⟩
      rw [hval]
      linarith
    · next hlarge =>
      -- What is counted is less than 2^54 units, so the carry makes it a power of two.
      have hle : units (e + 1) ≤ 2 ^ 53 := by
        apply units_le hunits
        have := h.upper
        push_cast
        rw [hsucc]
        linarith
      have heq : units (e + 1) = 2 ^ 53 := by omega
      obtain ⟨m, e', hm, hval⟩ := exists_finite negative (units (e + 1) / 2) he
      refine ⟨m, e', hm, ?_⟩
      have hhalf : ((units (e + 1) / 2 : ℕ) : ℚ) * 2 ^ (e + 2) = units (e + 1) * 2 ^ (e + 1) := by
        rw [heq, hsucc, zpow_add₀ (by norm_num)]
        norm_num
        ring
      rw [hval, hhalf]
      linarith

end

/-- A place from which bits may be counted is a small part of what is counted, or next to nothing. -/
theorem Admits.place_le {x : ℚ} {e : ℤ} (h : Admits x e) (hx : 0 ≤ x) :
    (2 : ℚ) ^ e ≤ x / 2 ^ 52 + 2 ^ (-1074 : ℤ) := by
  have htiny : (0 : ℚ) < 2 ^ (-1074 : ℤ) := by positivity
  rcases h.lower with rfl | hlow
  · linarith [div_nonneg hx (by norm_num : (0 : ℚ) ≤ 2 ^ 52)]
  · have hle : (2 : ℚ) ^ e ≤ x / 2 ^ 52 := by
      rw [le_div_iff₀ (by norm_num)]
      linarith
    linarith

theorem Admits.place_lt {x : ℚ} {e k : ℤ} (h : Admits x e) (hx : x < 2 ^ k) (hk : k ≤ 1000) : e < 948 := by
  rcases h.lower with rfl | hlow
  · norm_num
  · have hlt : (2 : ℚ) ^ (52 + e) < 2 ^ k := by
      rw [zpow_add₀ (by norm_num)]
      exact hlow.trans_lt hx
    have := (zpow_lt_zpow_iff_right₀ (by norm_num)).1 hlt
    omega

/-- A quotient is rounded by no more than a part in 2^52, or by next to nothing. -/
theorem exists_ofRatio_near (negative : Bool) {num den : ℕ} (hd : den ≠ 0) {k : ℤ}
    (h : (num : ℚ) / den < 2 ^ k) (hk : k ≤ 1000) :
    ∃ m e, ofRatio negative num den = finite negative m e ∧
      |(m : ℚ) * 2 ^ e - num / den| ≤ num / den / 2 ^ 52 + 2 ^ (-1074 : ℤ) := by
  by_cases hn : num = 0
  · refine ⟨0, 0, by rw [hn]; rfl, ?_⟩
    rw [hn, Nat.cast_zero, zero_mul, zero_div, sub_zero, abs_zero]
    positivity
  · have hadmits := admits_lastPlace hn hd
    have hplace := hadmits.place_lt h hk
    obtain ⟨m, e, hm, hnear⟩ := exists_fromPlace_near (nearest_inUnits num (Nat.pos_of_ne_zero hd)) negative
      hadmits (by omega)
    refine ⟨m, e, (ofRatio_eq negative hn den).trans hm, hnear.trans (hadmits.place_le ?_)⟩
    positivity

/-- A double between a whole number and the next is cut to it. -/
theorem truncate?_of_between (negative : Bool) {m k : ℕ} {e : ℤ} (hlow : (k : ℚ) ≤ m * 2 ^ e)
    (hhigh : (m : ℚ) * 2 ^ e < k + 1) :
    (finite negative m e).truncate? = some (if negative then -(k : ℤ) else k) := by
  unfold truncate? ratio?
  by_cases he : 0 ≤ e
  · have hk : m * 2 ^ e.toNat = k := by
      rw [zpow_of_nonneg 2 he] at hlow hhigh
      have h1 : k ≤ m * 2 ^ e.toNat := by exact_mod_cast hlow
      have h2 : m * 2 ^ e.toNat < k + 1 := by exact_mod_cast hhigh
      omega
    simp only [if_pos he, ← hk]
    cases negative <;> simp
  · have hpos : 0 < 2 ^ (-e).toNat := by positivity
    have hk : m / 2 ^ (-e).toNat = k := by
      rw [zpow_of_neg 2 he, ← div_eq_mul_inv] at hlow hhigh
      rw [le_div_iff₀ (by positivity)] at hlow
      rw [div_lt_iff₀ (by positivity)] at hhigh
      rw [Nat.div_eq_iff hpos]
      have h1 : k * 2 ^ (-e).toNat ≤ m := by exact_mod_cast hlow
      have h2 : m < (k + 1) * 2 ^ (-e).toNat := by exact_mod_cast hhigh
      rw [Nat.add_mul, Nat.one_mul] at h2
      omega
    have hcut : Int.tdiv (m : ℤ) ((2 ^ (-e).toNat : ℕ) : ℤ) = k := by rw [← hk, Int.ofNat_tdiv]
    simp only [if_neg he]
    cases negative
    · exact congrArg some hcut
    · exact congrArg some ((Int.neg_tdiv ..).trans (congrArg Neg.neg hcut))

end MockTree.Double
