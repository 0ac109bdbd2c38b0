import MockTree.Proofs.Rounding

/-! Decimals and doubles. Digits are read back as the number they were written for, whatever zeros stand
around them, and the shortest decimal of a double is read back as the double. -/
namespace MockTree.Decimal
open Double

theorem natOf_eq (s : List Char) : natOf s = Nat.ofDigitChars 10 s 0 := by
  rw [natOf, Nat.ofDigitChars_eq_foldl]
  simp only [Nat.mul_comm 10]
  rfl

theorem natOf_toDigits (n : ℕ) : natOf (Nat.toDigits 10 n) = n := by
  rw [natOf_eq, Nat.ofDigitChars_ten_toDigits]

theorem natOf_append (a b : List Char) : natOf (a ++ b) = natOf a * 10 ^ b.length + natOf b := by
  rw [natOf_eq, natOf_eq, natOf_eq, Nat.ofDigitChars_append, Nat.ofDigitChars_eq_ofDigitChars_zero, Nat.mul_comm]

theorem natOf_zeros (j : ℕ) : natOf (List.replicate j '0') = 0 := by
  rw [natOf_eq, Nat.ofDigitChars_replicate_zero, Nat.mul_zero]

theorem natOf_cons (c : Char) (s : List Char) : natOf (c :: s) = (c.toNat - 48) * 10 ^ s.length + natOf s := by
  simpa [natOf] using natOf_append [c] s

theorem natOf_dropZeros (s : List Char) : natOf (s.dropWhile (· == '0')) = natOf s := by
  induction s with
  | nil => rfl
  | cons c s ih =>
    rw [List.dropWhile_cons]
    split
    · next hc =>
      rw [ih, natOf_cons, eq_of_beq hc]
      simp
    · rfl

theorem isDigit_iff {c : Char} : c.isDigit = true ↔ 48 ≤ c.toNat ∧ c.toNat ≤ 57 := by
  rw [Char.isDigit, Bool.and_eq_true, decide_eq_true_eq, decide_eq_true_eq]
  exact Iff.rfl

theorem natOf_lt {s : List Char} (h : ∀ c ∈ s, c.isDigit = true) : natOf s < 10 ^ s.length := by
  induction s with
  | nil => simp [natOf]
  | cons c s ih =>
    have hs := ih fun d hd => h d (by simp [hd])
    have hc : c.toNat - 48 ≤ 9 := by have := isDigit_iff.1 (h c (by simp)); omega
    have := Nat.mul_le_mul_right (10 ^ s.length) hc
    rw [natOf_cons, List.length_cons, pow_succ]
    omega

/-- A number has as many digits as it needs. -/
theorem pow_le_natOf {c : Char} {s : List Char} (hc : c.isDigit = true) (hne : c ≠ '0') :
    10 ^ s.length ≤ natOf (c :: s) := by
  have hpos : 1 ≤ c.toNat - 48 := by
    have := (isDigit_iff.1 hc).1
    have : c.toNat ≠ 48 := fun he => hne (Char.toNat_inj.1 he)
    omega
  have := Nat.mul_le_mul_right (10 ^ s.length) hpos
  rw [natOf_cons]
  omega

theorem two_pow_le_ten_pow {e : ℤ} (h : e ≤ 1200) : (2 : ℚ) ^ e ≤ 10 ^ (400 : ℤ) :=
  calc (2 : ℚ) ^ e ≤ 2 ^ ((3 : ℤ) * 400) := zpow_le_zpow_right₀ (by norm_num) h
    _ = (2 ^ (3 : ℤ)) ^ (400 : ℤ) := zpow_mul _ _ _
    _ ≤ 10 ^ (400 : ℤ) := zpow_le_zpow_left₀ (by norm_num) (by norm_num) (by norm_num)

theorem ofDigits_eq_ofRatio (negative : Bool) (n : ℕ) (k : ℤ) :
    ∃ num den, ofDigits negative n k = ofRatio negative num den ∧ den ≠ 0 ∧ (num : ℚ) / den = n * 10 ^ k := by
  obtain ⟨hk, hk0⟩ := powTen_eq k
  refine ⟨n * (powTen k).1, (powTen k).2, rfl, hk0, ?_⟩
  rw [Nat.cast_mul, mul_div_assoc, hk]

/-- A decimal of so many digits before the point is no double. -/
theorem ofDigits_of_huge (negative : Bool) {n j : ℕ} {k : ℤ} (hn : 10 ^ j ≤ n) (h : 400 ≤ j + k) :
    ofDigits negative n k = .infinite negative := by
  obtain ⟨num, den, hof, hden, hval⟩ := ofDigits_eq_ofRatio negative n k
  rw [hof]
  refine ofRatio_of_huge negative hden ?_
  have hn : (10 : ℚ) ^ j ≤ n := by exact_mod_cast hn
  rw [hval]
  calc (2 : ℚ) ^ (1025 : ℤ) ≤ 10 ^ (400 : ℤ) := two_pow_le_ten_pow (by norm_num)
    _ ≤ 10 ^ ((j : ℤ) + k) := zpow_le_zpow_right₀ (by norm_num) h
    _ = 10 ^ j * 10 ^ k := by rw [zpow_add₀ (by norm_num), zpow_natCast]
    _ ≤ n * 10 ^ k := mul_le_mul_of_nonneg_right hn (by positivity)

/-- A decimal of so many zeros behind the point is nothing. -/
theorem ofDigits_of_tiny (negative : Bool) {n j : ℕ} {k : ℤ} (hn : n < 10 ^ j) (h : j + k ≤ -400) :
    ofDigits negative n k = .finite negative 0 0 := by
  obtain ⟨num, den, hof, hden, hval⟩ := ofDigits_eq_ofRatio negative n k
  rw [hof]
  refine ofRatio_of_tiny negative hden ?_
  have hn : (n : ℚ) < 10 ^ j := by exact_mod_cast hn
  rw [hval]
  calc (n : ℚ) * 10 ^ k < 10 ^ j * 10 ^ k := mul_lt_mul_of_pos_right hn (by positivity)
    _ = 10 ^ ((j : ℤ) + k) := by rw [zpow_add₀ (by norm_num), zpow_natCast]
    _ ≤ 10 ^ (-400 : ℤ) := zpow_le_zpow_right₀ (by norm_num) h
    _ ≤ 2 ^ (-1076 : ℤ) := by
      rw [zpow_neg, zpow_neg]
      exact inv_anti₀ (by positivity) (two_pow_le_ten_pow (by norm_num))

/-- The shortcuts for decimals that no double can be come to the same as rounding them. -/
theorem scaled_eq (negative : Bool) {s : List Char} (h : ∀ c ∈ s, c.isDigit = true) (k : ℤ) :
    scaled negative s k = ofDigits negative (natOf s) k := by
  have hdrop : ∀ c ∈ s.dropWhile (· == '0'), c.isDigit = true := fun c hc =>
    h c ((List.dropWhile_sublist _).mem hc)
  have hhead := List.head?_dropWhile_not (· == '0') s
  rw [scaled, ← natOf_dropZeros s]
  generalize s.dropWhile (· == '0') = ds at hdrop hhead
  cases ds with
  | nil =>
    change _ = ofRatio negative (0 * (powTen k).1) (powTen k).2
    rw [Nat.zero_mul]
    rfl
  | cons c ds =>
    have hlower := pow_le_natOf (s := ds) (hdrop c (by simp)) (by simpa using hhead)
    simp only
    rw [if_neg (by simp)]
    split
    · next hlead =>
      rw [List.length_cons] at hlead
      exact (ofDigits_of_huge negative hlower (by omega)).symm
    · split
      · next hlead => exact (ofDigits_of_tiny negative (natOf_lt hdrop) (by omega)).symm
      · rfl

end MockTree.Decimal

namespace MockTree.Double

theorem lt_pow_decimalLength (n : ℕ) : n < 10 ^ decimalLength n :=
  (Nat.length_toDigits_le_iff (by decide) Nat.length_toDigits_pos).1 le_rfl

theorem pow_decimalLength_le {n : ℕ} (h : n ≠ 0) : 10 ^ (decimalLength n - 1) ≤ n := by
  by_contra hlt
  rcases Nat.eq_zero_or_pos (decimalLength n - 1) with hz | hpos
  · rw [hz] at hlt
    omega
  · have := (Nat.length_toDigits_le_iff (by decide) hpos).2 (Nat.lt_of_not_le hlt)
    rw [← decimalLength] at this
    omega

theorem powTen_pos (k : ℤ) : 0 < (powTen k).1 ∧ 0 < (powTen k).2 := by
  rw [powTen]
  split <;> simp

/-- Ten to the exponent of its first digit is no more than a quotient. -/
theorem pow_leadingExponent_le {num den : ℕ} (hn : num ≠ 0) (hd : den ≠ 0) :
    (10 : ℚ) ^ leadingExponent num den ≤ num / den := by
  have hden : (0 : ℚ) < den := by exact_mod_cast Nat.pos_of_ne_zero hd
  simp only [leadingExponent]
  split
  · next hle =>
    obtain ⟨heq, -⟩ := powTen_eq ((decimalLength num : ℤ) - decimalLength den)
    have hb : (0 : ℚ) < (powTen ((decimalLength num : ℤ) - decimalLength den)).2 := by
      exact_mod_cast (powTen_pos _).2
    rw [← heq, div_le_div_iff₀ hb hden]
    exact_mod_cast hle
  · have hnum : (10 : ℚ) ^ ((decimalLength num : ℤ) - 1) ≤ num := by
      have hlen : 0 < decimalLength num := Nat.length_toDigits_pos
      rw [← Int.ofNat_one, ← Int.ofNat_sub hlen, zpow_natCast]
      exact_mod_cast pow_decimalLength_le hn
    have hdlt : (den : ℚ) ≤ 10 ^ (decimalLength den : ℤ) := by
      rw [zpow_natCast]
      exact_mod_cast (lt_pow_decimalLength den).le
    calc (10 : ℚ) ^ ((decimalLength num : ℤ) - decimalLength den - 1)
        = 10 ^ ((decimalLength num : ℤ) - 1) / 10 ^ (decimalLength den : ℤ) := by
          rw [← zpow_sub₀ (by norm_num)]; congr 1; ring
      _ ≤ num / den := div_le_div₀ (by positivity) hnum hden hdlt

theorem onGrid?_eq_some {x : Double} {num den n : ℕ} {k : ℤ} (h : onGrid? x num den k = some n) :
    n ≠ 0 ∧ ofDigits false n k = x := by
  simp only [onGrid?] at h
  split at h
  · next hboth =>
    simp only [Bool.and_eq_true, bne_iff_ne, ne_eq, beq_iff_eq] at hboth
    obtain ⟨⟨hlow, hlowx⟩, -, hhighx⟩ := hboth
    split at h <;> cases h
    · exact ⟨hlow, hlowx⟩
    · exact ⟨Nat.succ_ne_zero _, hhighx⟩
  · split at h
    · next hfits =>
      cases h
      simpa using hfits
    · split at h <;> cases h
      next hfits =>
      simp only [Bool.and_eq_true, bne_iff_ne, ne_eq, beq_iff_eq] at hfits
      exact ⟨Nat.succ_ne_zero _, hfits.2⟩

theorem isSome_onGrid? {x : Double} {num den : ℕ} {k : ℤ}
    (h : (num * (powTen k).2 / (den * (powTen k).1) ≠ 0 ∧
        ofDigits false (num * (powTen k).2 / (den * (powTen k).1)) k = x) ∨
      (num * (powTen k).2 % (den * (powTen k).1) ≠ 0 ∧
        ofDigits false (num * (powTen k).2 / (den * (powTen k).1) + 1) k = x)) :
    (onGrid? x num den k).isSome = true := by
  simp only [onGrid?]
  split
  · split <;> rfl
  · split
    · rfl
    · next hlow =>
      rcases h with h | h
      · simp [h] at hlow
      · simp [h]

/-- A decimal grid of seventeen digits is finer than the doubles at a place. -/
theorem grid_lt_half_unit {m : ℕ} {e k : ℤ} (h : Normal m e) (hgrid : (10 : ℚ) ^ k * 10 ^ 17 ≤ m * 2 ^ e) :
    (10 : ℚ) ^ k < 2 ^ e / 2 := by
  have htwo : (0 : ℚ) < 2 ^ e := by positivity
  have hten : (0 : ℚ) < 10 ^ k := by positivity
  have hbits : (m : ℚ) < 2 ^ 53 := by exact_mod_cast h.bits
  nlinarith

/-- The whole part of a quotient in units of a grid, and what is left of it. -/
theorem div_eq_units (num : ℕ) {den : ℕ} (hd : den ≠ 0) (k : ℤ) :
    ∃ r : ℚ, (num : ℚ) / den = ((num * (powTen k).2 / (den * (powTen k).1) : ℕ) + r) * 10 ^ k ∧ 0 ≤ r ∧ r < 1 ∧
      (r = 0 ↔ num * (powTen k).2 % (den * (powTen k).1) = 0) := by
  obtain ⟨ha, hb⟩ := powTen_pos k
  have hpos : 0 < den * (powTen k).1 := Nat.mul_pos (Nat.pos_of_ne_zero hd) ha
  have hdiv := Nat.div_add_mod' (num * (powTen k).2) (den * (powTen k).1)
  have hlt := Nat.mod_lt (num * (powTen k).2) hpos
  generalize num * (powTen k).2 / (den * (powTen k).1) = low at hdiv
  generalize num * (powTen k).2 % (den * (powTen k).1) = r at hdiv hlt
  have hq : (0 : ℚ) < (den * (powTen k).1 : ℕ) := by exact_mod_cast hpos
  refine ⟨r / (den * (powTen k).1 : ℕ), ?_, by positivity, ?_, ?_⟩
  · have hdiv : (low : ℚ) * (den * (powTen k).1 : ℕ) + r = num * (powTen k).2 := by exact_mod_cast hdiv
    have hden : (den : ℚ) ≠ 0 := by exact_mod_cast hd
    have ha : ((powTen k).1 : ℚ) ≠ 0 := by exact_mod_cast ha.ne'
    have hb : ((powTen k).2 : ℚ) ≠ 0 := by exact_mod_cast hb.ne'
    push_cast at hdiv ⊢
    rw [← (powTen_eq k).1]
    field_simp
    linarith
  · rw [div_lt_one hq]
    exact_mod_cast hlt
  · rw [div_eq_zero_iff, or_iff_left hq.ne', Nat.cast_eq_zero]

/-- A grid of eighteen digits holds a decimal for every double. -/
theorem isSome_onGrid?_of_normal {m : ℕ} {e : ℤ} (h : Normal m e) {num den : ℕ} (hn : num ≠ 0) (hd : den ≠ 0)
    (hval : (num : ℚ) / den = m * 2 ^ e) :
    (onGrid? (.finite false m e) num den (leadingExponent num den - 17)).isSome = true := by
  set k := leadingExponent num den - 17 with hk
  have hgrid : (10 : ℚ) ^ k * 10 ^ 17 ≤ m * 2 ^ e := by
    have := pow_leadingExponent_le hn hd
    rw [show leadingExponent num den = k + (17 : ℕ) by omega, zpow_add₀ (by norm_num), zpow_natCast, hval] at this
    exact this
  have hstep := grid_lt_half_unit h hgrid
  have hten : (0 : ℚ) < 10 ^ k := by positivity
  have hpos : (0 : ℚ) < m * 2 ^ e := by
    have : (0 : ℚ) < m := by exact_mod_cast h.pos
    positivity
  obtain ⟨hpow, hb0⟩ := powTen_eq k
  have hread : ∀ n : ℕ, ((n * (powTen k).1 : ℕ) : ℚ) / (powTen k).2 = n * 10 ^ k := fun n => by
    rw [Nat.cast_mul, mul_div_assoc, hpow]
  apply isSome_onGrid?
  obtain ⟨r, hunits, hr0, hr1, hzero⟩ := div_eq_units num hd k
  rw [hval] at hunits
  generalize num * (powTen k).2 / (den * (powTen k).1) = low at hunits ⊢
  by_cases hr : r = 0
  · -- The double lies on the grid.
    left
    rw [hr, add_zero] at hunits
    refine ⟨?_, ofRatio_of_near false h hb0 (by rw [hread, hunits]) (by rw [hread, ← hunits]; linarith)⟩
    rintro rfl
    rw [Nat.cast_zero, zero_mul] at hunits
    exact hpos.ne' hunits
  · -- The next number of the grid is above it by less than a step.
    right
    refine ⟨fun h0 => hr (hzero.2 h0), ofRatio_of_near false h hb0 ?_ ?_⟩
    · rw [hread, hunits, Nat.cast_add_one]
      exact mul_le_mul_of_nonneg_right (by linarith) hten.le
    · rw [hread, Nat.cast_add_one]
      nlinarith

theorem searchGrids_spec {x : Double} {num den : ℕ} :
    ∀ (fuel : ℕ) (k : ℤ) (j : ℕ), j < fuel → (onGrid? x num den (k - j)).isSome = true →
      ∃ n k', searchGrids x num den k fuel = (n, k') ∧ onGrid? x num den k' = some n
  | 0, _, _, hj, _ => absurd hj (Nat.not_lt_zero _)
  | fuel + 1, k, j, hj, h => by
    rw [searchGrids]
    cases hk : onGrid? x num den k with
    | some n => exact ⟨n, k, rfl, hk⟩
    | none =>
      cases j with
      | zero => simp [hk] at h
      | succ j =>
        refine searchGrids_spec fuel (k - 1) j (by omega) ?_
        rwa [show k - 1 - (j : ℤ) = k - ((j + 1 : ℕ) : ℤ) by push_cast; ring]

theorem dropZeros_spec : ∀ (fuel : ℕ) {n : ℕ} (k : ℤ), n ≠ 0 →
    (dropZeros fuel n k).1 ≠ 0 ∧
      ((dropZeros fuel n k).1 : ℚ) * 10 ^ (dropZeros fuel n k).2 = n * 10 ^ k
  | 0, _, _, hn => ⟨hn, rfl⟩
  | fuel + 1, n, k, hn => by
    rw [dropZeros]
    split
    · next hz =>
      simp only [Bool.and_eq_true, beq_iff_eq, bne_iff_ne, ne_eq] at hz
      have hmul : n = n / 10 * 10 := by omega
      obtain ⟨h0, heq⟩ := dropZeros_spec fuel (n := n / 10) (k + 1) (by omega)
      refine ⟨h0, heq.trans ?_⟩
      conv_rhs => rw [hmul]
      rw [zpow_add₀ (by norm_num), zpow_one]
      push_cast
      ring
    · exact ⟨hn, rfl⟩

theorem ratio?_of_normal {m : ℕ} {e : ℤ} (h : Normal m e) :
    ∃ num den : ℕ, (finite false m e).ratio? = some ((num : ℤ), den) ∧ num ≠ 0 ∧ den ≠ 0 ∧
      (num : ℚ) / den = m * 2 ^ e := by
  rw [ratio?]
  split
  · next he =>
    refine ⟨m * 2 ^ e.toNat, 1, by simp, by have := h.pos; positivity, one_ne_zero, ?_⟩
    rw [Nat.cast_one, div_one, zpow_of_nonneg 2 he]
    simp
  · next he =>
    refine ⟨m, 2 ^ (-e).toNat, rfl, h.pos.ne', by positivity, ?_⟩
    rw [zpow_of_neg 2 he, Nat.cast_pow, Nat.cast_ofNat, div_eq_mul_inv]

/-- The shortest decimal of a double is read back as the double. -/
theorem shortest_spec {m : ℕ} {e : ℤ} (h : Normal m e) :
    (shortest m e).1 ≠ 0 ∧
      ∀ negative, ofDigits negative (shortest m e).1 (shortest m e).2 = .finite negative m e := by
  obtain ⟨num, den, hratio, hn, hd, hval⟩ := ratio?_of_normal h
  simp only [shortest, hratio]
  obtain ⟨n, k, hsearch, hgrid⟩ := searchGrids_spec 18 (leadingExponent num den) 17 (by decide)
    (isSome_onGrid?_of_normal h hn hd hval)
  obtain ⟨hn0, hread⟩ := onGrid?_eq_some hgrid
  obtain ⟨hz0, hzero⟩ := dropZeros_spec 20 k hn0
  rw [Int.natAbs_natCast, hsearch]
  refine ⟨hz0, fun negative => ?_⟩
  rw [ofDigits_congr negative hzero]
  exact ofRatio_sign hread negative

end MockTree.Double
