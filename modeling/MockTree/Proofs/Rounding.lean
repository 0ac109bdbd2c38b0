import Mathlib.Algebra.Order.Field.Power
import Mathlib.Data.Rat.Cast.Order
import Mathlib.Tactic.FieldSimp
import Mathlib.Tactic.Linarith
import Mathlib.Tactic.Positivity
import Mathlib.Tactic.Ring
import MockTree.Decimal.Reader

/-! Rounding to doubles. The double of a quotient depends on its value alone, a quotient near enough to a
double rounds to it, and the shortcuts for huge and tiny decimals come to the same doubles. -/
namespace MockTree.Double

/-- A whole number nearest to a quotient, even if there are two. -/
def Nearest (x : ℚ) (m : ℕ) : Prop := |x - m| ≤ 1 / 2 ∧ (|x - m| = 1 / 2 → Even m)

theorem Nearest.unique {x : ℚ} {m n : ℕ} (hm : Nearest x m) (hn : Nearest x n) : m = n := by
  wlog h : m < n generalizing m n
  · rcases Nat.lt_trichotomy m n with h' | h' | h'
    · exact absurd h' h
    · exact h'
    · exact (this hn hm h').symm
  have hle := abs_le.1 hm.1
  have hge := abs_le.1 hn.1
  have hcast : (m : ℚ) + 1 ≤ n := by exact_mod_cast h
  have hx : x = m + 1 / 2 := by linarith
  have hnm : (n : ℚ) = m + 1 := by linarith
  have heven : Even m := hm.2 (by rw [hx]; norm_num)
  have hodd : Even n := hn.2 (by rw [hx, hnm]; norm_num)
  have : n = m + 1 := by exact_mod_cast hnm
  grind

theorem nearest_floor {q : ℕ} {r : ℚ} (hr : 0 ≤ r) (h : r ≤ 1 / 2) (htie : r = 1 / 2 → Even q) :
    Nearest (q + r) q := by
  have habs : |(q : ℚ) + r - q| = r := by
    rw [add_sub_cancel_left, abs_of_nonneg hr]
  rw [Nearest, habs]
  exact ⟨h, htie⟩

theorem nearest_ceil {q : ℕ} {r : ℚ} (hr : r ≤ 1) (h : 1 / 2 ≤ r) (htie : r = 1 / 2 → Even (q + 1)) :
    Nearest (q + r) (q + 1) := by
  have habs : |(q : ℚ) + r - (q + 1 : ℕ)| = 1 - r := by
    push_cast
    rw [add_sub_add_left_eq_sub, abs_of_nonpos (by linarith), neg_sub]
  rw [Nearest, habs]
  exact ⟨by linarith, fun he => htie (by linarith)⟩

theorem nearest_roundDiv (n : ℕ) {d : ℕ} (hd : 0 < d) : Nearest ((n : ℚ) / d) (roundDiv n d) := by
  have hq : (0 : ℚ) < d := by exact_mod_cast hd
  have hn : (n : ℚ) / d = (n / d : ℕ) + ((n % d : ℕ) : ℚ) / d := by
    rw [div_eq_iff hq.ne', add_mul, div_mul_cancel₀ _ hq.ne']
    exact_mod_cast (Nat.div_add_mod' n d).symm
  have hr : ((n % d : ℕ) : ℚ) / d ≤ 1 := by
    rw [div_le_one hq]
    exact_mod_cast (Nat.mod_lt n hd).le
  have htie : ((n % d : ℕ) : ℚ) / d = 1 / 2 ↔ n % d * 2 = d := by
    rw [div_eq_div_iff hq.ne' (by norm_num), one_mul]
    exact_mod_cast Iff.rfl
  have hmod := Nat.mod_two_eq_zero_or_one (n / d)
  rw [hn, roundDiv]
  split
  · next hup =>
    simp only [Bool.or_eq_true, decide_eq_true_eq, Bool.and_eq_true, beq_iff_eq] at hup
    refine nearest_ceil hr ?_ fun he => ?_
    · rw [div_le_div_iff₀ (by norm_num) hq]
      exact_mod_cast (by omega : 1 * d ≤ n % d * 2)
    · have := htie.1 he
      rw [Nat.even_iff]
      omega
  · next hdown =>
    simp only [Bool.or_eq_true, decide_eq_true_eq, Bool.and_eq_true, beq_iff_eq, not_or, not_and] at hdown
    refine nearest_floor (by positivity) ?_ fun he => ?_
    · rw [div_le_div_iff₀ hq (by norm_num)]
      exact_mod_cast (by omega : n % d * 2 ≤ 1 * d)
    · have := htie.1 he
      rw [Nat.even_iff]
      omega

theorem zpow_of_nonneg (b : ℚ) {e : ℤ} (he : 0 ≤ e) : b ^ e = b ^ e.toNat := by
  rw [← zpow_natCast, Int.toNat_of_nonneg he]

theorem zpow_of_neg (b : ℚ) {e : ℤ} (he : ¬ 0 ≤ e) : b ^ e = (b ^ (-e).toNat)⁻¹ := by
  rw [← zpow_natCast, Int.toNat_of_nonneg (by omega), zpow_neg, inv_inv]

theorem nearest_inUnits (num : ℕ) {den : ℕ} (hd : 0 < den) (e : ℤ) :
    Nearest ((num : ℚ) / den / 2 ^ e) (inUnits num den e) := by
  rw [inUnits]
  split
  · next he =>
    have h := nearest_roundDiv num (Nat.mul_pos hd (Nat.pow_pos (n := e.toNat) (by decide : 0 < 2)))
    rw [zpow_of_nonneg 2 he, div_div]
    simpa using h
  · next he =>
    have h := nearest_roundDiv (num * Nat.pow 2 (-e).toNat) hd
    rw [zpow_of_neg 2 he, div_inv_eq_mul, div_mul_eq_mul_div]
    simpa using h

/-- What a double becomes when its significant bits are counted from a place that may be one too low. -/
def fromPlace (negative : Bool) (units : ℤ → ℕ) (e : ℤ) : Double :=
  let e := if units e < Nat.pow 2 53 then e else e + 1
  let m := units e
  let (m, e) := if m < Nat.pow 2 53 then (m, e) else (m / 2, e + 1)
  if m == 0 then .finite negative 0 0
  else if 971 < e then .infinite negative
  else .finite negative m e

theorem ofRatio_eq (negative : Bool) {num : ℕ} (hn : num ≠ 0) (den : ℕ) :
    ofRatio negative num den = fromPlace negative (inUnits num den) (lastPlace num den) := by
  rw [ofRatio, if_neg (by simpa using hn)]
  rfl

theorem fromPlace_of_lt {negative : Bool} {units : ℤ → ℕ} {e : ℤ} (h : units e < 2 ^ 53) :
    fromPlace negative units e =
      if units e = 0 then .finite negative 0 0
      else if 971 < e then .infinite negative else .finite negative (units e) e := by
  have h' : units e < Nat.pow 2 53 := h
  simp only [fromPlace, if_pos h', beq_iff_eq]

theorem fromPlace_of_le {negative : Bool} {units : ℤ → ℕ} {e : ℤ} (h : 2 ^ 53 ≤ units e) :
    fromPlace negative units e =
      if units (e + 1) < 2 ^ 53 then
        if units (e + 1) = 0 then .finite negative 0 0
        else if 971 < e + 1 then .infinite negative else .finite negative (units (e + 1)) (e + 1)
      else
        if units (e + 1) / 2 = 0 then .finite negative 0 0
        else if 971 < e + 2 then .infinite negative else .finite negative (units (e + 1) / 2) (e + 2) := by
  have h' : ¬ units e < Nat.pow 2 53 := Nat.not_lt.2 h
  simp only [fromPlace, if_neg h', beq_iff_eq]
  by_cases hs : units (e + 1) < 2 ^ 53
  · rw [if_pos (show units (e + 1) < Nat.pow 2 53 from hs), if_pos hs]
  · rw [if_neg (show ¬ units (e + 1) < Nat.pow 2 53 from hs), if_neg hs, show e + 1 + 1 = e + 2 by ring]

theorem ofRatio_sign {num den m : ℕ} {e : ℤ} (h : ofRatio false num den = .finite false m e) (negative : Bool) :
    ofRatio negative num den = .finite negative m e := by
  by_cases hn : num = 0
  · rw [hn] at h ⊢
    cases h
    rfl
  rw [ofRatio_eq _ hn] at h ⊢
  rcases Nat.lt_or_ge (inUnits num den (lastPlace num den)) (2 ^ 53) with hs | hs
  · rw [fromPlace_of_lt hs] at h ⊢
    split_ifs at h ⊢ <;> cases h <;> rfl
  · rw [fromPlace_of_le hs] at h ⊢
    split_ifs at h ⊢ <;> cases h <;> rfl

/-- A place from which the significant bits of a quotient may be counted. -/
structure Admits (x : ℚ) (e : ℤ) : Prop where
  low : -1074 ≤ e
  upper : x < 2 ^ 54 * 2 ^ e
  lower : e = -1074 ∨ 2 ^ 52 * 2 ^ e ≤ x

section
variable {x : ℚ} {units : ℤ → ℕ} (hunits : ∀ e, Nearest (x / 2 ^ e) (units e))
include hunits

theorem units_le {e : ℤ} {m : ℕ} (h : x ≤ m * 2 ^ e) : units e ≤ m := by
  have hpos : (0 : ℚ) < 2 ^ e := by positivity
  have hx : x / 2 ^ e ≤ m := by rwa [div_le_iff₀ hpos]
  have := abs_le.1 (hunits e).1
  by_contra hn
  have hcast : (m : ℚ) + 1 ≤ units e := by exact_mod_cast Nat.lt_of_not_le hn
  linarith

theorem le_units {e : ℤ} {m : ℕ} (h : m * 2 ^ e ≤ x) : m ≤ units e := by
  have hpos : (0 : ℚ) < 2 ^ e := by positivity
  have hx : (m : ℚ) ≤ x / 2 ^ e := by rwa [le_div_iff₀ hpos]
  have := abs_le.1 (hunits e).1
  by_contra hn
  have hcast : (units e : ℚ) + 1 ≤ m := by exact_mod_cast Nat.lt_of_not_le hn
  linarith

/-- A quotient that is a little more than so many units is rounded to them. -/
theorem units_eq {e : ℤ} {m : ℕ} (h : |x / 2 ^ e - m| < 1 / 2) : units e = m :=
  (hunits e).unique ⟨h.le, fun he => absurd he h.ne⟩

/-- The place from which bits are counted does not matter. -/
theorem fromPlace_eq (negative : Bool) {e e' : ℤ} (h : Admits x e) (h' : Admits x e') :
    fromPlace negative units e = fromPlace negative units e' := by
  wlog hlt : e < e' generalizing e e'
  · rcases lt_trichotomy e e' with he | rfl | he
    · exact absurd he hlt
    · rfl
    · exact (this h' h he).symm
  have hlow : 2 ^ 52 * 2 ^ e' ≤ x := h'.lower.resolve_left (by have := h.low; omega)
  obtain rfl : e' = e + 1 := by
    by_contra hne
    have hle : (2 : ℚ) ^ (e + 2) ≤ 2 ^ e' := zpow_le_zpow_right₀ (by norm_num) (by omega)
    rw [zpow_add₀ (by norm_num)] at hle
    have := h.upper
    norm_num at hle this hlow
    linarith
  have hpos : (0 : ℚ) < 2 ^ e := by positivity
  have hsucc : (2 : ℚ) ^ (e + 1) = 2 ^ e * 2 := by rw [zpow_add₀ (by norm_num), zpow_one]
  have hsucc' : (2 : ℚ) ^ (e + 2) = 2 ^ e * 4 := by rw [zpow_add₀ (by norm_num)]; norm_num
  have hupper := h.upper
  have hfirst : 2 ^ 53 ≤ units e := le_units hunits (by push_cast; rw [hsucc] at hlow; linarith)
  have hsecond : units (e + 1) ≤ 2 ^ 53 := units_le hunits (by push_cast; rw [hsucc]; linarith)
  rw [fromPlace_of_le hfirst]
  rcases Nat.lt_or_eq_of_le hsecond with hs | hs
  · rw [if_pos hs, fromPlace_of_lt hs]
  · have hthird : units (e + 2) = 2 ^ 52 := by
      have hnear := abs_le.1 (hunits (e + 1)).1
      rw [hs, hsucc] at hnear
      refine units_eq hunits ?_
      have hquot : x / 2 ^ (e + 2) = x / (2 ^ e * 2) / 2 := by rw [hsucc']; field_simp; norm_num
      rw [hquot, abs_lt]
      push_cast at hnear ⊢
      constructor <;> linarith
    rw [if_neg (by omega), fromPlace_of_le (by omega), show e + 1 + 1 = e + 2 by ring, hthird, hs]
    rfl

end

theorem log2_bounds {n : ℕ} (h : n ≠ 0) :
    (2 : ℚ) ^ (Nat.log2 n : ℤ) ≤ n ∧ (n : ℚ) < 2 ^ (Nat.log2 n : ℤ) * 2 := by
  rw [zpow_natCast, ← pow_succ]
  exact ⟨by exact_mod_cast Nat.log2_self_le h, by exact_mod_cast Nat.lt_log2_self⟩

theorem admits_lastPlace {num den : ℕ} (hn : num ≠ 0) (hd : den ≠ 0) :
    Admits ((num : ℚ) / den) (lastPlace num den) := by
  have hden : (0 : ℚ) < den := by exact_mod_cast Nat.pos_of_ne_zero hd
  obtain ⟨hnlow, hnhigh⟩ := log2_bounds hn
  obtain ⟨hdlow, hdhigh⟩ := log2_bounds hd
  have hplace : ∀ k : ℤ, (2 : ℚ) ^ ((Nat.log2 num : ℤ) - Nat.log2 den - k) * 2 ^ k * 2 ^ (Nat.log2 den : ℤ) =
      2 ^ (Nat.log2 num : ℤ) := fun k => by
    rw [← zpow_add₀ (by norm_num), ← zpow_add₀ (by norm_num)]
    congr 1
    ring
  have h53 := hplace 53
  set p : ℚ := 2 ^ ((Nat.log2 num : ℤ) - Nat.log2 den - 53) with hp
  have hppos : 0 < p := by positivity
  have hpow : (2 : ℚ) ^ (53 : ℤ) = 2 ^ 53 := by norm_num
  rw [hpow] at h53
  refine ⟨le_max_left _ _, ?_, ?_⟩
  · have hle : p ≤ 2 ^ lastPlace num den := zpow_le_zpow_right₀ (by norm_num) (le_max_right _ _)
    rw [div_lt_iff₀ hden]
    have h1 : p * 2 ^ 54 * den ≤ 2 ^ 54 * 2 ^ lastPlace num den * den := by
      have := mul_le_mul_of_nonneg_right hle hden.le
      nlinarith
    have h2 : p * 2 ^ 54 * 2 ^ (Nat.log2 den : ℤ) ≤ p * 2 ^ 54 * den :=
      mul_le_mul_of_nonneg_left hdlow (by positivity)
    have h3 : p * 2 ^ 54 * 2 ^ (Nat.log2 den : ℤ) = 2 ^ (Nat.log2 num : ℤ) * 2 := by
      rw [← h53]; ring
    linarith
  · by_cases hlow : -1074 ≤ (Nat.log2 num : ℤ) - Nat.log2 den - 53
    · right
      rw [lastPlace, max_eq_right hlow, ← hp, le_div_iff₀ hden]
      have h1 : 2 ^ 52 * p * den ≤ 2 ^ 52 * p * (2 ^ (Nat.log2 den : ℤ) * 2) :=
        mul_le_mul_of_nonneg_left hdhigh.le (by positivity)
      have h2 : 2 ^ 52 * p * (2 ^ (Nat.log2 den : ℤ) * 2) = 2 ^ (Nat.log2 num : ℤ) := by
        rw [← h53]; ring
      linarith
    · left
      exact max_eq_left (by omega)

/-- The double of a quotient is counted from any place that its value admits. -/
theorem ofRatio_eq_fromPlace (negative : Bool) {num den : ℕ} (hn : num ≠ 0) (hd : den ≠ 0) {e : ℤ}
    (he : Admits ((num : ℚ) / den) e) :
    ofRatio negative num den = fromPlace negative (inUnits num den) e := by
  rw [ofRatio_eq negative hn]
  exact fromPlace_eq (nearest_inUnits num (Nat.pos_of_ne_zero hd)) negative (admits_lastPlace hn hd) he

/-- The double of a quotient depends on its value alone. -/
theorem ofRatio_congr (negative : Bool) {num den num' den' : ℕ} (hd : den ≠ 0) (hd' : den' ≠ 0)
    (h : (num : ℚ) / den = num' / den') : ofRatio negative num den = ofRatio negative num' den' := by
  have hq : (den : ℚ) ≠ 0 := by exact_mod_cast hd
  have hq' : (den' : ℚ) ≠ 0 := by exact_mod_cast hd'
  by_cases hn : num = 0
  · obtain rfl : num' = 0 := by simpa [hn, hq', eq_comm] using h
    rw [hn]
    rfl
  · have hn' : num' ≠ 0 := by
      rintro rfl
      exact hn (by simpa [hq] using h)
    have hunits : inUnits num den = inUnits num' den' := by
      funext e
      refine (nearest_inUnits num (Nat.pos_of_ne_zero hd) e).unique ?_
      rw [h]
      exact nearest_inUnits num' (Nat.pos_of_ne_zero hd') e
    rw [ofRatio_eq_fromPlace negative hn hd (admits_lastPlace hn hd), hunits,
      ofRatio_eq_fromPlace negative hn' hd' (h ▸ admits_lastPlace hn hd)]

/-- A finite double in its normal form. -/
structure Normal (m : ℕ) (e : ℤ) : Prop where
  pos : 0 < m
  bits : m < 2 ^ 53
  low : -1074 ≤ e
  high : e ≤ 971
  full : e = -1074 ∨ 2 ^ 52 ≤ m

/-- A quotient at or a little above a double is rounded to it. -/
theorem ofRatio_of_near (negative : Bool) {m : ℕ} {e : ℤ} (h : Normal m e) {num den : ℕ} (hd : den ≠ 0)
    (hlow : (m : ℚ) * 2 ^ e ≤ num / den) (hhigh : (num : ℚ) / den < (m + 1 / 2) * 2 ^ e) :
    ofRatio negative num den = .finite negative m e := by
  have hpos : (0 : ℚ) < 2 ^ e := by positivity
  have hm : (0 : ℚ) < m := by exact_mod_cast h.pos
  have hn : num ≠ 0 := by
    rintro rfl
    have : (0 : ℚ) < m * 2 ^ e := by positivity
    simp at hlow
    linarith
  have hbits : (m : ℚ) + 1 ≤ 2 ^ 53 := by exact_mod_cast h.bits
  have hadmits : Admits ((num : ℚ) / den) e := by
    refine ⟨h.low, ?_, h.full.imp_right fun hf => ?_⟩
    · nlinarith
    · have hf : (2 : ℚ) ^ 52 ≤ m := by exact_mod_cast hf
      nlinarith
  have hunits : inUnits num den e = m := by
    refine units_eq (nearest_inUnits num (Nat.pos_of_ne_zero hd)) ?_
    have h1 : (m : ℚ) ≤ num / den / 2 ^ e := by rwa [le_div_iff₀ hpos]
    have h2 : (num : ℚ) / den / 2 ^ e < m + 1 / 2 := by rwa [div_lt_iff₀ hpos]
    rw [abs_lt]
    constructor <;> linarith
  rw [ofRatio_eq_fromPlace negative hn hd hadmits, fromPlace_of_lt (by rw [hunits]; exact h.bits), hunits,
    if_neg h.pos.ne', if_neg (by have := h.high; omega)]

/-- What is far too large is no double. -/
theorem ofRatio_of_huge (negative : Bool) {num den : ℕ} (hd : den ≠ 0)
    (h : (2 : ℚ) ^ (1025 : ℤ) ≤ num / den) : ofRatio negative num den = .infinite negative := by
  have hn : num ≠ 0 := by
    rintro rfl
    rw [Nat.cast_zero, zero_div] at h
    exact absurd h (not_le.2 (by positivity))
  have hadmits := admits_lastPlace hn hd
  have hunits := nearest_inUnits num (Nat.pos_of_ne_zero hd)
  generalize lastPlace num den = e at hadmits
  have he : 971 < e := by
    by_contra hle
    have hpow : (2 : ℚ) ^ (54 + e) ≤ 2 ^ (1025 : ℤ) := zpow_le_zpow_right₀ (by norm_num) (by omega)
    have hupper : (num : ℚ) / den < 2 ^ (54 + e) := by
      rw [zpow_add₀ (by norm_num)]
      exact hadmits.upper
    exact absurd (h.trans_lt hupper) (not_lt.2 hpow)
  have hlow : 2 ^ 52 * 2 ^ e ≤ (num : ℚ) / den := hadmits.lower.resolve_left (by omega)
  have hfirst : 2 ^ 52 ≤ inUnits num den e := le_units hunits (by exact_mod_cast hlow)
  rw [ofRatio_eq_fromPlace negative hn hd hadmits]
  by_cases hlt : inUnits num den e < 2 ^ 53
  · rw [fromPlace_of_lt hlt, if_neg (by omega), if_pos he]
  · have hge : 2 ^ 53 ≤ inUnits num den e := Nat.le_of_not_lt hlt
    have hsecond : 2 ^ 51 ≤ inUnits num den (e + 1) := by
      refine le_units hunits ?_
      have hsucc : (2 : ℚ) ^ (e + 1) = 2 ^ e * 2 := by rw [zpow_add₀ (by norm_num), zpow_one]
      push_cast
      rw [hsucc]
      linarith
    rw [fromPlace_of_le hge]
    split
    · rw [if_neg (by omega), if_pos (by omega)]
    · rw [if_neg (by omega), if_pos (by omega)]

/-- What is far too small is nothing. -/
theorem ofRatio_of_tiny (negative : Bool) {num den : ℕ} (hd : den ≠ 0)
    (h : (num : ℚ) / den < 2 ^ (-1076 : ℤ)) : ofRatio negative num den = .finite negative 0 0 := by
  by_cases hn : num = 0
  · rw [hn]
    rfl
  have hadmits := admits_lastPlace hn hd
  have hunits := nearest_inUnits num (Nat.pos_of_ne_zero hd)
  have he : lastPlace num den = -1074 := by
    by_contra hne
    have hlow := hadmits.lower.resolve_left hne
    have hpow : (2 : ℚ) ^ (-1076 : ℤ) ≤ 2 ^ ((52 : ℕ) + lastPlace num den) :=
      zpow_le_zpow_right₀ (by norm_num) (by have := hadmits.low; omega)
    rw [zpow_add₀ (by norm_num), zpow_natCast] at hpow
    exact absurd (hpow.trans hlow) (not_le.2 h)
  have hzero : inUnits num den (-1074) = 0 := by
    refine units_eq hunits ?_
    have h0 : 0 ≤ (num : ℚ) / den / 2 ^ (-1074 : ℤ) := by positivity
    have h1 : (num : ℚ) / den / 2 ^ (-1074 : ℤ) < 2 ^ (-2 : ℤ) := by
      rwa [div_lt_iff₀ (by positivity), ← zpow_add₀ (by norm_num)]
    rw [Nat.cast_zero, sub_zero, abs_of_nonneg h0]
    exact h1.trans (by norm_num)
  rw [ofRatio_eq_fromPlace negative hn hd (he ▸ hadmits), fromPlace_of_lt (by rw [hzero]; decide), hzero,
    if_pos rfl]

theorem powTen_eq (k : ℤ) : ((powTen k).1 : ℚ) / (powTen k).2 = 10 ^ k ∧ (powTen k).2 ≠ 0 := by
  rw [powTen]
  split
  · next hk =>
    simp [zpow_of_nonneg 10 hk]
  · next hk =>
    simp [zpow_of_neg 10 hk]

/-- The value of a decimal decides its double. -/
theorem ofDigits_congr (negative : Bool) {n n' : ℕ} {k k' : ℤ} (h : (n : ℚ) * 10 ^ k = n' * 10 ^ k') :
    ofDigits negative n k = ofDigits negative n' k' := by
  obtain ⟨hk, hk0⟩ := powTen_eq k
  obtain ⟨hk', hk0'⟩ := powTen_eq k'
  refine ofRatio_congr negative hk0 hk0' ?_
  push_cast
  rw [mul_div_assoc, mul_div_assoc, hk, hk', h]

end MockTree.Double
