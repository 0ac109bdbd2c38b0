import MockTree.Json.Writer
import MockTree.Proofs.Decimals
import MockTree.Proofs.JsonGrammar

/-! Scalars written as JSON are read back: whole numbers, doubles in each of their layouts, words and strings. -/
namespace MockTree

/-- A double in its one normal form. -/
inductive Double.Proper : Double → Prop
  | nan : Proper .nan
  | infinite (negative : Bool) : Proper (.infinite negative)
  | zero (negative : Bool) : Proper (.finite negative 0 0)
  | normal (negative : Bool) {m : ℕ} {e : ℤ} (h : Double.Normal m e) : Proper (.finite negative m e)

/-- The double that the text of a double is read as. -/
def Double.reread : Double → Double
  | .finite negative m e =>
    if m = 0 then .finite negative 0 0 else ofDigits negative (shortest m e).1 (shortest m e).2
  | x => x

theorem Double.Proper.reread {x : Double} (h : x.Proper) : x.reread = x := by
  cases h with
  | nan => rfl
  | infinite => rfl
  | zero => rfl
  | normal negative h => exact (if_neg h.pos.ne').trans ((shortest_spec h).2 negative)

namespace Double

theorem searchGrids_cases (x : Double) (num den : ℕ) : ∀ (fuel : ℕ) (k : ℤ),
    (searchGrids x num den k fuel).1 ≠ 0 ∨ searchGrids x num den k fuel = (num / den, 0)
  | 0, _ => .inr rfl
  | fuel + 1, k => by
    rw [searchGrids]
    cases hk : onGrid? x num den k with
    | some n => exact .inl (onGrid?_eq_some hk).1
    | none => exact searchGrids_cases x num den fuel (k - 1)

/-- A double has digits, or its text is the one of zero. -/
theorem shortest_cases (m : ℕ) (e : ℤ) : (shortest m e).1 ≠ 0 ∨ shortest m e = (0, 0) := by
  rw [shortest]
  cases (finite false m e).ratio? with
  | none => exact .inr rfl
  | some r =>
    obtain ⟨n, d⟩ := r
    simp only
    generalize hs : searchGrids (finite false m e) n.natAbs d (leadingExponent n.natAbs d) 18 = found
    obtain ⟨digits, k⟩ := found
    by_cases hz : digits = 0
    · rcases searchGrids_cases (finite false m e) n.natAbs d 18 (leadingExponent n.natAbs d) with h | h
      · exact absurd (by rw [hs]; exact hz) h
      · obtain rfl : k = 0 := congrArg Prod.snd (hs.symm.trans h)
        exact .inr (by rw [hz]; rfl)
    · exact .inl (dropZeros_spec 20 k hz).1

end Double

namespace Json
open Text Decimal

theorem isDigit_eq (c : Char) : isDigit c = c.isDigit := by
  simp [isDigit, Char.isDigit, Char.le_def]

theorem digits_toDigits (n : ℕ) : ∀ c ∈ Nat.toDigits 10 n, isDigit c = true := fun c hc => by
  rw [isDigit_eq]
  exact Nat.isDigit_of_mem_toDigits (by decide) (by decide) hc

/-- A number that is not zero opens with no zero. -/
theorem exists_toDigits {n : ℕ} (h : n ≠ 0) : ∃ c ds, Nat.toDigits 10 n = c :: ds ∧ c ≠ '0' := by
  obtain ⟨c, ds, hds⟩ := List.exists_cons_of_ne_nil (Nat.toDigits_ne_nil (n := n) (b := 10))
  refine ⟨c, ds, hds, ?_⟩
  rintro rfl
  have hlow := Double.pow_decimalLength_le h
  have hval : natOf ds = n := by
    have := natOf_toDigits n
    rwa [hds, natOf_cons, show '0'.toNat - 48 = 0 from rfl, Nat.zero_mul, Nat.zero_add] at this
  have hup : natOf ds < 10 ^ ds.length := natOf_lt fun c hc => by
    rw [← isDigit_eq]
    exact digits_toDigits n c (by simp [hds, hc])
  rw [Double.decimalLength, hds, List.length_cons, Nat.add_sub_cancel] at hlow
  omega

theorem whole_toDigits (n : ℕ) : Whole (Nat.toDigits 10 n) := by
  rcases Nat.eq_zero_or_pos n with rfl | hpos
  · exact whole_zero
  · obtain ⟨c, ds, hds, hne⟩ := exists_toDigits hpos.ne'
    have := digits_toDigits n
    rw [hds] at this ⊢
    exact whole_cons this hne

/-- The exponent of a layout. -/
def exponentText (n : ℤ) : List Char :=
  ['e', if n < 0 then '-' else '+'] ++
    if (Nat.toDigits 10 n.natAbs).length < 2 then '0' :: Nat.toDigits 10 n.natAbs else Nat.toDigits 10 n.natAbs

theorem exponent?_exponentText (n : ℤ) : exponent? (exponentText n) = some (n, []) := by
  obtain ⟨ds, hds, hne, hdig, hnat⟩ : ∃ ds, (if (Nat.toDigits 10 n.natAbs).length < 2
      then '0' :: Nat.toDigits 10 n.natAbs else Nat.toDigits 10 n.natAbs) = ds ∧ ds ≠ [] ∧
      (∀ c ∈ ds, isDigit c = true) ∧ natOf ds = n.natAbs := by
    refine ⟨_, rfl, ?_⟩
    split
    · refine ⟨by simp, List.forall_mem_cons.2 ⟨rfl, digits_toDigits _⟩, ?_⟩
      rw [natOf_cons, natOf_toDigits]
      simp
    · exact ⟨Nat.toDigits_ne_nil, digits_toDigits _, natOf_toDigits _⟩
  obtain ⟨h1, h2⟩ := run_append hdig noDigit_nil
  rw [List.append_nil] at h1 h2
  have hsign : Decimal.sign ((if n < 0 then '-' else '+') :: ds) = (decide (n < 0), ds) := by
    split
    · next hneg => rw [decide_eq_true hneg]; rfl
    · next hpos => rw [decide_eq_false hpos]; rfl
  have hval : (if decide (n < 0) = true then -(natOf ds : ℤ) else natOf ds) = n := by
    simp only [hnat, decide_eq_true_eq]
    split <;> omega
  rw [exponentText, hds, List.cons_append, List.singleton_append, exponent?, if_pos (by rfl), hsign]
  simp only [h1, h2, hval, List.isEmpty_iff, hne, if_false]

/-! The digits of a double may stand behind a point and zeros, before zeros and a point, around a point, or before
an exponent. -/

section
variable (negative : Bool)

theorem scaled_congr {ds : List Char} (h : ∀ d ∈ ds, isDigit d = true) {n : ℕ} {k k' : ℤ}
    (hval : (natOf ds : ℚ) * 10 ^ k = n * 10 ^ k') : scaled negative ds k = Double.ofDigits negative n k' := by
  rw [scaled_eq negative fun d hd => by rw [← isDigit_eq]; exact h d hd]
  exact Double.ofDigits_congr negative hval

theorem digits_zeros (j : ℕ) : ∀ d ∈ List.replicate j '0', isDigit d = true := fun d hd => by
  rw [List.eq_of_mem_replicate hd]
  rfl

theorem readNumber_small {ds : List Char} (h : Fraction ds) (j : ℕ) :
    readNumber negative ('0' :: '.' :: List.replicate j '0' ++ ds) =
      some (.real (Double.ofDigits negative (natOf ds) (-(j + ds.length))), []) := by
  have hfs : ∀ d ∈ List.replicate j '0' ++ ds, isDigit d = true :=
    List.forall_mem_append.2 ⟨digits_zeros j, h.digits⟩
  have hread := whole_zero.readNumber_point negative ⟨by simp [h.nonempty], hfs⟩ closes_nil
  rw [scaled_congr negative (List.forall_mem_append.2 ⟨whole_zero.digits, hfs⟩), List.append_nil] at hread
  · exact hread
  · rw [natOf_append, natOf_append, natOf_zeros, show natOf ['0'] = 0 from rfl, Nat.zero_mul, Nat.zero_mul,
      Nat.zero_add, Nat.zero_add, List.length_append, List.length_replicate, Nat.cast_add]

theorem readNumber_large {ds : List Char} (j : ℕ) (h : Whole (ds ++ List.replicate j '0')) :
    readNumber negative (ds ++ List.replicate j '0' ++ ['.', '0']) =
      some (.real (Double.ofDigits negative (natOf ds) j), []) := by
  have hread := h.readNumber_point negative ⟨by simp, whole_zero.digits⟩ closes_nil
  rw [scaled_congr negative (List.forall_mem_append.2 ⟨h.digits, whole_zero.digits⟩), List.append_nil] at hread
  · exact hread
  · rw [natOf_append, natOf_append, natOf_zeros, show natOf ['0'] = 0 from rfl, List.length_replicate,
      List.length_singleton, zpow_natCast]
    push_cast
    rw [zpow_neg_one]
    ring

theorem readNumber_parted {ds fs : List Char} (h : Whole ds) (hfs : Fraction fs) :
    readNumber negative (ds ++ '.' :: fs) =
      some (.real (Double.ofDigits negative (natOf (ds ++ fs)) (-fs.length)), []) := by
  have hread := h.readNumber_point negative hfs closes_nil
  rw [scaled_congr negative (List.forall_mem_append.2 ⟨h.digits, hfs.digits⟩) rfl, List.append_nil] at hread
  exact hread

theorem readNumber_exponential {c : Char} {ds : List Char} (h : Whole [c])
    (hds : ∀ d ∈ ds, isDigit d = true) (n : ℤ) :
    readNumber negative (c :: (if ds.isEmpty then [] else '.' :: ds) ++ exponentText n) =
      some (.real (Double.ofDigits negative (natOf (c :: ds)) (n - ds.length)), []) := by
  obtain ⟨w, hw, hexp⟩ := exists_exponent (exponent?_exponentText n)
  obtain rfl : exponentText n = w := by rw [hw, List.append_nil]
  cases ds with
  | nil =>
    have hread := h.readNumber_exponent negative hexp noDigit_nil
    rw [scaled_congr negative h.digits rfl, List.append_nil] at hread
    simpa using hread
  | cons d ds =>
    have hread := h.readNumber_point_exponent negative ⟨by simp, hds⟩ hexp noDigit_nil
    rw [scaled_congr negative (List.forall_mem_append.2 ⟨h.digits, hds⟩) rfl, List.append_nil] at hread
    simpa using hread

/-- The digits of a layout are read back with the value they were laid out with. -/
theorem readNumber_layout {c : Char} {ds : List Char} (h : ∀ d ∈ c :: ds, isDigit d = true) (hne : c ≠ '0')
    (leading : ℤ) :
    readNumber negative (Double.layout (c :: ds) leading) =
      some (.real (Double.ofDigits negative (natOf (c :: ds)) (leading - ds.length)), []) := by
  rw [Double.layout]
  split
  · split
    · next hneg =>
      rw [readNumber_small negative ⟨by simp, h⟩]
      congr 4
      rw [List.length_cons]
      omega
    · simp only
      split
      · next hlen =>
        rw [readNumber_large negative _ (whole_cons (List.forall_mem_append.2 ⟨h, digits_zeros _⟩) hne)]
        congr 4
        rw [List.length_cons] at hlen ⊢
        omega
      · next hlen =>
        have hds := List.forall_mem_append.1 ((List.take_append_drop (leading.toNat + 1) (c :: ds)).symm ▸ h)
        have hwhole : Whole ((c :: ds).take (leading.toNat + 1)) := whole_cons hds.1 hne
        rw [readNumber_parted negative hwhole ⟨by simpa using hlen, hds.2⟩, List.take_append_drop]
        congr 4
        rw [List.length_drop]
        rw [List.length_cons] at hlen ⊢
        omega
  · have hc : ∀ b ∈ [c], isDigit b = true := fun b hb => h b (by simp_all)
    have hread := readNumber_exponential negative (whole_cons hc hne) (List.forall_mem_cons.1 h).2 leading
    simpa [exponentText] using hread

end

theorem readAtom_of_readNumber {negative : Bool} {s : List Char} {v : Value}
    (h : readNumber negative s = some (v, [])) :
    readAtom ((if negative then ['-'] else []) ++ s) = some (v, []) := by
  obtain ⟨w, hs, -, ⟨c, hc, hd⟩, -⟩ := readNumber_cases h
  rw [List.append_nil] at hs
  obtain ⟨b, t, rfl⟩ := List.exists_cons_of_ne_nil (show s ≠ [] by rintro rfl; cases hs; cases hc)
  obtain rfl : b = c := by
    rw [← hs] at hc
    exact Option.some.inj hc
  obtain ⟨hword, hword'⟩ := readKeyword_of_digit hd t
  cases negative with
  | true => exact (readAtom.eq_def _).trans (by rw [if_pos rfl, List.singleton_append, hword']; exact h)
  | false =>
    rw [if_neg (by simp), List.nil_append, readAtom.eq_def, hword]
    simp only
    split
    · next he =>
      cases he
      cases hd
    · exact h

theorem atom_of_readAtom {w : List Char} {v : Value} (h : readAtom w = some (v, [])) : Atom w v := by
  obtain ⟨w', hw, ha⟩ := exists_atom h
  rwa [hw, List.append_nil]

/-- A text of a double is read as a double. -/
theorem atom_realText (x : Double) : Atom (realText x) (.real x.reread) := by
  refine atom_of_readAtom ?_
  have hzero (negative : Bool) : readAtom ((if negative then ['-'] else []) ++ "0.0".toList) =
      some (.real (.finite negative 0 0), []) := by
    cases negative <;> rfl
  rcases x with _ | negative | ⟨negative, m, e⟩
  case nan => rfl
  case infinite => cases negative <;> rfl
  case finite =>
    have htext : realText (.finite negative m e) = Double.text (.finite negative m e) := rfl
    rw [htext, Double.text, Double.reread]
    by_cases hm : m = 0
    · rw [if_pos (by simp [hm]), if_pos hm]
      exact hzero negative
    rw [if_neg (by simpa using hm), if_neg hm]
    rcases Double.shortest_cases m e with hne | hnone
    · obtain ⟨c, ds, hds, hc⟩ := exists_toDigits hne
      have hdig := digits_toDigits (Double.shortest m e).1
      have hnat := natOf_toDigits (Double.shortest m e).1
      rw [hds] at hdig hnat
      have hlay := readNumber_layout negative hdig hc ((Double.shortest m e).2 + (c :: ds).length - 1)
      have hexp : (Double.shortest m e).2 + ((c :: ds).length : ℤ) - 1 - ds.length = (Double.shortest m e).2 := by
        rw [List.length_cons]
        omega
      rw [hnat, hexp] at hlay
      simp only [hds]
      exact readAtom_of_readNumber hlay
    · simp only [hnone]
      exact hzero negative

/-- A whole number is read back if its digits may be read. -/
theorem atom_intText {n : ℤ} (h : (Nat.toDigits 10 n.natAbs).length ≤ maxDigits) : Atom (intText n) (.int n) := by
  refine atom_of_readAtom ?_
  have hread := (whole_toDigits n.natAbs).readNumber (decide (n < 0)) h closes_nil
  rw [natOf_toDigits, List.append_nil] at hread
  have hval : (if decide (n < 0) = true then -(n.natAbs : ℤ) else n.natAbs) = n := by
    simp only [decide_eq_true_eq]
    split <;> omega
  rw [hval] at hread
  simpa [intText] using readAtom_of_readNumber hread

/-! Strings. -/

theorem hexValue?_hexDigit {n : ℕ} (h : n < 16) : hexValue? (hexDigit n) = some n := by
  have hall : ∀ n < 16, hexValue? (hexDigit n) = some n := by decide
  exact hall n h

theorem hexUnit?_hexOf {n : ℕ} (h : n < 0x10000) :
    ∃ a b c d, hexOf 4 n = [a, b, c, d] ∧ hexUnit? a b c d = some n := by
  refine ⟨_, _, _, _, rfl, ?_⟩
  rw [hexUnit?, hexValue?_hexDigit (Nat.mod_lt _ (by decide)), hexValue?_hexDigit (Nat.mod_lt _ (by decide)),
    hexValue?_hexDigit (Nat.mod_lt _ (by decide)), hexValue?_hexDigit (Nat.mod_lt _ (by decide))]
  simp only [Option.bind_eq_bind, Option.bind_some, Option.pure_def, Option.some.injEq]
  omega

/-- The units of a character. -/
def unitsOf (c : Char) : List ℕ :=
  if c.toNat < 0x10000 then [c.toNat]
  else [0xD800 + (c.toNat - 0x10000) / 0x400, 0xDC00 + (c.toNat - 0x10000) % 0x400]

theorem raw_unitEscape {n : ℕ} (h : n < 0x10000) {raw : List Char} {ns : List ℕ} (hr : Raw raw ns) :
    Raw (unitEscape n ++ raw) (n :: ns) := by
  obtain ⟨a, b, c, d, hs, hn⟩ := hexUnit?_hexOf h
  rw [unitEscape, hs]
  exact .unit hn hr

theorem unitsOf_of_lt {c : Char} (h : c.toNat < 0x10000) : unitsOf c = [c.toNat] := if_pos h

theorem raw_escapeChar (c : Char) {raw : List Char} {ns : List ℕ} (hr : Raw raw ns) :
    Raw (escapeChar true c ++ raw) (unitsOf c ++ ns) := by
  rw [escapeChar]
  split_ifs with hq hn hr' ht hb hf hlow hplain hbasic
  · simp only [Bool.or_eq_true, beq_iff_eq] at hq
    rcases hq with rfl | rfl <;> exact .escape rfl hr
  · obtain rfl := eq_of_beq hn
    exact .escape rfl hr
  · obtain rfl := eq_of_beq hr'
    exact .escape rfl hr
  · obtain rfl := eq_of_beq ht
    exact .escape rfl hr
  · obtain rfl := eq_of_beq hb
    exact .escape rfl hr
  · obtain rfl := eq_of_beq hf
    exact .escape rfl hr
  · rw [unitsOf_of_lt (by omega)]
    exact raw_unitEscape (by omega) hr
  · simp only [Bool.or_eq_true, beq_iff_eq, not_or] at hq
    simp only [Bool.not_true, Bool.false_or, decide_eq_true_eq] at hplain
    rw [unitsOf_of_lt (by omega)]
    exact .char (by omega) hq.1 hq.2 hr
  · rw [unitsOf_of_lt hbasic]
    exact raw_unitEscape hbasic hr
  · have hvalid : c.toNat < 0xD800 ∨ (0xDFFF < c.toNat ∧ c.toNat < 0x110000) := c.valid
    rw [unitsOf, if_neg hbasic, List.append_assoc]
    exact raw_unitEscape (by omega) (raw_unitEscape (by omega) hr)

theorem joinUnits_cons {n : ℕ} (h : isHighUnit n = false) (ns : List ℕ) :
    joinUnits (n :: ns) = ofUnit n :: joinUnits ns := by
  cases ns with
  | nil => rfl
  | cons m ns => rw [joinUnits, h, Bool.false_and, if_neg (by simp)]

theorem joinUnits_unitsOf (c : Char) (ns : List ℕ) : joinUnits (unitsOf c ++ ns) = c :: joinUnits ns := by
  have hvalid : c.toNat < 0xD800 ∨ (0xDFFF < c.toNat ∧ c.toNat < 0x110000) := c.valid
  rw [unitsOf]
  split
  · have hhigh : isHighUnit c.toNat = false := by simp [isHighUnit]; omega
    have hlow : isLowUnit c.toNat = false := by simp [isLowUnit]; omega
    rw [List.singleton_append, joinUnits_cons hhigh, ofUnit, hhigh, hlow, if_neg (by simp), Char.ofNat_toNat]
  · have hhigh : isHighUnit (0xD800 + (c.toNat - 0x10000) / 0x400) = true := by simp [isHighUnit]; omega
    have hlow : isLowUnit (0xDC00 + (c.toNat - 0x10000) % 0x400) = true := by simp [isLowUnit]; omega
    have hval : 0x10000 + (0xD800 + (c.toNat - 0x10000) / 0x400 - 0xD800) * 0x400 +
        (0xDC00 + (c.toNat - 0x10000) % 0x400 - 0xDC00) = c.toNat := by omega
    rw [List.cons_append, List.singleton_append, joinUnits, hhigh, hlow, Bool.true_and, if_pos rfl, hval,
      Char.ofNat_toNat]

/-- A text is read back from between the quotes it is written in. -/
theorem exists_raw_string (s : List Char) : ∃ ns, Raw (s.flatMap (escapeChar true)) ns ∧ joinUnits ns = s := by
  induction s with
  | nil => exact ⟨[], .nil, rfl⟩
  | cons c s ih =>
    obtain ⟨ns, hr, hs⟩ := ih
    refine ⟨unitsOf c ++ ns, raw_escapeChar c hr, ?_⟩
    rw [joinUnits_unitsOf, hs]

end Json
end MockTree
