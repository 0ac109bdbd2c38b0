import Mathlib.Data.List.TakeWhile
import MockTree.Proofs.Head

/-! What a status line shows. Its status is the three digits behind the earliest run of blanks that follows
a version, and a line is faulty just when it shows none. -/
namespace MockTree.Definition
open Text

/-- A protocol in letters of either case, and the first digit of its version. -/
def IsVersion (v : List Char) : Prop :=
  ∃ w d, v = w ++ [d] ∧ w.map Pattern.foldAscii = "http/".toList ∧ isDecimal d = true

/-- A run of blanks behind the start of a text, and three digits directly after it. -/
def Coded (s before : List Char) (code : Nat) : Prop :=
  ∃ blanks x y z after a b c, s = before ++ (blanks ++ x :: y :: z :: after) ∧ blanks ≠ [] ∧
    (∀ e ∈ blanks, isBlank e = true) ∧ decimalValue? x = some a ∧ decimalValue? y = some b ∧
    decimalValue? z = some c ∧ code = a * 100 + b * 10 + c

/-- A status that a line shows: a code behind the start of the line, and a version in that start. -/
def Shows (line before : List Char) (code : Nat) : Prop :=
  Coded line before code ∧ ∃ left version right, before = left ++ version ++ right ∧ IsVersion version

/-- The status of a line is the one that it shows first. -/
def ShowsFirst (line : List Char) (code : Nat) : Prop :=
  ∃ before, Shows line before code ∧ ∀ before' code', Shows line before' code' → before.length ≤ before'.length

theorem decimalValue?_of_blank {c : Char} (h : isBlank c = true) : decimalValue? c = none := by
  have hz : ∀ z ∈ decimalZeros,
      0xa0 < z ∧ (z + 10 ≤ 0x1680 ∨ 0x1680 < z) ∧ (z + 10 ≤ 0x2000 ∨ 0x3000 < z) := by decide
  simp only [isBlank, Bool.or_eq_true, Bool.and_eq_true, decide_eq_true_eq, beq_iff_eq] at h
  have hval : c.val.toNat = c.toNat := rfl
  rw [decimalValue?]
  split
  · rw [if_neg]
    simp only [Char.isDigit, Bool.and_eq_true, decide_eq_true_eq, UInt32.le_iff_toNat_le, hval]
    rintro ⟨h1, h2⟩
    have h0 : '0'.val.toNat = 48 := rfl
    have h9 : '9'.val.toNat = 57 := rfl
    omega
  · rw [Option.map_eq_none_iff, List.find?_eq_none]
    intro z hmem
    have := hz z hmem
    simp only [Bool.and_eq_true, decide_eq_true_eq]
    omega

theorem isBlank_of_decimalValue? {c : Char} {n : Nat} (h : decimalValue? c = some n) : isBlank c = false := by
  rw [← Bool.not_eq_true]
  intro hb
  rw [decimalValue?_of_blank hb] at h
  cases h

theorem threeDigits?_eq_some {s : List Char} {n : Nat} (h : threeDigits? s = some n) :
    ∃ x y z after a b c, s = x :: y :: z :: after ∧ decimalValue? x = some a ∧
      decimalValue? y = some b ∧ decimalValue? z = some c ∧ n = a * 100 + b * 10 + c := by
  rw [threeDigits?.eq_def] at h
  split at h
  · next x y z after =>
    obtain ⟨a, ha, h⟩ := Option.bind_eq_some_iff.1 h
    obtain ⟨b, hb, h⟩ := Option.bind_eq_some_iff.1 h
    obtain ⟨c, hc, h⟩ := Option.bind_eq_some_iff.1 h
    exact ⟨x, y, z, after, a, b, c, rfl, ha, hb, hc, (Option.some.inj h).symm⟩
  · cases h

/-- A code at the very start of a text is read behind the blanks there. -/
theorem coded_nil_iff {c : Char} {r : List Char} {n : Nat} :
    Coded (c :: r) [] n ↔ isBlank c = true ∧ threeDigits? (r.dropWhile isBlank) = some n := by
  constructor
  · rintro ⟨blanks, x, y, z, after, a, b, e, hs, hne, hb, hx, hy, hz, rfl⟩
    obtain ⟨d, bs, rfl⟩ := List.exists_cons_of_ne_nil hne
    obtain ⟨rfl, rfl⟩ := List.cons.inj hs
    refine ⟨hb _ (by simp), ?_⟩
    change threeDigits? ((bs ++ x :: y :: z :: after).dropWhile isBlank) = _
    rw [List.dropWhile_append_of_pos fun d hd => hb d (by simp [hd]),
      List.dropWhile_cons_of_neg (by simp [isBlank_of_decimalValue? hx])]
    simp [threeDigits?, hx, hy, hz]
  · rintro ⟨hb, hd⟩
    obtain ⟨x, y, z, after, a, b, e, hs, hx, hy, hz, rfl⟩ := threeDigits?_eq_some hd
    refine ⟨c :: r.takeWhile isBlank, x, y, z, after, a, b, e, ?_, by simp, ?_, hx, hy, hz, rfl⟩
    · rw [← hs, List.nil_append, List.cons_append, List.takeWhile_append_dropWhile]
    · intro d hd
      rcases List.mem_cons.1 hd with rfl | hd
      · exact hb
      · exact List.mem_takeWhile_imp hd

theorem coded_append_iff {front s before : List Char} {n : Nat} :
    Coded (front ++ s) (front ++ before) n ↔ Coded s before n := by
  simp only [Coded, List.append_assoc, List.append_cancel_left_eq]

theorem Coded.cons (c : Char) {r before : List Char} {n : Nat} (h : Coded r before n) :
    Coded (c :: r) (c :: before) n :=
  show Coded ([c] ++ r) ([c] ++ before) n from coded_append_iff.2 h

/-- A code further on is one of the rest. -/
theorem Coded.exists_cons {c : Char} {r before : List Char} {n : Nat} (h : Coded (c :: r) before n)
    (hne : before ≠ []) : ∃ rest, before = c :: rest ∧ Coded r rest n := by
  obtain ⟨d, rest, rfl⟩ := List.exists_cons_of_ne_nil hne
  obtain ⟨blanks, x, y, z, after, a, b, e, hs, h⟩ := h
  obtain ⟨rfl, hr⟩ := List.cons.inj hs
  exact ⟨rest, rfl, blanks, x, y, z, after, a, b, e, hr, h⟩

/-- What is read behind blanks is the code that comes first. -/
theorem codeAfterBlank?_cases (s : List Char) :
    (codeAfterBlank? s = none ∧ ∀ before n, ¬ Coded s before n) ∨
    ∃ before n, codeAfterBlank? s = some n ∧ Coded s before n ∧
      ∀ before' n', Coded s before' n' → before.length ≤ before'.length := by
  induction s with
  | nil => exact .inl ⟨rfl, by simp [Coded]⟩
  | cons c r ih =>
    by_cases hfirst : ∃ n, Coded (c :: r) [] n
    · obtain ⟨n, hn⟩ := hfirst
      obtain ⟨hb, hd⟩ := coded_nil_iff.1 hn
      exact .inr ⟨[], n, by simp [codeAfterBlank?, hb, hd], hn, by simp⟩
    · have hnext : codeAfterBlank? (c :: r) = codeAfterBlank? r := by
        rw [codeAfterBlank?]
        split
        · next hb =>
          have hd : threeDigits? (r.dropWhile isBlank) = none :=
            Option.eq_none_iff_forall_ne_some.2 fun n hd => hfirst ⟨n, coded_nil_iff.2 ⟨hb, hd⟩⟩
          rw [hd, Option.none_or]
        · rfl
      have hback : ∀ before n, Coded (c :: r) before n → ∃ rest, before = c :: rest ∧ Coded r rest n :=
        fun before n h => h.exists_cons fun he => hfirst ⟨n, he ▸ h⟩
      rw [hnext]
      rcases ih with ⟨hn, hno⟩ | ⟨before, n, hn, hc, hmin⟩
      · refine .inl ⟨hn, fun before n h => ?_⟩
        obtain ⟨rest, -, hr⟩ := hback before n h
        exact hno rest n hr
      · refine .inr ⟨c :: before, n, hn, hc.cons c, fun before' n' h => ?_⟩
        obtain ⟨rest, rfl, hr⟩ := hback before' n' h
        simpa using hmin rest n' hr

theorem afterWord?_eq_some {w s r : List Char} :
    afterWord? w s = some r ↔ ∃ p, s = p ++ r ∧ p.map Pattern.foldAscii = w := by
  induction w generalizing s with
  | nil => simp [afterWord?, eq_comm]
  | cons c w ih =>
    cases s with
    | nil => simp [afterWord?]
    | cons d s =>
      rw [afterWord?]
      split
      · next hd =>
        rw [ih]
        constructor
        · rintro ⟨p, rfl, rfl⟩
          exact ⟨d :: p, rfl, by rw [List.map_cons, eq_of_beq hd]⟩
        · rintro ⟨p, hs, hp⟩
          obtain ⟨e, p, rfl⟩ := List.exists_cons_of_ne_nil (show p ≠ [] by rintro rfl; cases hp)
          obtain ⟨-, rfl⟩ := List.cons.inj hs
          exact ⟨p, rfl, (List.cons.inj hp).2⟩
      · next hd =>
        refine iff_of_false (by simp) ?_
        rintro ⟨p, hs, hp⟩
        obtain ⟨e, p, rfl⟩ := List.exists_cons_of_ne_nil (show p ≠ [] by rintro rfl; cases hp)
        obtain ⟨rfl, -⟩ := List.cons.inj hs
        exact hd (by simpa using (List.cons.inj hp).1)

theorem afterVersion?_eq_some {s r : List Char} :
    afterVersion? s = some r ↔ ∃ v, IsVersion v ∧ s = v ++ r := by
  rw [afterVersion?]
  constructor
  · intro h
    split at h
    · next d r' hw =>
      split at h
      · next hd =>
        cases h
        obtain ⟨p, rfl, hp⟩ := afterWord?_eq_some.1 hw
        exact ⟨p ++ [d], ⟨p, d, rfl, hp, hd⟩, by simp⟩
      · cases h
    · cases h
  · rintro ⟨v, ⟨w, d, rfl, hw, hd⟩, rfl⟩
    have hs : afterWord? "http/".toList (w ++ [d] ++ r) = some (d :: r) :=
      afterWord?_eq_some.2 ⟨w, by simp, hw⟩
    rw [hs]
    simp [hd]

theorem IsVersion.length {v : List Char} (h : IsVersion v) : v.length = 6 := by
  obtain ⟨w, d, rfl, hw, -⟩ := h
  have := congrArg List.length hw
  simpa using this

/-- A status shown by a line that opens with a version is a code behind that version. -/
theorem Shows.coded_rest {version rest before : List Char} {n : Nat} (hv : IsVersion version)
    (h : Shows (version ++ rest) before n) : ∃ more, before = version ++ more ∧ Coded rest more n := by
  obtain ⟨hc, left, v, right, hb, hv'⟩ := h
  have hlen : version.length ≤ before.length := by
    rw [hv.length, hb]
    simp only [List.length_append, hv'.length]
    omega
  obtain ⟨blanks, x, y, z, after, a, b, c, hs, hrest⟩ := hc
  have hp : version <+: before := by
    have hbefore : before <+: version ++ rest := by
      rw [hs]
      exact List.prefix_append _ _
    exact List.prefix_of_prefix_length_le (List.prefix_append _ _) hbefore hlen
  obtain ⟨more, rfl⟩ := hp
  rw [List.append_assoc, List.append_cancel_left_eq] at hs
  exact ⟨more, rfl, blanks, x, y, z, after, a, b, c, hs, hrest⟩

/-- The status of a line is the one that it shows first, and a line without one shows none. -/
theorem statusCode?_cases (line : List Char) :
    (statusCode? line = none ∧ ∀ before n, ¬ Shows line before n) ∨
    ∃ n, statusCode? line = some n ∧ ShowsFirst line n := by
  induction line with
  | nil => exact .inl ⟨rfl, by simp [Shows, Coded]⟩
  | cons c r ih =>
    have hcons : ∀ {before n}, Shows r before n → Shows (c :: r) (c :: before) n := by
      rintro before n ⟨hc, left, v, right, rfl, hv⟩
      exact ⟨hc.cons c, c :: left, v, right, rfl, hv⟩
    rw [statusCode?]
    cases hver : afterVersion? (c :: r) with
    | some rest =>
      obtain ⟨v, hv, hs⟩ := afterVersion?_eq_some.1 hver
      rw [hs] at hcons ⊢
      rcases codeAfterBlank?_cases rest with ⟨hn, hno⟩ | ⟨before, n, hn, hc, hmin⟩
      · have hnone : ∀ before n, ¬ Shows (v ++ rest) before n := by
          intro before n h
          obtain ⟨more, -, hc⟩ := h.coded_rest hv
          exact hno more n hc
        rcases ih with ⟨hr, -⟩ | ⟨n, -, before, h, -⟩
        · exact .inl ⟨by simp [hn, hr], hnone⟩
        · exact absurd (hcons h) (hnone _ _)
      · refine .inr ⟨n, by simp [hn], v ++ before, ⟨coded_append_iff.2 hc, [], v, before, by simp, hv⟩, ?_⟩
        intro before' n' h
        obtain ⟨more, rfl, hc'⟩ := h.coded_rest hv
        simpa using hmin more n' hc'
    | none =>
      have hback : ∀ {before n}, Shows (c :: r) before n → ∃ rest, before = c :: rest ∧ Shows r rest n := by
        rintro before n ⟨hc, left, v, right, rfl, hv⟩
        cases left with
        | nil =>
          obtain ⟨blanks, x, y, z, after, a, b, e, hs, -⟩ := hc
          rw [List.nil_append, List.append_assoc] at hs
          rw [afterVersion?_eq_some.2 ⟨v, hv, hs⟩] at hver
          cases hver
        | cons d left =>
          obtain ⟨rest, he, hr⟩ := hc.exists_cons (by simp)
          obtain ⟨rfl, rfl⟩ := List.cons.inj he
          exact ⟨_, rfl, hr, left, v, right, rfl, hv⟩
      rcases ih with ⟨hr, hno⟩ | ⟨n, hn, before, h, hmin⟩
      · refine .inl ⟨hr, fun before n h => ?_⟩
        obtain ⟨rest, -, h'⟩ := hback h
        exact hno rest n h'
      · refine .inr ⟨n, hn, c :: before, hcons h, fun before' n' h' => ?_⟩
        obtain ⟨rest, rfl, hr⟩ := hback h'
        simpa using hmin rest n' hr

end MockTree.Definition
