import MockTree.Json.Reader
import MockTree.Proofs.Text

/-! Numbers of JSON. Their pieces are read wherever they may end, and nothing else is read as a number. -/
namespace MockTree.Json
open Text Decimal

/-- Letters, digits and signs: what numbers and words are made of. -/
def isAtomChar (c : Char) : Bool := c.isAlphanum || c == '-' || c == '+' || c == '.'

theorem isAtomChar_of_isDigit {c : Char} (h : isDigit c = true) : isAtomChar c = true := by
  have hd : c.isDigit = true := by simpa [isDigit, Char.isDigit, Char.le_def] using h
  simp [isAtomChar, Char.isAlphanum, hd]

/-- A value ends here, and no number goes on. -/
def Closes (r : List Char) : Prop :=
  ∀ c ∈ r.head?, isSpace c = true ∨ c = ',' ∨ c = ']' ∨ c = '\x7d'

/-- No digit comes next. -/
def NoDigit (r : List Char) : Prop := ∀ c ∈ r.head?, isDigit c = false

theorem Closes.noDigit {r : List Char} (h : Closes r) : NoDigit r := by
  intro c hc
  rcases h c hc with h | rfl | rfl | rfl
  · simp only [isSpace, Bool.or_eq_true, beq_iff_eq] at h
    rcases h with ((rfl | rfl) | rfl) | rfl <;> decide
  all_goals decide

theorem Closes.fraction? {r : List Char} (h : Closes r) : fraction? r = none := by
  rw [Json.fraction?.eq_def]
  split
  · exact absurd (h '.' rfl) (by decide)
  · rfl

theorem Closes.exponent? {r : List Char} (h : Closes r) : exponent? r = none := by
  cases r with
  | nil => rfl
  | cons c r =>
    rw [Json.exponent?, if_neg]
    rcases h c rfl with h | rfl | rfl | rfl
    · simp only [isSpace, Bool.or_eq_true, beq_iff_eq] at h
      rcases h with ((rfl | rfl) | rfl) | rfl <;> decide
    all_goals decide

theorem noDigit_nil : NoDigit [] := by
  rintro c ⟨⟩

theorem closes_nil : Closes [] := by
  rintro c ⟨⟩

/-- Digits of a whole number, read wherever no digit follows. -/
structure Whole (ds : List Char) : Prop where
  digits : ∀ c ∈ ds, isDigit c = true
  read : ∀ x, NoDigit x → wholeDigits (ds ++ x) = some (ds, x)

theorem whole_zero : Whole ['0'] := ⟨by simp [isDigit], fun _ _ => rfl⟩

theorem whole_cons {c : Char} {ds : List Char} (h : ∀ d ∈ c :: ds, isDigit d = true) (hne : c ≠ '0') :
    Whole (c :: ds) := by
  refine ⟨h, fun x hx => ?_⟩
  obtain ⟨h1, h2⟩ := run_append (List.forall_mem_cons.1 h).2 hx
  rw [List.cons_append, wholeDigits.eq_2 _ _ fun he => hne he, if_pos (h c (by simp)), h1, h2]

theorem Whole.exists_head {ds : List Char} (h : Whole ds) (x : List Char) :
    ∃ c ∈ (ds ++ x).head?, isDigit c = true := by
  cases ds with
  | nil => cases h.read [] noDigit_nil
  | cons c ds => exact ⟨c, rfl, h.digits c (by simp)⟩

theorem exists_whole {s ds r : List Char} (h : wholeDigits s = some (ds, r)) : s = ds ++ r ∧ Whole ds := by
  rw [wholeDigits.eq_def] at h
  split at h
  · cases h
    exact ⟨rfl, whole_zero⟩
  · next c t hz =>
    split at h
    · next hc =>
      cases h
      refine ⟨by simp, whole_cons (List.forall_mem_cons.2 ⟨hc, fun d hd => List.mem_takeWhile_imp hd⟩) ?_⟩
      exact fun he => hz he
    · cases h
  · cases h

/-- Digits behind a point. -/
structure Fraction (fs : List Char) : Prop where
  nonempty : fs ≠ []
  digits : ∀ c ∈ fs, isDigit c = true

theorem Fraction.read {fs x : List Char} (h : Fraction fs) (hx : NoDigit x) :
    fraction? ('.' :: fs ++ x) = some (fs, x) := by
  obtain ⟨c, fs, rfl⟩ := List.exists_cons_of_ne_nil h.nonempty
  obtain ⟨hc, hfs⟩ := List.forall_mem_cons.1 h.digits
  obtain ⟨h1, h2⟩ := run_append hfs hx
  rw [List.cons_append, List.cons_append, fraction?, if_pos hc, h1, h2]

theorem Fraction.chars {fs : List Char} (h : Fraction fs) : ∀ c ∈ '.' :: fs, isAtomChar c = true :=
  List.forall_mem_cons.2 ⟨by decide, fun c hc => isAtomChar_of_isDigit (h.digits c hc)⟩

theorem exists_fraction {s fs r : List Char} (h : fraction? s = some (fs, r)) :
    s = '.' :: fs ++ r ∧ Fraction fs := by
  rw [fraction?.eq_def] at h
  split at h
  · next c t =>
    split at h
    · next hc =>
      cases h
      exact ⟨by simp, by simp, List.forall_mem_cons.2 ⟨hc, fun d hd => List.mem_takeWhile_imp hd⟩⟩
    · cases h
  · cases h

/-- The text of an exponent, read wherever no digit follows. -/
structure Exponent (w : List Char) (e : Int) : Prop where
  chars : ∀ c ∈ w, isAtomChar c = true
  opens : ∃ c ∈ w.head?, isDigit c = false ∧ c ≠ '.'
  read : ∀ x, NoDigit x → exponent? (w ++ x) = some (e, x)

theorem Exponent.noDigit {w : List Char} {e : Int} (h : Exponent w e) (x : List Char) : NoDigit (w ++ x) := by
  obtain ⟨c, hc, hd, -⟩ := h.opens
  obtain ⟨w, rfl⟩ := List.head?_eq_some_iff.1 hc
  rintro b ⟨⟩
  exact hd

theorem Exponent.fraction? {w : List Char} {e : Int} (h : Exponent w e) (x : List Char) :
    fraction? (w ++ x) = none := by
  obtain ⟨c, hc, -, hdot⟩ := h.opens
  obtain ⟨w, rfl⟩ := List.head?_eq_some_iff.1 hc
  rw [List.cons_append, Json.fraction?.eq_2]
  intro b r he
  exact hdot (List.cons.inj he).1

theorem sign_append {s ds r : List Char} {negative : Bool} (h : Decimal.sign s = (negative, ds ++ r)) :
    ∃ sign, s = sign ++ (ds ++ r) ∧ (∀ c ∈ sign, isAtomChar c = true) ∧
      ((∃ c ∈ ds.head?, isDigit c = true) → ∀ x, Decimal.sign (sign ++ (ds ++ x)) = (negative, ds ++ x)) := by
  rw [Decimal.sign.eq_def] at h
  split at h
  · cases h
    exact ⟨['-'], rfl, by simp; decide, fun _ x => rfl⟩
  · cases h
    exact ⟨['+'], rfl, by simp; decide, fun _ x => rfl⟩
  · cases h
    refine ⟨[], rfl, by simp, ?_⟩
    rintro ⟨c, hc, hd⟩ x
    cases ds with
    | nil => cases hc
    | cons d ds =>
      cases hc
      rw [List.nil_append, List.cons_append, Decimal.sign.eq_3]
      · intro _ he
        cases he
        cases hd
      · intro _ he
        cases he
        cases hd

theorem exists_exponent {s r : List Char} {n : Int} (h : exponent? s = some (n, r)) :
    ∃ w, s = w ++ r ∧ Exponent w n := by
  cases s with
  | nil => cases h
  | cons e t =>
    rw [exponent?] at h
    split at h
    · next he =>
      simp only at h
      split at h
      · cases h
      · next hne =>
        simp only [Option.some.injEq, Prod.mk.injEq] at h
        obtain ⟨hn, rfl⟩ := h
        generalize hsign : Decimal.sign t = p at hne hn
        obtain ⟨negative, u⟩ := p
        simp only at hne hn
        have hd : ∀ d ∈ u.takeWhile isDigit, isDigit d = true := fun d hd => List.mem_takeWhile_imp hd
        rw [← List.takeWhile_append_dropWhile (p := isDigit) (l := u)] at hsign
        obtain ⟨sign, ht, hs, happ⟩ := sign_append hsign
        have hhead : ∃ c ∈ (u.takeWhile isDigit).head?, isDigit c = true := by
          cases hu : u.takeWhile isDigit with
          | nil => simp [hu] at hne
          | cons c r => exact ⟨c, rfl, hd c (by simp [hu])⟩
        refine ⟨e :: sign ++ u.takeWhile isDigit, by simp [ht], ?_, ⟨e, rfl, ?_⟩, ?_⟩
        · intro c hc
          simp only [List.cons_append, List.mem_cons, List.mem_append] at hc
          rcases hc with rfl | hc | hc
          · simp only [Bool.or_eq_true, beq_iff_eq] at he
            rcases he with rfl | rfl <;> decide
          · exact hs c hc
          · exact isAtomChar_of_isDigit (hd c hc)
        · simp only [Bool.or_eq_true, beq_iff_eq] at he
          rcases he with rfl | rfl <;> decide
        · intro x hx
          obtain ⟨h1, h2⟩ := run_append hd hx
          have hsx : Decimal.sign (sign ++ u.takeWhile isDigit ++ x) = (negative, u.takeWhile isDigit ++ x) := by
            rw [List.append_assoc, happ hhead]
          rw [List.cons_append, List.cons_append, exponent?, if_pos he]
          simp only [hsx, h1, h2, hne, Bool.false_eq_true, if_false, hn]
    · cases h

section
variable {ds : List Char} (h : Whole ds) (negative : Bool)
include h

theorem Whole.chars : ∀ c ∈ ds, isAtomChar c = true := fun c hc => isAtomChar_of_isDigit (h.digits c hc)

theorem Whole.readNumber (hlen : ds.length ≤ maxDigits) {x : List Char} (hx : Closes x) :
    readNumber negative (ds ++ x) = some (.int (if negative then -(natOf ds : Int) else natOf ds), x) := by
  rw [Json.readNumber, h.read x hx.noDigit]
  simp only [Option.bind_eq_bind, Option.bind_some, hx.fraction?, hx.exponent?, if_pos hlen]
  rfl

theorem Whole.readNumber_exponent {w : List Char} {e : Int} (hw : Exponent w e) {x : List Char}
    (hx : NoDigit x) :
    Json.readNumber negative (ds ++ (w ++ x)) = some (.real (scaled negative ds e), x) := by
  rw [Json.readNumber, h.read _ (hw.noDigit x)]
  simp only [Option.bind_eq_bind, Option.bind_some, hw.fraction? x, hw.read x hx]
  rfl

section
variable {fs : List Char} (hfs : Fraction fs)
include hfs

theorem Whole.readNumber_point {x : List Char} (hx : Closes x) :
    Json.readNumber negative (ds ++ ('.' :: fs ++ x)) =
      some (.real (scaled negative (ds ++ fs) (-fs.length)), x) := by
  rw [Json.readNumber, h.read _ (by rintro b ⟨⟩; rfl)]
  simp only [Option.bind_eq_bind, Option.bind_some, hfs.read hx.noDigit, hx.exponent?]
  rfl

theorem Whole.readNumber_point_exponent {w : List Char} {e : Int} (hw : Exponent w e) {x : List Char}
    (hx : NoDigit x) :
    Json.readNumber negative (ds ++ ('.' :: fs ++ (w ++ x))) =
      some (.real (scaled negative (ds ++ fs) (e - fs.length)), x) := by
  rw [Json.readNumber, h.read _ (by rintro b ⟨⟩; rfl)]
  simp only [Option.bind_eq_bind, Option.bind_some, hfs.read (hw.noDigit x), hw.read x hx]
  rfl

end
end

/-- What is read as a number is one wherever it may end. -/
theorem readNumber_cases {negative : Bool} {s r : List Char} {v : Value}
    (h : readNumber negative s = some (v, r)) :
    ∃ w, s = w ++ r ∧ (∀ c ∈ w, isAtomChar c = true) ∧ (∃ c ∈ w.head?, isDigit c = true) ∧
      ∀ x, Closes x → readNumber negative (w ++ x) = some (v, x) := by
  rw [readNumber, Option.bind_eq_bind, Option.bind_eq_some_iff] at h
  obtain ⟨⟨ds, t⟩, hds, h⟩ := h
  obtain ⟨rfl, hw⟩ := exists_whole hds
  simp only at h
  cases hf : fraction? t with
  | some p =>
    obtain ⟨fs, u⟩ := p
    obtain ⟨rfl, hfs⟩ := exists_fraction hf
    rw [hf] at h
    cases he : exponent? u with
    | some p =>
      obtain ⟨e, r'⟩ := p
      obtain ⟨w, rfl, hexp⟩ := exists_exponent he
      simp only [he] at h
      cases h
      refine ⟨ds ++ ('.' :: fs ++ w), by simp, List.forall_mem_append.2 ⟨hw.chars,
        List.forall_mem_append.2 ⟨hfs.chars, hexp.chars⟩⟩, hw.exists_head _, fun x hx => ?_⟩
      rw [List.append_assoc, List.append_assoc]
      exact hw.readNumber_point_exponent negative hfs hexp hx.noDigit
    | none =>
      simp only [he] at h
      cases h
      refine ⟨ds ++ '.' :: fs, by simp, List.forall_mem_append.2 ⟨hw.chars, hfs.chars⟩, hw.exists_head _,
        fun x hx => ?_⟩
      rw [List.append_assoc]
      exact hw.readNumber_point negative hfs hx
  | none =>
    rw [hf] at h
    cases he : exponent? t with
    | some p =>
      obtain ⟨e, r'⟩ := p
      obtain ⟨w, rfl, hexp⟩ := exists_exponent he
      simp only [he] at h
      cases h
      refine ⟨ds ++ w, by simp, List.forall_mem_append.2 ⟨hw.chars, hexp.chars⟩, hw.exists_head _,
        fun x hx => ?_⟩
      rw [List.append_assoc]
      exact hw.readNumber_exponent negative hexp hx.noDigit
    | none =>
      simp only [he] at h
      split at h
      · next hlen =>
        cases h
        exact ⟨ds, rfl, hw.chars, by simpa using hw.exists_head [], fun x hx => hw.readNumber negative hlen hx⟩
      · cases h

end MockTree.Json
