import MockTree.Proofs.Directives
import MockTree.Proofs.Literals

/-! Random numbers between bounds. A bound without a point is taken for what it is, and one with a point for the
whole part of the nearest double. So the numbers keep between the bounds unless rounding moves a whole part. -/
namespace MockTree

namespace Decimal.Literal

/-- The whole number that a literal is taken for as a bound. -/
def taken (l : Literal) : ℤ :=
  if l.fraction.isNone then l.cut else l.nearest.truncate?.getD 0

/-- So few digits that the whole part outlives rounding, or no point at all. -/
def IsShort (l : Literal) : Prop := l.fraction = none ∨ l.digits.length ≤ 15

theorem taken_of_isShort {l : Literal} (h : l.IsShort) : l.taken = l.cut := by
  unfold taken
  rcases h with hf | hlen
  · rw [hf, Option.isNone_none, if_pos rfl]
  · rw [truncate?_nearest_of_short hlen, Option.getD_some, ite_self]

/-- A literal of no more than three hundred digits is read as a finite double. -/
theorem exists_truncate?_nearest {l : Literal} (h : l.digits.length ≤ 300) :
    ∃ n, l.nearest.truncate? = some n := by
  have hlt : l.size < 2 ^ ((10 * 100 : ℕ) : ℤ) := size_lt_two_pow h
  obtain ⟨m, e, hm, -⟩ := exists_nearest_near hlt (by norm_num)
  rw [hm, Double.truncate?, Double.ratio?]
  simp only
  split
  · exact ⟨_, rfl⟩
  · exact ⟨_, rfl⟩

end Decimal.Literal

namespace Directive
open Text Decimal

/-- A datum that is written as a literal, with blanks around it or none. -/
def IsLiteral (d : Datum) (l : Literal) : Prop := trim d.plain = l.text

instance (d : Datum) (l : Literal) : Decidable (IsLiteral d l) := inferInstanceAs (Decidable (_ = _))

/-- A datum that is no number: null, a boolean, or what neither a whole number nor a finite decimal is written as. -/
def IsNoNumber (d : Datum) : Prop :=
  d = .value .null ∨ (∃ b, d = .value (.bool b)) ∨
    (readInt? (trim d.plain) = none ∧ ∀ x, read? (trim d.plain) = some x → x.isFinite = false)

/-- A text without a digit is no number. -/
theorem isNoNumber_of_no_digit {d : Datum} (h : ∀ c ∈ trim d.plain, (plainDigit c).isDigit = false) :
    IsNoNumber d := by
  have hnone (hdigit : ∃ c ∈ trim d.plain, (plainDigit c).isDigit = true) : False := by
    obtain ⟨c, hc, hd⟩ := hdigit
    rw [h c hc] at hd
    cases hd
  right
  right
  constructor
  · rw [Option.eq_none_iff_forall_ne_some]
    exact fun n hn => hnone (exists_digit_of_readInt? hn)
  · intro x hx
    rw [← Bool.not_eq_true]
    exact fun hfinite => hnone (exists_digit_of_read? hx hfinite)

theorem bound?_eq {d : Datum} (hnull : d ≠ .value .null) (hbool : ∀ b, d ≠ .value (.bool b)) :
    bound? d = (readInt? (trim d.plain)).or ((read? (trim d.plain)).bind Double.truncate?) := by
  unfold bound? wholeNumber?
  split
  · exact absurd rfl hnull
  · exact absurd rfl (hbool _)
  · split
    · exact absurd rfl hnull
    · exact absurd rfl (hbool _)
    · rfl

theorem not_isLiteral {d : Datum} {c : Char} {s : List Char} (h : trim d.plain = c :: s)
    (hd : c.isDigit = false) (hc : c ∉ ['+', '-', '.']) (l : Literal) : ¬ IsLiteral d l := by
  intro hl
  have hmem : c ∈ l.text := by
    rw [← hl, h]
    exact List.mem_cons_self
  rcases Literal.mem_text hmem with he | he
  · rw [hd] at he
    cases he
  · exact hc he

/-- A bound that is written as a literal is found, and cut to a whole number. -/
theorem bound?_of_isLiteral {d : Datum} {l : Literal} (h : IsLiteral d l) (hlen : l.digits.length ≤ 300) :
    bound? d = some l.taken := by
  have hnull : d ≠ .value .null := by
    rintro rfl
    exact not_isLiteral (c := 'N') rfl rfl (by decide) l h
  have hbool (b : Bool) : d ≠ .value (.bool b) := by
    rintro rfl
    cases b
    · exact not_isLiteral (c := 'F') rfl rfl (by decide) l h
    · exact not_isLiteral (c := 'T') rfl rfl (by decide) l h
  rw [bound?_eq hnull hbool, h]
  cases hf : l.fraction with
  | none =>
    have hwhole : l.whole.length ≤ maxDigits := by
      rw [Literal.digits, List.length_append] at hlen
      unfold maxDigits
      omega
    rw [Literal.readInt?_text hf hwhole, Option.some_or, Literal.taken, hf, Option.isNone_none, if_pos rfl]
  | some fs =>
    obtain ⟨n, hn⟩ := Literal.exists_truncate?_nearest hlen
    rw [Literal.readInt?_text_eq_none hf, Option.none_or, Literal.read?_text, Option.bind_some, hn,
      Literal.taken, hf, hn]
    rfl

theorem bound?_of_isNoNumber {d : Datum} (h : IsNoNumber d) : bound? d = none := by
  by_cases hnull : d = .value .null
  · rw [hnull]
    rfl
  by_cases hbool : ∃ b, d = .value (.bool b)
  · obtain ⟨b, rfl⟩ := hbool
    rfl
  · obtain ⟨hint, hreal⟩ := (h.resolve_left hnull).resolve_left hbool
    rw [bound?_eq hnull (not_exists.1 hbool), hint, Option.none_or, Option.bind_eq_none_iff]
    intro x hx
    have hinf := hreal x hx
    cases x with
    | nan => rfl
    | infinite => rfl
    | finite => cases hinf

/-! ### Numbers that are drawn -/

/-- The numbers between two bounds, both included; only zero if they are the wrong way round. -/
def between (a b : ℤ) : Set Datum :=
  {d | ∃ r, d = .value (.int r) ∧ if a ≤ b then a ≤ r ∧ r ≤ b else r = 0}

theorem mem_between_of_le {a b r : ℤ} (h : a ≤ b) : .value (.int r) ∈ between a b ↔ a ≤ r ∧ r ≤ b := by
  simp [between, h]

theorem mem_between_of_lt {a b r : ℤ} (h : b < a) : .value (.int r) ∈ between a b ↔ r = 0 := by
  simp [between, h]

theorem randomNumber_runAt {s : Setting} {call : Call} {a b : ℤ}
    (ha : bound? (rangeSignature.get "lower" call.named) = some a)
    (hb : bound? (rangeSignature.get "upper" call.named) = some b) (n : ℕ) :
    (randomNumber s call).runAt n =
      if b < a then (.ok (.value (.int 0)), n)
      else (.ok (.value (.int (a + s.draws n % (b - a + 1)))), n + 1) := by
  unfold randomNumber
  simp only [ha, hb]
  split
  · rfl
  · rw [Render.runAt_bind_ok (Render.runAt_draw s n)]
    rfl

theorem randomNumber_runAt_of_none {s : Setting} {call : Call}
    (h : bound? (rangeSignature.get "lower" call.named) = none ∨
      bound? (rangeSignature.get "upper" call.named) = none) (n : ℕ) :
    (randomNumber s call).runAt n = (.ok (.value (.int 0)), n) := by
  unfold randomNumber
  rcases h with h | h
  · simp only [h]
    rfl
  · simp only [h]
    cases bound? (rangeSignature.get "lower" call.named) <;> rfl

/-- A draw picks a number between the bounds, and every number is picked by its distance from the lower one. -/
theorem givesExactly_between {s : Setting} {call : Call} {a b : ℤ}
    (ha : bound? (rangeSignature.get "lower" call.named) = some a)
    (hb : bound? (rangeSignature.get "upper" call.named) = some b) :
    GivesExactly randomNumber s call (between a b) := by
  by_cases hlt : b < a
  · constructor
    · intro draws n
      refine ⟨.value (.int 0), (mem_between_of_lt hlt).2 rfl, n, ?_⟩
      rw [randomNumber_runAt ha hb, if_pos hlt]
    · rintro _ ⟨r, rfl, hr⟩ n
      rw [if_neg (not_le.2 hlt)] at hr
      refine ⟨s.draws, n, ?_⟩
      rw [hr, randomNumber_runAt ha hb, if_pos hlt]
  · constructor
    · intro draws n
      have hlow := Int.emod_nonneg (draws n) (show b - a + 1 ≠ 0 by omega)
      have hhigh := Int.emod_lt_of_pos (draws n) (show 0 < b - a + 1 by omega)
      refine ⟨.value (.int (a + draws n % (b - a + 1))), ?_, n + 1, ?_⟩
      · rw [mem_between_of_le (not_lt.1 hlt)]
        omega
      · rw [randomNumber_runAt ha hb, if_neg hlt]
    · rintro _ ⟨r, rfl, hr⟩ n
      rw [if_pos (not_lt.1 hlt)] at hr
      refine ⟨fun _ => (r - a).toNat, n + 1, ?_⟩
      rw [randomNumber_runAt ha hb, if_neg hlt, Int.toNat_of_nonneg (by omega),
        Int.emod_eq_of_lt (by omega) (by omega), add_sub_cancel]

/-! ### The bounds as they are written -/

/-- For bounds written as decimals of no more than three hundred digits, the numbers given are those between the
bounds cut toward zero, just when these are also the numbers between what the bounds are taken for; and always, if
each bound has no point or no more than fifteen digits. A bound that is no number gives zero. -/
theorem randomNumber_between_iff (s : Setting) (call : Call) :
    (∀ l u : Literal,
      IsLiteral (rangeSignature.get "lower" call.named) l → IsLiteral (rangeSignature.get "upper" call.named) u →
      l.digits.length ≤ 300 → u.digits.length ≤ 300 →
      (GivesExactly randomNumber s call (between l.cut u.cut) ↔
        between l.cut u.cut = between l.taken u.taken) ∧
      (l.IsShort → u.IsShort → GivesExactly randomNumber s call (between l.cut u.cut))) ∧
    (IsNoNumber (rangeSignature.get "lower" call.named) ∨ IsNoNumber (rangeSignature.get "upper" call.named) →
      ∀ n, (randomNumber s call).runAt n = (.ok (.value (.int 0)), n)) := by
  constructor
  · intro l u hl hu hlen hlen'
    have htaken : GivesExactly randomNumber s call (between l.taken u.taken) :=
      givesExactly_between (bound?_of_isLiteral hl hlen) (bound?_of_isLiteral hu hlen')
    constructor
    · constructor
      · intro hcut
        exact hcut.unique htaken
      · intro heq
        rw [heq]
        exact htaken
    · intro hshort hshort'
      rw [Literal.taken_of_isShort hshort, Literal.taken_of_isShort hshort'] at htaken
      exact htaken
  · intro h n
    apply randomNumber_runAt_of_none
    exact h.imp bound?_of_isNoNumber bound?_of_isNoNumber

/-- Between a decimal below zero and one above it, with blanks around them; and a bound in words. -/
theorem randomNumber_between_signs :
    let s := Setting.still ⟨.empty, .ofString "/"⟩ (.simple "GET" "/")
    let call := Call.given ⟨.null, none, [], []⟩ [("lower", " -1.5"), ("upper", "+2.99 ")]
    GivesExactly randomNumber s call {d | ∃ r : ℤ, d = .value (.int r) ∧ -1 ≤ r ∧ r ≤ 2} ∧
      ∀ n, (randomNumber s (Call.given ⟨.null, none, [], []⟩ [("upper", "2.99"), ("lower", "ten")])).runAt n =
        (.ok (.value (.int 0)), n) := by
  intro s call
  constructor
  · have h := (randomNumber_between_iff s call).1 ⟨.minus, ['1'], some ['5'], by simp, by simp, by simp⟩
      ⟨.plus, ['2'], some ['9', '9'], by simp, by simp, by simp⟩ (by decide) (by decide) (by decide) (by decide)
    have hset := h.2 (.inr (by decide)) (.inr (by decide))
    rw [Literal.cut_eq, Literal.cut_eq] at hset
    exact hset
  · apply (randomNumber_between_iff s _).2
    left
    apply isNoNumber_of_no_digit
    have hall : ("ten".toList.all fun c => !(plainDigit c).isDigit) = true := by decide
    intro c hc
    simpa using List.all_eq_true.1 hall c hc

/-- A whole number of more bits than a double has, with a point: one less is drawn. -/
theorem randomNumber_not_between :
    let s := Setting.still ⟨.empty, .ofString "/"⟩ (.simple "GET" "/")
    let call := Call.given ⟨.null, none, [], []⟩
      [("lower", "9007199254740993.0"), ("upper", "9007199254740993.0")]
    ∃ l : Literal, IsLiteral (rangeSignature.get "lower" call.named) l ∧
      IsLiteral (rangeSignature.get "upper" call.named) l ∧ l.digits.length ≤ 300 ∧
      ¬ GivesExactly randomNumber s call (between l.cut l.cut) := by
  intro s call
  refine ⟨{ Literal.ofInt 9007199254740993 with fraction := some ['0'], fraction_digits := by simp },
    by decide, by decide, by decide, ?_⟩
  intro h
  have hlower : bound? (rangeSignature.get "lower" call.named) = some 9007199254740992 := by decide +kernel
  have hupper : bound? (rangeSignature.get "upper" call.named) = some 9007199254740992 := by decide +kernel
  have heq := h.unique (givesExactly_between hlower hupper)
  rw [Literal.cut_eq] at heq
  have hmem : Datum.value (.int 9007199254740992) ∈ between 9007199254740992 9007199254740992 :=
    (mem_between_of_le le_rfl).2 ⟨le_rfl, le_rfl⟩
  rw [← heq, mem_between_of_le le_rfl] at hmem
  revert hmem
  decide

end Directive
end MockTree
