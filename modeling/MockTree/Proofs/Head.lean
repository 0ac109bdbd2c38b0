import MockTree.Definition.Content

/-! The head of a rendered definition line by line: which lines fail it and how, and that it never sets
a delay of less than nothing. -/
namespace MockTree
namespace Definition
open Text

/-- The lines before the first blank one. -/
def headOf (ls : List (List Char)) : List (List Char) := ls.takeWhile fun l => !(trim l).isEmpty

/-- The lines after the first blank one. -/
def bodyOf (ls : List (List Char)) : List (List Char) := (ls.dropWhile fun l => !(trim l).isEmpty).tail

/-- The response that lines of a head describe, one after another. -/
def readLines (r : Response) : List (List Char) → Except Fault Response
  | [] => .ok r
  | l :: ls =>
    match Line.read l with
    | .ok line => readLines (line.apply r) ls
    | .error f => .error f

theorem readHead_eq (r : Response) (ls : List (List Char)) :
    readHead r ls = (readLines r (headOf ls)).map fun r => (r, bodyOf ls) := by
  induction ls generalizing r with
  | nil => rfl
  | cons l ls ih =>
    rw [readHead]
    by_cases hb : (trim l).isEmpty = true
    · simp [headOf, bodyOf, hb, readLines, Except.map]
    · have hh : headOf (l :: ls) = l :: headOf ls := by simp [headOf, hb]
      have ht : bodyOf (l :: ls) = bodyOf ls := by simp [bodyOf, hb]
      rw [if_neg hb, hh, ht, readLines]
      cases Line.read l with
      | error f => rfl
      | ok line => exact ih _

/-- The body of a rendered definition, as it is looked at. -/
def bodyText (rendered : List Char) : List Char := normalize (bodyOf (lines rendered)).flatten

theorem split_eq (rendered : List Char) :
    split rendered =
      (readLines .empty (headOf (lines rendered))).map fun r => (r, bodyText rendered) := by
  rw [split, readHead_eq]
  cases readLines .empty (headOf (lines rendered)) <;> rfl

/-- A status line without a status. -/
def LacksStatus (l : List Char) : Prop := startsWith "HTTP".toList l = true ∧ statusCode? l = none

/-- A line that sets a delay without end. -/
def Endless (l : List Char) : Prop :=
  startsWith "HTTP".toList l = false ∧
  ∃ name value negative, cut? ':' l = some (name, value) ∧ trim name = delayName ∧
    Decimal.read? (trim value) = some (.infinite negative)

theorem truncate?_eq_none {x : Double} :
    x.truncate? = none ↔ x = .nan ∨ ∃ negative, x = .infinite negative := by
  cases x with
  | nan => simp [Double.truncate?, Double.ratio?]
  | infinite negative => simp [Double.truncate?, Double.ratio?]
  | finite negative mantissa exponent =>
    simp only [Double.truncate?, Double.ratio?]
    split <;> simp

theorem truncate?_finite (negative : Bool) (mantissa : Nat) (exponent : Int) :
    ∃ n, (Double.finite negative mantissa exponent).truncate? = some n :=
  Option.ne_none_iff_exists'.1 fun h => by simpa using truncate?_eq_none.1 h

/-- A delay is a number of milliseconds, unless it has no end. -/
theorem readDelay_cases (s : List Char) :
    (∃ n, readDelay s = .ok n ∧ 0 ≤ n ∧ ∀ b, Decimal.read? s ≠ some (.infinite b)) ∨
    (readDelay s = .error .overflow ∧ ∃ b, Decimal.read? s = some (.infinite b)) := by
  rw [readDelay]
  cases hd : Decimal.read? s with
  | none => exact .inl ⟨0, rfl, Int.le_refl 0, by simp⟩
  | some x =>
    cases x with
    | nan => exact .inl ⟨0, rfl, Int.le_refl 0, by simp⟩
    | infinite b => exact .inr ⟨rfl, b, rfl⟩
    | finite b m e =>
      obtain ⟨n, hn⟩ := truncate?_finite b m e
      exact .inl ⟨max n 0, by simp [hn], Int.le_max_right _ _, by simp⟩

/-- Everything that can come of a line. -/
theorem Line.read_cases (l : List Char) :
    (∃ line, Line.read l = .ok line ∧ (∀ n, line = .delay n → 0 ≤ n) ∧ ¬ LacksStatus l ∧ ¬ Endless l) ∨
    (Line.read l = .error (.failure ⟨.statusLine (String.ofList l), none⟩) ∧ LacksStatus l ∧
      ¬ Endless l) ∨
    (Line.read l = .error .overflow ∧ Endless l ∧ ¬ LacksStatus l) := by
  rw [Line.read]
  by_cases hs : startsWith "HTTP".toList l = true
  · have he : ¬ Endless l := fun h => by rw [h.1] at hs; cases hs
    rw [if_pos hs]
    cases hc : statusCode? l with
    | none => exact .inr (.inl ⟨rfl, ⟨hs, hc⟩, he⟩)
    | some code => exact .inl ⟨.status code, rfl, by simp, by simp [LacksStatus, hc], he⟩
  · have hl : ¬ LacksStatus l := fun h => hs h.1
    rw [if_neg hs]
    cases hc : cut? ':' l with
    | none => exact .inl ⟨.nothing, rfl, by simp, hl, by simp [Endless, hc]⟩
    | some p =>
      obtain ⟨name, value⟩ := p
      simp only
      by_cases hn : trim name = delayName
      · rw [if_pos (by simpa using hn)]
        rcases readDelay_cases (trim value) with ⟨n, hd, h0, hb⟩ | ⟨hd, b, hb⟩
        · exact .inl ⟨.delay n, by simp [hd, Except.map], by simpa using h0, hl,
            by simp [Endless, hc, hb]⟩
        · exact .inr (.inr ⟨by simp [hd, Except.map],
            ⟨by simpa using hs, name, value, b, hc, hn, hb⟩, hl⟩)
      · rw [if_neg (by simpa using hn)]
        exact .inl ⟨_, rfl, by simp, hl, by simp [Endless, hc, hn]⟩

/-- The first of the lines that fails sets a delay without end. -/
def Stalls (ls : List (List Char)) : Prop :=
  ∃ before l after, ls = before ++ l :: after ∧ Endless l ∧ ∀ x ∈ before, ¬ LacksStatus x

theorem stalls_cons {l : List Char} {ls : List (List Char)} :
    Stalls (l :: ls) ↔ Endless l ∨ (¬ LacksStatus l ∧ Stalls ls) := by
  constructor
  · rintro ⟨before, x, after, h, hx, hb⟩
    cases before with
    | nil => cases h; exact .inl hx
    | cons b before =>
      cases h
      exact .inr ⟨hb _ (by simp), before, x, after, rfl, hx, fun y hy => hb y (by simp [hy])⟩
  · rintro (h | ⟨hl, before, x, after, rfl, hx, hb⟩)
    · exact ⟨[], l, ls, rfl, h, by simp⟩
    · exact ⟨l :: before, x, after, rfl, hx, by simpa [hl] using hb⟩

theorem Line.apply_delay {line : Line} (h : ∀ n, line = .delay n → 0 ≤ n) {r : Response}
    (hr : 0 ≤ r.delay) : 0 ≤ (line.apply r).delay := by
  cases line with
  | delay n => exact h n rfl
  | status code => exact hr
  | header name value => exact hr
  | nothing => exact hr

/-- Everything that can come of the lines of a head. -/
theorem readLines_cases {r : Response} (hr : 0 ≤ r.delay) (ls : List (List Char)) :
    (∃ r', readLines r ls = .ok r' ∧ 0 ≤ r'.delay ∧ ∀ l ∈ ls, ¬ LacksStatus l ∧ ¬ Endless l) ∨
    (∃ cause, readLines r ls = .error (.failure ⟨cause, none⟩) ∧ ¬ Stalls ls ∧ ∃ l ∈ ls, LacksStatus l) ∨
    (readLines r ls = .error .overflow ∧ Stalls ls) := by
  induction ls generalizing r with
  | nil => exact .inl ⟨r, rfl, hr, by simp⟩
  | cons l ls ih =>
    rw [readLines]
    rcases Line.read_cases l with ⟨line, hl, hd, hs, he⟩ | ⟨hl, hs, he⟩ | ⟨hl, he, -⟩
    · rw [hl]
      rcases ih (Line.apply_delay hd hr) with ⟨r', h, h0, hn⟩ | ⟨cause, h, hn, x, hx, hb⟩ | ⟨h, hn⟩
      · exact .inl ⟨r', h, h0, by simpa [hs, he] using hn⟩
      · exact .inr (.inl ⟨cause, h, by simp [stalls_cons, he, hn], x, by simp [hx], hb⟩)
      · exact .inr (.inr ⟨h, stalls_cons.2 (.inr ⟨hs, hn⟩)⟩)
    · rw [hl]
      exact .inr (.inl ⟨_, rfl, by simp [stalls_cons, he, hs], l, by simp, hs⟩)
    · rw [hl]
      exact .inr (.inr ⟨rfl, stalls_cons.2 (.inl he)⟩)

end Definition
end MockTree
