import MockTree.Proofs.Directives

/-! Random text. Asked for by kind and length, it is any text of this length over the characters of the kind, for
as many draws; a length that is none takes no draw. -/
namespace MockTree.Directive
open Text

/-! ### Characters that are picked -/

section
variable {draws : ℕ → ℕ} {chars : List Char} {n k : ℕ}

theorem picked_eq_map (h : chars ≠ []) :
    picked draws chars n k = (List.range' n k).map fun i =>
      chars.get ⟨draws i % chars.length, Nat.mod_lt _ (List.length_pos_iff.2 h)⟩ := by
  unfold picked
  rw [← List.filterMap_eq_map]
  congr 1
  funext i
  exact List.getElem?_eq_getElem _

theorem length_picked (h : chars ≠ []) : (picked draws chars n k).length = k := by
  rw [picked_eq_map h, List.length_map, List.length_range']

theorem mem_of_mem_picked {c : Char} (h : c ∈ picked draws chars n k) : c ∈ chars := by
  obtain ⟨i, -, hi⟩ := List.mem_filterMap.1 h
  exact List.mem_of_getElem? hi

/-- Every text over the characters is picked by the places that they have among them. -/
theorem exists_picked {w : List Char} (h : ∀ c ∈ w, c ∈ chars) (n : ℕ) :
    ∃ draws, picked draws chars n w.length = w := by
  refine ⟨fun i => (w[i - n]?).elim 0 chars.idxOf, ?_⟩
  by_cases hw : w = []
  · rw [hw]
    rfl
  · obtain ⟨c, hc⟩ := List.exists_mem_of_ne_nil w hw
    have hchars : chars ≠ [] := List.ne_nil_of_mem (h c hc)
    apply List.ext_getElem (length_picked hchars)
    intro i hi hlt
    have hplace : chars.idxOf w[i] < chars.length := List.idxOf_lt_length_iff.2 (h _ (List.getElem_mem hlt))
    simp only [picked_eq_map hchars, List.getElem_map, List.getElem_range', Nat.one_mul, Nat.add_sub_cancel_left,
      List.getElem?_eq_getElem hlt, Option.elim_some, Nat.mod_eq_of_lt hplace, List.get_eq_getElem,
      List.getElem_idxOf]

end

/-! ### Kinds of text -/

theorem lt_of_isAlphanum {c : Char} (h : c.isAlphanum = true) : c.toNat < 128 := by
  rcases Bool.or_eq_true_iff.1 h with h | h
  · rcases Bool.or_eq_true_iff.1 h with h | h
    · have hle : c.toNat ≤ 90 := (of_decide_eq_true h).2
      omega
    · have hle : c.toNat ≤ 122 := of_decide_eq_true (Bool.and_eq_true_iff.1 h).2
      omega
  · have hle : c.toNat ≤ 57 := of_decide_eq_true (Bool.and_eq_true_iff.1 h).2
    omega

inductive Kind
  | alphanumeric
  | alphabetic
  | numeric
  deriving DecidableEq, Repr

namespace Kind

def name : Kind → String
  | alphanumeric => "ALPHANUMERIC"
  | alphabetic => "ALPHABETIC"
  | numeric => "NUMERIC"

/-- What a text of a kind is made of: letters or digits of ASCII, and no small letters if it is asked for in
capitals. -/
def Allows (kind : Kind) (inCapitals : Bool) (c : Char) : Prop :=
  (match kind with
    | alphanumeric => c.isAlphanum
    | alphabetic => c.isAlpha
    | numeric => c.isDigit) = true ∧
  ¬ (inCapitals = true ∧ c.isLower = true)

instance (kind : Kind) (inCapitals : Bool) : DecidablePred (kind.Allows inCapitals) :=
  fun _ => inferInstanceAs (Decidable (_ ∧ _))

/-- The characters of a kind, in the order in which draws number them. -/
def alphabet : Kind → Bool → List Char
  | alphanumeric, false => smallLetters ++ capitals ++ digits
  | alphanumeric, true => capitals ++ digits
  | alphabetic, false => smallLetters ++ capitals
  | alphabetic, true => capitals
  | numeric, _ => digits

theorem alphabet_ne_nil (kind : Kind) (inCapitals : Bool) : kind.alphabet inCapitals ≠ [] := by
  cases kind <;> cases inCapitals <;> decide

theorem Allows.isAlphanum {kind : Kind} {inCapitals : Bool} {c : Char} (h : kind.Allows inCapitals c) :
    c.isAlphanum = true := by
  cases kind with
  | alphanumeric => exact h.1
  | alphabetic => exact Bool.or_eq_true_iff.2 (.inl h.1)
  | numeric => exact Bool.or_eq_true_iff.2 (.inr h.1)

/-- The characters of a kind are those that it allows. -/
theorem mem_alphabet_iff {kind : Kind} {inCapitals : Bool} {c : Char} :
    c ∈ kind.alphabet inCapitals ↔ kind.Allows inCapitals c := by
  constructor
  · have hall : ((kind.alphabet inCapitals).all fun c => decide (kind.Allows inCapitals c)) = true := by
      cases kind <;> cases inCapitals <;> decide
    intro h
    exact of_decide_eq_true (List.all_eq_true.1 hall c h)
  · -- Only characters of ASCII are allowed, and these are few.
    intro h
    have hascii : c.toNat < 128 := lt_of_isAlphanum h.isAlphanum
    have hall : ∀ i < 128, kind.Allows inCapitals (Char.ofNat i) → Char.ofNat i ∈ kind.alphabet inCapitals := by
      cases kind <;> cases inCapitals <;> decide
    have hc := hall c.toNat hascii
    rw [Char.ofNat_toNat] at hc
    exact hc h

/-- The alphabet of a kind is found under its name, with the mark of capitals if there are letters in it. -/
theorem alphabet?_name (kind : Kind) (inCapitals : Bool) :
    alphabet? (String.ofList (if inCapitals && contains "ALPHA".toList kind.name.toList then
      kind.name.toList ++ "_UPPER".toList else kind.name.toList)) = some (kind.alphabet inCapitals) := by
  cases kind <;> cases inCapitals <;> rfl

theorem name_ne_uuid (kind : Kind) : (kind.name.toList == "UUID".toList) = false := by
  cases kind <;> rfl

end Kind

/-- A text of a length over the characters that a kind allows. -/
def textsOf (kind : Kind) (inCapitals : Bool) (k : ℕ) : Set Datum :=
  {d | ∃ w, d = .text w ∧ w.length = k ∧ ∀ c ∈ w, kind.Allows inCapitals c}

/-- The report of a length that is none. -/
def badLength (length : Datum) : Datum := .text ("Invalid randomValue length: ".toList ++ length.plain)

section
variable {call : Call} {kind : Kind}
  (hkind : upperList (chanceSignature.get "type" call.named).plain = kind.name.toList)
include hkind

theorem randomText_runAt (s : Setting) (n : ℕ) :
    (randomText s call).runAt n =
      match wholeNumber? (chanceSignature.get "length" call.named) with
      | some (.ofNat k) =>
        (.ok (.text (picked s.draws (kind.alphabet (isYes (chanceSignature.get "uppercase" call.named))) n k)), n + k)
      | _ =>
        (.ok (badLength (chanceSignature.get "length" call.named)), n) := by
  unfold randomText
  simp only [hkind, kind.name_ne_uuid, Bool.false_eq_true, if_false, kind.alphabet?_name]
  cases wholeNumber? (chanceSignature.get "length" call.named) with
  | none => rfl
  | some l =>
    cases l with
    | ofNat k =>
      simp only
      rw [Render.runAt_bind_ok (drawChars_runAt s _ k n)]
      rfl
    | negSucc k => rfl

theorem randomText_runAt_of_length {k : ℕ}
    (hlength : wholeNumber? (chanceSignature.get "length" call.named) = some (k : ℤ)) (s : Setting) (n : ℕ) :
    (randomText s call).runAt n =
      (.ok (.text (picked s.draws (kind.alphabet (isYes (chanceSignature.get "uppercase" call.named))) n k)),
        n + k) := by
  rw [randomText_runAt hkind, hlength]

theorem givesExactly_randomText {k : ℕ}
    (hlength : wholeNumber? (chanceSignature.get "length" call.named) = some (k : ℤ)) (s : Setting) :
    GivesExactly randomText s call (textsOf kind (isYes (chanceSignature.get "uppercase" call.named)) k) := by
  constructor
  · intro draws n
    refine ⟨_, ⟨_, rfl, length_picked (kind.alphabet_ne_nil _), ?_⟩, n + k,
      randomText_runAt_of_length hkind hlength _ n⟩
    intro c hc
    exact Kind.mem_alphabet_iff.1 (mem_of_mem_picked hc)
  · rintro _ ⟨w, rfl, rfl, hw⟩ n
    obtain ⟨draws, hdraws⟩ := exists_picked (fun c hc => Kind.mem_alphabet_iff.2 (hw c hc)) n
    refine ⟨draws, n + w.length, ?_⟩
    rw [randomText_runAt_of_length hkind hlength, hdraws]

theorem randomText_runAt_of_no_length
    (hlength : ∀ k : ℕ, wholeNumber? (chanceSignature.get "length" call.named) ≠ some (k : ℤ))
    (s : Setting) (n : ℕ) :
    (randomText s call).runAt n =
      (.ok (badLength (chanceSignature.get "length" call.named)), n) := by
  rw [randomText_runAt hkind]
  split
  · next k hk => exact absurd hk (hlength k)
  · rfl

end

/-- Text of a kind, in any letter case, and of a length: exactly the texts of this length over the characters of the
kind are given, for one draw each character. A length that is none is reported without a draw. Capitals make no
difference to digits. -/
theorem randomText_exact (s : Setting) {call : Call} {kind : Kind}
    (hkind : upperList (chanceSignature.get "type" call.named).plain = kind.name.toList) :
    (∀ k : ℕ, wholeNumber? (chanceSignature.get "length" call.named) = some (k : ℤ) →
      GivesExactly randomText s call (textsOf kind (isYes (chanceSignature.get "uppercase" call.named)) k) ∧
      ∀ draws n, ((randomText { s with draws } call).runAt n).2 = n + k) ∧
    ((∀ k : ℕ, wholeNumber? (chanceSignature.get "length" call.named) ≠ some (k : ℤ)) →
      ∀ n, (randomText s call).runAt n =
        (.ok (badLength (chanceSignature.get "length" call.named)), n)) ∧
    (kind = .numeric → ∀ call' : Call,
      chanceSignature.get "type" call'.named = chanceSignature.get "type" call.named →
      chanceSignature.get "length" call'.named = chanceSignature.get "length" call.named →
      ∀ n, (randomText s call').runAt n = (randomText s call).runAt n) := by
  refine ⟨?_, ?_, ?_⟩
  · intro k hlength
    constructor
    · exact givesExactly_randomText hkind hlength s
    · intro draws n
      rw [randomText_runAt_of_length hkind hlength]
  · intro hlength n
    exact randomText_runAt_of_no_length hkind hlength s n
  · rintro rfl call' htype hlength n
    rw [randomText_runAt hkind, randomText_runAt (htype ▸ hkind), hlength]
    rfl

/-- Capitals in a kind of mixed case; a length below zero; and digits in capitals. -/
theorem randomText_exact_mixed :
    let s := Setting.still ⟨.empty, .ofString "/"⟩ (.simple "GET" "/")
    let call := Call.given ⟨.null, none, [], []⟩
    GivesExactly randomText s (call [("type", "alphaBetic"), ("length", " 3"), ("uppercase", "TRUE")])
        (textsOf .alphabetic true 3) ∧
      (∀ n, (randomText s (call [("type", "NUMERIC"), ("length", "-1")])).runAt n =
        (.ok (.text "Invalid randomValue length: -1".toList), n)) ∧
      ∀ n, (randomText s (call [("type", "numeric"), ("uppercase", "true")])).runAt n =
        (randomText s (call [("type", "numeric")])).runAt n := by
  intro s call
  refine ⟨?_, ?_, ?_⟩
  · have hkind : upperList (chanceSignature.get "type"
        (call [("type", "alphaBetic"), ("length", " 3"), ("uppercase", "TRUE")]).named).plain =
          Kind.alphabetic.name.toList := by decide
    exact ((randomText_exact s hkind).1 3 (by decide)).1
  · have hkind : upperList (chanceSignature.get "type"
        (call [("type", "NUMERIC"), ("length", "-1")]).named).plain = Kind.numeric.name.toList := by decide
    apply (randomText_exact s hkind).2.1
    intro k hk
    have hread : wholeNumber? (.value (.text "-1")) = some (-1) := by decide
    have hneg := Option.some.inj (hread.symm.trans hk)
    omega
  · have hkind : upperList (chanceSignature.get "type" (call [("type", "numeric")]).named).plain =
        Kind.numeric.name.toList := by decide
    intro n
    exact (randomText_exact s hkind).2.2 rfl _ rfl rfl n

end MockTree.Directive
