import MockTree.Proofs.JsonNumbers

/-! The grammar of JSON over tokens with gaps between them. Reading finds the value that the tokens spell,
whatever the gaps are, and reads nothing else. -/
namespace MockTree.Json
open Text

/-- What stands between the quotes of a string, and the units it is read as. -/
inductive Raw : List Char → List Nat → Prop
  | nil : Raw [] []
  | unit {a b c d : Char} {n : Nat} {raw : List Char} {ns : List Nat} (h : hexUnit? a b c d = some n)
      (hr : Raw raw ns) : Raw ('\\' :: 'u' :: a :: b :: c :: d :: raw) (n :: ns)
  | escape {e c : Char} {raw : List Char} {ns : List Nat} (h : escaped? e = some c) (hr : Raw raw ns) :
      Raw ('\\' :: e :: raw) (c.toNat :: ns)
  | char {c : Char} {raw : List Char} {ns : List Nat} (h : 32 ≤ c.toNat) (hq : c ≠ '"') (hb : c ≠ '\\')
      (hr : Raw raw ns) : Raw (c :: raw) (c.toNat :: ns)

theorem readUnits_append {raw : List Char} {ns : List Nat} (h : Raw raw ns) (r : List Char) :
    readUnits (raw ++ '"' :: r) = some (ns, r) := by
  induction h with
  | nil => rw [List.nil_append, readUnits]
  | unit hu _ ih => simp [readUnits, hu, ih]
  | @escape e c raw ns he _ ih =>
    have hne : e ≠ 'u' := by
      rintro rfl
      cases he
    rw [List.cons_append, List.cons_append, readUnits.eq_4 _ _ (by rintro _ _ _ _ _ rfl; exact (hne rfl).elim), he, ih]
    rfl
  | @char c raw ns h hq hb _ ih =>
    rw [List.cons_append, readUnits.eq_5 _ _ (fun e => hq e) (by rintro _ _ _ _ _ rfl; exact (hb rfl).elim)
      (by rintro _ _ rfl; exact (hb rfl).elim), ih, if_neg (by simp [hb]; omega)]
    rfl

theorem exists_raw {s r : List Char} {ns : List Nat} (h : readUnits s = some (ns, r)) :
    ∃ raw, Raw raw ns ∧ s = raw ++ '"' :: r := by
  fun_induction readUnits s generalizing ns with
  | case1 => cases h
  | case2 =>
    cases h
    exact ⟨[], .nil, rfl⟩
  | case3 a b c d s n hu ih =>
    obtain ⟨⟨ms, t⟩, hr, he⟩ := Option.map_eq_some_iff.1 h
    cases he
    obtain ⟨raw, hraw, rfl⟩ := ih hr
    exact ⟨_, .unit hu hraw, rfl⟩
  | case4 => cases h
  | case5 e s _ c he ih =>
    obtain ⟨⟨ms, t⟩, hr, hp⟩ := Option.map_eq_some_iff.1 h
    cases hp
    obtain ⟨raw, hraw, rfl⟩ := ih hr
    exact ⟨_, .escape he hraw, rfl⟩
  | case6 => cases h
  | case7 => cases h
  | case8 c s hq _ _ hc ih =>
    simp only [Bool.or_eq_true, decide_eq_true_eq, beq_iff_eq, not_or, Nat.not_lt] at hc
    obtain ⟨⟨ms, t⟩, hr, hp⟩ := Option.map_eq_some_iff.1 h
    cases hp
    obtain ⟨raw, hraw, rfl⟩ := ih hr
    exact ⟨_, .char hc.1 (fun e => hq e) hc.2 hraw, rfl⟩

theorem map_eq_some_pair {α β : Type} {f : α → β} {o : Option (α × List Char)} {b : β} {r : List Char} :
    (o.map fun p => (f p.1, p.2)) = some (b, r) ↔ ∃ a, o = some (a, r) ∧ b = f a := by
  constructor
  · intro h
    obtain ⟨⟨a, t⟩, ho, he⟩ := Option.map_eq_some_iff.1 h
    cases he
    exact ⟨a, ho, rfl⟩
  · rintro ⟨a, rfl, rfl⟩
    rfl

/-! One step of each reader, once the mark that comes next is known. -/

section
variable {fuel : Nat} {s r : List Char}

theorem readString_eq_some {cs : List Char} :
    readString s = some (cs, r) ↔ ∃ raw ns, Raw raw ns ∧ s = raw ++ '"' :: r ∧ cs = joinUnits ns := by
  rw [readString]
  refine (map_eq_some_pair (f := joinUnits)).trans ⟨?_, ?_⟩
  · rintro ⟨ns, hu, rfl⟩
    obtain ⟨raw, hraw, hs⟩ := exists_raw hu
    exact ⟨raw, ns, hraw, hs, rfl⟩
  · rintro ⟨raw, ns, hraw, rfl, rfl⟩
    exact ⟨ns, readUnits_append hraw r, rfl⟩

theorem readValue_string {v : Value} :
    readValue (fuel + 1) ('"' :: s) = some (v, r) ↔ ∃ cs, readString s = some (cs, r) ∧ v = .ofChars cs := by
  rw [readValue]
  exact map_eq_some_pair (f := Value.ofChars)

theorem readValue_list {v : Value} :
    readValue (fuel + 1) ('[' :: s) = some (v, r) ↔
      (skipSpace s = ']' :: r ∧ v = .list []) ∨ ((∀ m, skipSpace s ≠ ']' :: m) ∧
        ∃ vs, readItems fuel (skipSpace s) = some (vs, r) ∧ v = .list vs) := by
  rw [readValue]
  split
  · next m hm =>
    rw [hm]
    constructor
    · rintro ⟨⟩
      exact .inl ⟨rfl, rfl⟩
    · rintro (⟨he, rfl⟩ | ⟨hne, -⟩)
      · rw [(List.cons.inj he).2]
      · exact absurd rfl (hne m)
  · next hm =>
    refine (map_eq_some_pair (f := Value.list)).trans ⟨fun h => .inr ⟨hm, h⟩, ?_⟩
    rintro (⟨he, -⟩ | ⟨-, h⟩)
    · exact absurd he (hm r)
    · exact h

theorem readValue_map {v : Value} :
    readValue (fuel + 1) ('\x7b' :: s) = some (v, r) ↔
      (skipSpace s = '\x7d' :: r ∧ v = .map []) ∨ ((∀ m, skipSpace s ≠ '\x7d' :: m) ∧
        ∃ ps, readFields fuel (skipSpace s) = some (ps, r) ∧ v = .map (Value.ofPairs ps)) := by
  rw [readValue]
  split
  · next m hm =>
    rw [hm]
    constructor
    · rintro ⟨⟩
      exact .inl ⟨rfl, rfl⟩
    · rintro (⟨he, rfl⟩ | ⟨hne, -⟩)
      · rw [(List.cons.inj he).2]
      · exact absurd rfl (hne m)
  · next hm =>
    refine (map_eq_some_pair (f := fun ps => Value.map (Value.ofPairs ps))).trans ⟨fun h => .inr ⟨hm, h⟩, ?_⟩
    rintro (⟨he, -⟩ | ⟨-, h⟩)
    · exact absurd he (hm r)
    · exact h

theorem readValue_cases {v : Value} (h : readValue (fuel + 1) s = some (v, r)) :
    (∃ t, s = '"' :: t) ∨ (∃ t, s = '[' :: t) ∨ (∃ t, s = '\x7b' :: t) ∨ readAtom s = some (v, r) := by
  rw [readValue.eq_def] at h
  simp only at h
  split at h
  · exact .inl ⟨_, rfl⟩
  · exact .inr (.inl ⟨_, rfl⟩)
  · exact .inr (.inr (.inl ⟨_, rfl⟩))
  · exact .inr (.inr (.inr h))

theorem readItems_eq_some {vs : List Value} :
    readItems (fuel + 1) s = some (vs, r) ↔ ∃ v m, readValue fuel s = some (v, m) ∧
      ((skipSpace m = ']' :: r ∧ vs = [v]) ∨
        ∃ t us, skipSpace m = ',' :: t ∧ readItems fuel (skipSpace t) = some (us, r) ∧ vs = v :: us) := by
  rw [readItems]
  constructor
  · intro h
    split at h
    · cases h
    · next v m hv =>
      refine ⟨v, m, hv, ?_⟩
      split at h
      · next t hm =>
        cases h
        exact .inl ⟨hm, rfl⟩
      · next t hm =>
        obtain ⟨us, hus, rfl⟩ := (map_eq_some_pair (f := (v :: ·))).1 h
        exact .inr ⟨t, us, hm, hus, rfl⟩
      · cases h
  · rintro ⟨v, m, hv, ⟨hm, rfl⟩ | ⟨t, us, hm, hus, rfl⟩⟩
    · simp only [hv, hm]
    · simp only [hv, hm, hus, Option.map_some]

theorem readFields_eq_some {ps : List (Scalar × Value)} :
    readFields (fuel + 1) s = some (ps, r) ↔ ∃ t cs m₁ m₂ v m, s = '"' :: t ∧ readString t = some (cs, m₁) ∧
      skipSpace m₁ = ':' :: m₂ ∧ readValue fuel (skipSpace m₂) = some (v, m) ∧
      ((skipSpace m = '\x7d' :: r ∧ ps = [(.text (String.ofList cs), v)]) ∨
        ∃ t us, skipSpace m = ',' :: t ∧ readFields fuel (skipSpace t) = some (us, r) ∧
          ps = (.text (String.ofList cs), v) :: us) := by
  constructor
  · intro h
    rw [readFields.eq_def] at h
    simp only at h
    split at h
    · next t =>
      split at h
      · cases h
      · next cs m₁ hname =>
        split at h
        · next m₂ hcolon =>
          split at h
          · cases h
          · next v m hv =>
            refine ⟨t, cs, m₁, m₂, v, m, rfl, hname, hcolon, hv, ?_⟩
            split at h
            · next t' hm =>
              cases h
              exact .inl ⟨hm, rfl⟩
            · next t' hm =>
              obtain ⟨us, hus, rfl⟩ := (map_eq_some_pair (f := ((Scalar.text (String.ofList cs), v) :: ·))).1 h
              exact .inr ⟨t', us, hm, hus, rfl⟩
            · cases h
        · cases h
    · cases h
  · rintro ⟨t, cs, m₁, m₂, v, m, rfl, hname, hcolon, hv, ⟨hm, rfl⟩ | ⟨t', us, hm, hus, rfl⟩⟩
    · simp only [readFields, hname, hcolon, hv, hm]
    · simp only [readFields, hname, hcolon, hv, hm, hus, Option.map_some]

end

/-- A word or a number, read as a value wherever one may end. -/
structure Atom (w : List Char) (v : Value) : Prop where
  nonempty : w ≠ []
  chars : ∀ c ∈ w, isAtomChar c = true
  read : ∀ r, Closes r → readAtom (w ++ r) = some (v, r)

theorem dropWord_eq_some {w s r : List Char} (h : readKeyword.dropWord w s = some r) : s = w ++ r := by
  induction w generalizing s with
  | nil => cases h; rfl
  | cons c w ih =>
    cases s with
    | nil => cases h
    | cons d s =>
      rw [readKeyword.dropWord] at h
      split at h
      · next hc => rw [eq_of_beq hc, ih h, List.cons_append]
      · cases h

theorem exists_keyword {s r : List Char} {v : Value} (h : readKeyword s = some (v, r)) :
    ∃ w, s = w ++ r ∧ Atom w v := by
  obtain ⟨⟨w, u⟩, hmem, hw⟩ := List.exists_of_findSome?_eq_some h
  obtain ⟨t, ht, he⟩ := Option.map_eq_some_iff.1 hw
  cases he
  refine ⟨w, dropWord_eq_some ht, ?_⟩
  have hread : ∀ x, readAtom (w ++ x) = some (v, x) := by
    intro x
    simp only [keywords, List.mem_cons, Prod.mk.injEq, List.not_mem_nil, or_false] at hmem
    rcases hmem with ⟨rfl, rfl⟩ | ⟨rfl, rfl⟩ | ⟨rfl, rfl⟩ | ⟨rfl, rfl⟩ | ⟨rfl, rfl⟩ | ⟨rfl, rfl⟩ <;> rfl
  have hword : ∀ p ∈ keywords, p.1 ≠ [] ∧ p.1.all isAtomChar = true := by decide
  exact ⟨(hword _ hmem).1, List.all_eq_true.1 (hword _ hmem).2, fun x _ => hread x⟩

/-- What starts like a number is no word. -/
theorem readKeyword_of_digit {c : Char} (h : isDigit c = true) (s : List Char) :
    readKeyword (c :: s) = none ∧ readKeyword ('-' :: c :: s) = none := by
  have hne : ∀ d, isDigit d = false → (d == c) = false := by
    intro d hd
    rw [beq_eq_false_iff_ne]
    rintro rfl
    rw [h] at hd
    cases hd
  constructor
  · simp [readKeyword, keywords, readKeyword.dropWord, hne 'n' rfl, hne 't' rfl, hne 'f' rfl, hne 'N' rfl,
      hne 'I' rfl, hne '-' rfl]
  · simp [readKeyword, keywords, readKeyword.dropWord, hne 'I' rfl]

theorem exists_atom {s r : List Char} {v : Value} (h : readAtom s = some (v, r)) :
    ∃ w, s = w ++ r ∧ Atom w v := by
  rw [readAtom.eq_def] at h
  split at h
  · next a ha =>
    cases h
    exact exists_keyword ha
  · split at h
    · next t =>
      obtain ⟨w, rfl, hw, ⟨c, hc, hd⟩, hread⟩ := readNumber_cases h
      cases w with
      | nil => cases hc
      | cons b w =>
        cases hc
        refine ⟨'-' :: c :: w, rfl, by simp, by simpa [isAtomChar] using hw, fun x hx => ?_⟩
        rw [List.cons_append, List.cons_append, readAtom.eq_def, (readKeyword_of_digit hd _).2]
        exact hread x hx
    · next hminus =>
      obtain ⟨w, rfl, hw, ⟨c, hc, hd⟩, hread⟩ := readNumber_cases h
      cases w with
      | nil => cases hc
      | cons b w =>
        cases hc
        refine ⟨c :: w, rfl, by simp, hw, fun x hx => ?_⟩
        rw [List.cons_append, readAtom.eq_def, (readKeyword_of_digit hd _).1]
        simp only
        split
        · next he =>
          cases he
          cases hd
        · exact hread x hx

/-- A piece of JSON that no gap can part. -/
inductive Token
  | mark (c : Char)
  | literal (raw : List Char)
  | atom (word : List Char)

def Token.text : Token → List Char
  | .mark c => [c]
  | .literal raw => '"' :: (raw ++ ['"'])
  | .atom word => word

/-- What tokens can spell: a value, or items or fields up to the bracket that closes them. -/
inductive Phrase
  | value (v : Value)
  | items (vs : List Value)
  | fields (pairs : List (Scalar × Value))

/-- The tokens of a phrase. -/
inductive Spells : Phrase → List Token → Prop
  | text {raw : List Char} {ns : List Nat} (h : Raw raw ns) :
      Spells (.value (.ofChars (joinUnits ns))) [.literal raw]
  | atom {w : List Char} {v : Value} (h : Atom w v) : Spells (.value v) [.atom w]
  | noItems : Spells (.value (.list [])) [.mark '[', .mark ']']
  | list {vs : List Value} {ts : List Token} (h : Spells (.items vs) ts) :
      Spells (.value (.list vs)) (.mark '[' :: ts)
  | noFields : Spells (.value (.map [])) [.mark '\x7b', .mark '\x7d']
  | map {ps : List (Scalar × Value)} {ts : List Token} (h : Spells (.fields ps) ts) :
      Spells (.value (.map (Value.ofPairs ps))) (.mark '\x7b' :: ts)
  | lastItem {v : Value} {ts : List Token} (h : Spells (.value v) ts) :
      Spells (.items [v]) (ts ++ [.mark ']'])
  | item {v : Value} {vs : List Value} {ts us : List Token} (h : Spells (.value v) ts)
      (hr : Spells (.items vs) us) : Spells (.items (v :: vs)) (ts ++ .mark ',' :: us)
  | lastField {raw : List Char} {ns : List Nat} {v : Value} {ts : List Token} (hn : Raw raw ns)
      (h : Spells (.value v) ts) :
      Spells (.fields [(.text (String.ofList (joinUnits ns)), v)])
        (.literal raw :: .mark ':' :: (ts ++ [.mark '\x7d']))
  | field {raw : List Char} {ns : List Nat} {v : Value} {ps : List (Scalar × Value)}
      {ts us : List Token} (hn : Raw raw ns) (h : Spells (.value v) ts) (hr : Spells (.fields ps) us) :
      Spells (.fields ((.text (String.ofList (joinUnits ns)), v) :: ps))
        (.literal raw :: .mark ':' :: (ts ++ .mark ',' :: us))

/-- A text of tokens, each behind a gap, and what follows them. -/
inductive Spaced : List Token → List Char → List Char → Prop
  | nil (r : List Char) : Spaced [] r r
  | cons {gap : List Char} {t : Token} {ts : List Token} {s r : List Char}
      (hg : ∀ c ∈ gap, isSpace c = true) (h : Spaced ts s r) : Spaced (t :: ts) (gap ++ (t.text ++ s)) r

theorem skipSpace_append {gap : List Char} (hg : ∀ c ∈ gap, isSpace c = true) {c : Char}
    (hc : isSpace c = false) (s : List Char) : skipSpace (gap ++ c :: s) = c :: s := by
  rw [skipSpace, List.dropWhile_append_of_pos hg, List.dropWhile_cons_of_neg (by simp [hc])]

theorem Spaced.token (t : Token) {ts : List Token} {s r : List Char} (h : Spaced ts s r) :
    Spaced (t :: ts) (t.text ++ s) r :=
  List.nil_append (t.text ++ s) ▸ .cons (by simp) h

theorem Spaced.append {ts us : List Token} {s m r : List Char} (h : Spaced ts s m) (hu : Spaced us m r) :
    Spaced (ts ++ us) s r := by
  induction h with
  | nil => exact hu
  | cons hg _ ih => exact .cons hg (ih hu)

theorem Spaced.exists_append {ts us : List Token} {s r : List Char} (h : Spaced (ts ++ us) s r) :
    ∃ m, Spaced ts s m ∧ Spaced us m r := by
  induction ts generalizing s with
  | nil => exact ⟨s, .nil s, h⟩
  | cons t ts ih =>
    cases h with
    | cons hg h =>
      obtain ⟨m, hm, hu⟩ := ih h
      exact ⟨m, .cons hg hm, hu⟩

/-- A mark that comes next is found behind the gap. -/
theorem Spaced.mark {c : Char} (hc : isSpace c = false) {ts : List Token} {s r : List Char}
    (h : Spaced (.mark c :: ts) s r) : ∃ m, skipSpace s = c :: m ∧ Spaced ts m r := by
  cases h with
  | cons hg h => exact ⟨_, skipSpace_append hg hc _, h⟩

theorem Spaced.literal {raw : List Char} {ts : List Token} {s r : List Char}
    (h : Spaced (.literal raw :: ts) s r) :
    ∃ m, skipSpace s = '"' :: (raw ++ '"' :: m) ∧ Spaced ts m r := by
  cases h with
  | cons hg h =>
    refine ⟨_, ?_, h⟩
    rw [Token.text, List.cons_append, List.append_assoc, skipSpace_append hg (by decide)]
    rfl

/-- A value may end before a mark that ends or parts items. -/
theorem Spaced.closes {c : Char} (hc : c = ',' ∨ c = ']' ∨ c = '\x7d') {ts : List Token} {s r : List Char}
    (h : Spaced (.mark c :: ts) s r) : Closes s := by
  cases h with
  | @cons gap _ _ s r hg h =>
    intro d hd
    cases gap with
    | nil =>
      cases hd
      exact .inr hc
    | cons g gap =>
      cases hd
      exact .inl (hg _ (by simp))

theorem readValue_of_isAtomChar {c : Char} (h : isAtomChar c = true) (s : List Char) (fuel : Nat) :
    readValue (fuel + 1) (c :: s) = readAtom (c :: s) := by
  rw [readValue.eq_def]
  simp only
  split
  · next he => cases he; cases h
  · next he => cases he; cases h
  · next he => cases he; cases h
  · rfl

theorem isSpace_of_isAtomChar {c : Char} (h : isAtomChar c = true) : isSpace c = false := by
  rw [← Bool.not_eq_true]
  intro hs
  simp only [isSpace, Bool.or_eq_true, beq_iff_eq] at hs
  rcases hs with ((rfl | rfl) | rfl) | rfl <;> cases h

theorem Atom.skipSpace {w : List Char} {v : Value} (h : Atom w v) {gap : List Char}
    (hg : ∀ c ∈ gap, isSpace c = true) (s : List Char) :
    ∃ c m, w = c :: m ∧ isAtomChar c = true ∧ skipSpace (gap ++ (w ++ s)) = w ++ s := by
  obtain ⟨c, m, rfl⟩ := List.exists_cons_of_ne_nil h.nonempty
  have hc := h.chars c (by simp)
  exact ⟨c, m, rfl, hc, skipSpace_append hg (isSpace_of_isAtomChar hc) _⟩

/-- No phrase opens with a bracket that closes. -/
theorem Spells.opens {p : Phrase} {ts : List Token} (h : Spells p ts) {s r : List Char}
    (hs : Spaced ts s r) : ∃ c m, skipSpace s = c :: m ∧ c ≠ ']' ∧ c ≠ '\x7d' := by
  induction h generalizing r with
  | text =>
    obtain ⟨m, hm, -⟩ := hs.literal
    exact ⟨_, _, hm, by decide, by decide⟩
  | @atom w v h =>
    cases hs with
    | cons hg hs =>
      obtain ⟨c, m, rfl, hc, hm⟩ := h.skipSpace hg _
      refine ⟨c, _, hm, ?_, ?_⟩ <;> rintro rfl <;> cases hc
  | noItems | list | noFields | map =>
    obtain ⟨m, hm, -⟩ := hs.mark (by decide)
    exact ⟨_, _, hm, by decide, by decide⟩
  | lastItem _ ih | item _ _ ih =>
    obtain ⟨m, hm, -⟩ := hs.exists_append
    exact ih hm
  | lastField | field =>
    obtain ⟨m, hm, -⟩ := hs.literal
    exact ⟨_, _, hm, by decide, by decide⟩

/-- A phrase is read from the start of a text with so many steps, and this is what follows it. -/
def Phrase.Read (fuel : Nat) (s r : List Char) : Phrase → Prop
  | .value v => readValue fuel s = some (v, r)
  | .items vs => readItems fuel s = some (vs, r)
  | .fields ps => readFields fuel s = some (ps, r)

/-- Reading finds what tokens spell, whatever the gaps are. -/
theorem Spells.read {p : Phrase} {ts : List Token} (h : Spells p ts) {s r : List Char} {fuel : Nat}
    (hs : Spaced ts s r) (hr : ∀ v, p = .value v → Closes r) (hf : 2 * ts.length ≤ fuel) :
    p.Read fuel (skipSpace s) r := by
  induction h generalizing s r fuel with
  | @text raw ns h =>
    obtain ⟨fuel, rfl⟩ : ∃ n, fuel = n + 1 := ⟨fuel - 1, by simp at hf; omega⟩
    obtain ⟨m, hm, ⟨⟩⟩ := hs.literal
    rw [hm]
    exact readValue_string.2 ⟨_, readString_eq_some.2 ⟨raw, ns, h, rfl, rfl⟩, rfl⟩
  | @atom w v h =>
    obtain ⟨fuel, rfl⟩ : ∃ n, fuel = n + 1 := ⟨fuel - 1, by simp at hf; omega⟩
    cases hs with
    | cons hg hs =>
      cases hs
      obtain ⟨c, m, rfl, hc, hm⟩ := h.skipSpace hg r
      rw [Phrase.Read, Token.text, hm, List.cons_append, readValue_of_isAtomChar hc, ← List.cons_append]
      exact h.read r (hr v rfl)
  | noItems =>
    obtain ⟨fuel, rfl⟩ : ∃ n, fuel = n + 1 := ⟨fuel - 1, by simp at hf; omega⟩
    obtain ⟨m, hm, hs⟩ := hs.mark (by decide)
    obtain ⟨m', hm', ⟨⟩⟩ := hs.mark (by decide)
    rw [hm]
    exact readValue_list.2 (.inl ⟨hm', rfl⟩)
  | @list vs ts h ih =>
    obtain ⟨fuel, rfl⟩ : ∃ n, fuel = n + 1 := ⟨fuel - 1, by simp at hf; omega⟩
    obtain ⟨m, hm, hs⟩ := hs.mark (by decide)
    have hread : readItems fuel (skipSpace m) = some (vs, r) := ih hs (by simp) (by simp at hf; omega)
    obtain ⟨c, m', hc, hne, -⟩ := h.opens hs
    rw [hm]
    exact readValue_list.2 (.inr ⟨fun t ht => hne (List.cons.inj (hc.symm.trans ht)).1, vs, hread, rfl⟩)
  | noFields =>
    obtain ⟨fuel, rfl⟩ : ∃ n, fuel = n + 1 := ⟨fuel - 1, by simp at hf; omega⟩
    obtain ⟨m, hm, hs⟩ := hs.mark (by decide)
    obtain ⟨m', hm', ⟨⟩⟩ := hs.mark (by decide)
    rw [hm]
    exact readValue_map.2 (.inl ⟨hm', rfl⟩)
  | @map ps ts h ih =>
    obtain ⟨fuel, rfl⟩ : ∃ n, fuel = n + 1 := ⟨fuel - 1, by simp at hf; omega⟩
    obtain ⟨m, hm, hs⟩ := hs.mark (by decide)
    have hread : readFields fuel (skipSpace m) = some (ps, r) := ih hs (by simp) (by simp at hf; omega)
    obtain ⟨c, m', hc, -, hne⟩ := h.opens hs
    rw [hm]
    exact readValue_map.2 (.inr ⟨fun t ht => hne (List.cons.inj (hc.symm.trans ht)).1, ps, hread, rfl⟩)
  | @lastItem v ts h ih =>
    obtain ⟨fuel, rfl⟩ : ∃ n, fuel = n + 1 := ⟨fuel - 1, by simp at hf; omega⟩
    obtain ⟨m, hm, hs⟩ := hs.exists_append
    have hread : readValue fuel (skipSpace s) = some (v, m) :=
      ih hm (fun _ _ => hs.closes (by simp)) (by simp at hf; omega)
    obtain ⟨m', hm', ⟨⟩⟩ := hs.mark (by decide)
    exact readItems_eq_some.2 ⟨v, m, hread, .inl ⟨hm', rfl⟩⟩
  | @item v vs ts us h hr ih ihr =>
    obtain ⟨fuel, rfl⟩ : ∃ n, fuel = n + 1 := ⟨fuel - 1, by simp at hf; omega⟩
    obtain ⟨m, hm, hs⟩ := hs.exists_append
    have hread : readValue fuel (skipSpace s) = some (v, m) :=
      ih hm (fun _ _ => hs.closes (by simp)) (by simp at hf; omega)
    obtain ⟨m', hm', hs⟩ := hs.mark (by decide)
    have hmore : readItems fuel (skipSpace m') = some (vs, r) := ihr hs (by simp) (by simp at hf; omega)
    exact readItems_eq_some.2 ⟨v, m, hread, .inr ⟨m', vs, hm', hmore, rfl⟩⟩
  | @lastField raw ns v ts hn h ih =>
    obtain ⟨fuel, rfl⟩ : ∃ n, fuel = n + 1 := ⟨fuel - 1, by simp at hf; omega⟩
    obtain ⟨m₁, hm₁, hs⟩ := hs.literal
    obtain ⟨m₂, hm₂, hs⟩ := hs.mark (by decide)
    obtain ⟨m, hm, hs⟩ := hs.exists_append
    have hread : readValue fuel (skipSpace m₂) = some (v, m) :=
      ih hm (fun _ _ => hs.closes (by simp)) (by simp at hf; omega)
    obtain ⟨m', hm', ⟨⟩⟩ := hs.mark (by decide)
    have hname := readString_eq_some.2 ⟨raw, ns, hn, Eq.refl (raw ++ '"' :: m₁), rfl⟩
    exact readFields_eq_some.2 ⟨_, _, m₁, m₂, v, m, hm₁, hname, hm₂, hread, .inl ⟨hm', rfl⟩⟩
  | @field raw ns v ps ts us hn h hr ih ihr =>
    obtain ⟨fuel, rfl⟩ : ∃ n, fuel = n + 1 := ⟨fuel - 1, by simp at hf; omega⟩
    obtain ⟨m₁, hm₁, hs⟩ := hs.literal
    obtain ⟨m₂, hm₂, hs⟩ := hs.mark (by decide)
    obtain ⟨m, hm, hs⟩ := hs.exists_append
    have hread : readValue fuel (skipSpace m₂) = some (v, m) :=
      ih hm (fun _ _ => hs.closes (by simp)) (by simp at hf; omega)
    obtain ⟨m', hm', hs⟩ := hs.mark (by decide)
    have hmore : readFields fuel (skipSpace m') = some (ps, r) := ihr hs (by simp) (by simp at hf; omega)
    have hname := readString_eq_some.2 ⟨raw, ns, hn, Eq.refl (raw ++ '"' :: m₁), rfl⟩
    exact readFields_eq_some.2 ⟨_, _, m₁, m₂, v, m, hm₁, hname, hm₂, hread, .inr ⟨m', ps, hm', hmore, rfl⟩⟩

theorem Spells.ne_nil {p : Phrase} {ts : List Token} (h : Spells p ts) : ts ≠ [] := by
  cases h <;> simp

theorem skipSpace_eq (s : List Char) : ∃ gap, s = gap ++ skipSpace s ∧ ∀ c ∈ gap, isSpace c = true :=
  ⟨s.takeWhile isSpace, List.takeWhile_append_dropWhile.symm, fun _ hc => List.mem_takeWhile_imp hc⟩

/-- A gap before tokens is one before the first of them. -/
theorem Spaced.gap (gap : List Char) (hg : ∀ c ∈ gap, isSpace c = true) {ts : List Token}
    {s r : List Char} (h : Spaced ts s r) (hne : ts ≠ []) : Spaced ts (gap ++ s) r := by
  cases h with
  | nil => exact absurd rfl hne
  | @cons gap' t ts s r hg' h =>
    rw [← List.append_assoc]
    exact .cons (List.forall_mem_append.2 ⟨hg, hg'⟩) h

theorem Spaced.of_skipSpace {ts : List Token} {s r : List Char} (h : Spaced ts (skipSpace s) r)
    (hne : ts ≠ []) : Spaced ts s r := by
  obtain ⟨gap, hs, hg⟩ := skipSpace_eq s
  rw [hs]
  exact h.gap _ hg hne

theorem Spaced.of_mark {c : Char} {ts : List Token} {s m r : List Char} (hs : skipSpace s = c :: m)
    (h : Spaced ts m r) : Spaced (.mark c :: ts) s r :=
  .of_skipSpace (hs ▸ .token (.mark c) h) (by simp)

/-- Nothing is read but what tokens spell. -/
theorem Phrase.Read.spells {p : Phrase} {fuel : Nat} {s r : List Char} (h : p.Read fuel s r) :
    ∃ ts, Spells p ts ∧ Spaced ts s r := by
  have hliteral : ∀ {raw m : List Char} {us : List Token} {r : List Char}, Spaced us m r →
      Spaced (.literal raw :: us) ('"' :: (raw ++ '"' :: m)) r := fun {raw _ _ _} h => by
    simpa [Token.text] using Spaced.token (.literal raw) h
  induction fuel generalizing p s r with
  | zero => cases p <;> cases h
  | succ fuel ih =>
    cases p with
    | value v =>
      obtain ⟨t, rfl⟩ | ⟨t, rfl⟩ | ⟨t, rfl⟩ | hatom := readValue_cases h
      · obtain ⟨cs, hcs, rfl⟩ := readValue_string.1 h
        obtain ⟨raw, ns, hraw, rfl, rfl⟩ := readString_eq_some.1 hcs
        exact ⟨_, .text hraw, hliteral (.nil r)⟩
      · obtain ⟨hm, rfl⟩ | ⟨-, vs, hitems, rfl⟩ := readValue_list.1 h
        · exact ⟨_, .noItems, .token (.mark '[') (.of_mark hm (.nil r))⟩
        · obtain ⟨ts, hts, hsp⟩ := ih (p := .items vs) hitems
          exact ⟨_, .list hts, .token (.mark '[') (hsp.of_skipSpace hts.ne_nil)⟩
      · obtain ⟨hm, rfl⟩ | ⟨-, ps, hfields, rfl⟩ := readValue_map.1 h
        · exact ⟨_, .noFields, .token (.mark '\x7b') (.of_mark hm (.nil r))⟩
        · obtain ⟨ts, hts, hsp⟩ := ih (p := .fields ps) hfields
          exact ⟨_, .map hts, .token (.mark '\x7b') (hsp.of_skipSpace hts.ne_nil)⟩
      · obtain ⟨w, rfl, hw⟩ := exists_atom hatom
        exact ⟨_, .atom hw, .token (.atom w) (.nil r)⟩
    | items vs =>
      obtain ⟨v, m, hv, hnext⟩ := readItems_eq_some.1 h
      obtain ⟨ts, hts, hsp⟩ := ih (p := .value v) hv
      obtain ⟨hm, rfl⟩ | ⟨t, vs, hm, hitems, rfl⟩ := hnext
      · exact ⟨_, .lastItem hts, hsp.append (.of_mark hm (.nil r))⟩
      · obtain ⟨us, hus, hsp'⟩ := ih (p := .items vs) hitems
        exact ⟨_, .item hts hus, hsp.append (.of_mark hm (hsp'.of_skipSpace hus.ne_nil))⟩
    | fields ps =>
      obtain ⟨t, cs, m₁, m₂, v, m, rfl, hname, hcolon, hv, hnext⟩ := readFields_eq_some.1 h
      obtain ⟨raw, ns, hraw, rfl, rfl⟩ := readString_eq_some.1 hname
      obtain ⟨ts, hts, hsp⟩ := ih (p := .value v) hv
      have hsp := hsp.of_skipSpace hts.ne_nil
      obtain ⟨hm, rfl⟩ | ⟨t, ps, hm, hfields, rfl⟩ := hnext
      · exact ⟨_, .lastField hraw hts, hliteral (.of_mark hcolon (hsp.append (.of_mark hm (.nil r))))⟩
      · obtain ⟨us, hus, hsp'⟩ := ih (p := .fields ps) hfields
        have hsp' := hsp'.of_skipSpace hus.ne_nil
        exact ⟨_, .field hraw hts hus, hliteral (.of_mark hcolon (hsp.append (.of_mark hm hsp')))⟩

/-- What follows tokens goes on. -/
theorem Spaced.extend {ts : List Token} {s r : List Char} (h : Spaced ts s r) (m : List Char) :
    Spaced ts (s ++ m) (r ++ m) := by
  induction h with
  | nil => exact .nil _
  | cons hg _ ih =>
    rw [List.append_assoc, List.append_assoc]
    exact .cons hg ih

/-- A whole text of tokens, with a gap behind the last one. -/
def Laid (ts : List Token) (s : List Char) : Prop := ∃ r, Spaced ts s r ∧ ∀ c ∈ r, isSpace c = true

theorem Laid.append {ts us : List Token} {s m r : List Char} (h : Laid ts s) (hu : Spaced us m r)
    (hne : us ≠ []) : Spaced (ts ++ us) (s ++ m) r := by
  obtain ⟨gap, hs, hg⟩ := h
  exact (hs.extend m).append (hu.gap _ hg hne)

theorem Spaced.length_le {ts : List Token} {s r : List Char} (h : Spaced ts s r)
    (hne : ∀ w, .atom w ∈ ts → w ≠ []) : ts.length ≤ s.length := by
  induction h with
  | nil => simp
  | @cons gap t ts s r hg h ih =>
    have hlen : 0 < t.text.length := by
      cases t with
      | mark => simp [Token.text]
      | literal => simp [Token.text]
      | atom w => exact List.length_pos_iff.2 (hne w (by simp))
    have := ih fun w hw => hne w (by simp [hw])
    simp only [List.length_cons, List.length_append]
    omega

/-- The words and numbers of a phrase. -/
theorem Spells.isAtom {p : Phrase} {ts : List Token} (h : Spells p ts) {w : List Char}
    (hw : .atom w ∈ ts) : ∃ v, Atom w v := by
  induction h <;> simp_all <;> grind

/-- A text reads as a value just when it is laid out of tokens that spell the value. -/
theorem read?_eq_some {s : List Char} {v : Value} :
    read? s = some v ↔ ∃ ts, Spells (.value v) ts ∧ Laid ts s := by
  rw [read?]
  constructor
  · intro h
    split at h
    · next v' r hv =>
      split at h
      · next hr =>
        cases h
        obtain ⟨ts, hts, hsp⟩ := Phrase.Read.spells (p := .value v) hv
        refine ⟨ts, hts, r, hsp.of_skipSpace hts.ne_nil, ?_⟩
        exact List.dropWhile_eq_nil_iff.1 (List.isEmpty_iff.1 hr)
      · cases h
    · cases h
  · rintro ⟨ts, hts, r, hsp, hr⟩
    have hlen := hsp.length_le fun w hw => (hts.isAtom hw).elim fun _ h => h.nonempty
    have hcloses : Closes r := fun c hc => .inl (hr c (List.mem_of_mem_head? hc))
    have hread : readValue (2 * s.length + 2) (skipSpace s) = some (v, r) :=
      hts.read hsp (fun _ _ => hcloses) (by omega)
    rw [hread]
    simp only
    exact if_pos (List.isEmpty_iff.2 (List.dropWhile_eq_nil_iff.2 hr))

end MockTree.Json
