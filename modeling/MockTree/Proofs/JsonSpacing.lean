import Mathlib.Data.List.Chain
import MockTree.Definition.Head
import MockTree.Proofs.JsonGrammar
import MockTree.Proofs.Text

/-! Where the strings of a JSON text are, and why its body may lose line ends and blanks: what is left
between its tokens still is a gap, and the tokens are the same. -/
namespace MockTree.Json
open Text

/-- Where a reader of JSON is: outside of strings, in one, or behind a backslash in one. -/
inductive Place
  | outside
  | inside
  | escape
  deriving DecidableEq

def Place.next : Place → Char → Place
  | .outside, c => if c == '"' then .inside else .outside
  | .inside, c => if c == '"' then .outside else if c == '\\' then .escape else .inside
  | .escape, _ => .inside

/-- The text so far ends in a string that is still open. -/
def InString (before : List Char) : Prop := before.foldl Place.next .outside ≠ .outside

instance : DecidablePred InString := fun _ => inferInstanceAs (Decidable (_ ≠ _))

example : InString "[\"a\", \"b".toList ∧ ¬ InString "[\"a\", \"b\\\"\"".toList := by decide

/-- What can stand between quotes: anything behind a backslash, and else neither quote nor backslash. -/
inductive Enclosed : List Char → Prop
  | nil : Enclosed []
  | escape {c : Char} {s : List Char} (h : Enclosed s) : Enclosed ('\\' :: c :: s)
  | char {c : Char} {s : List Char} (hq : c ≠ '"') (hb : c ≠ '\\') (h : Enclosed s) : Enclosed (c :: s)

theorem ne_of_hexValue? {c : Char} {n : Nat} (h : hexValue? c = some n) : c ≠ '"' ∧ c ≠ '\\' := by
  constructor <;> rintro rfl <;> cases h

theorem Raw.enclosed {raw : List Char} {ns : List Nat} (h : Raw raw ns) : Enclosed raw := by
  induction h with
  | nil => exact .nil
  | unit h _ ih =>
    obtain ⟨x, hx, h⟩ := Option.bind_eq_some_iff.1 h
    obtain ⟨y, hy, h⟩ := Option.bind_eq_some_iff.1 h
    obtain ⟨z, hz, h⟩ := Option.bind_eq_some_iff.1 h
    obtain ⟨w, hw, -⟩ := Option.bind_eq_some_iff.1 h
    obtain ⟨hx, hx'⟩ := ne_of_hexValue? hx
    obtain ⟨hy, hy'⟩ := ne_of_hexValue? hy
    obtain ⟨hz, hz'⟩ := ne_of_hexValue? hz
    obtain ⟨hw, hw'⟩ := ne_of_hexValue? hw
    exact .escape (.char hx hx' (.char hy hy' (.char hz hz' (.char hw hw' ih))))
  | escape _ _ ih => exact .escape ih
  | char _ hq hb _ ih => exact .char hq hb ih

/-- No part of what stands between quotes leaves the string. -/
theorem Enclosed.foldl_ne {s p q : List Char} (h : Enclosed s) (hs : s = p ++ q) :
    p.foldl Place.next .inside ≠ .outside := by
  induction h generalizing p q with
  | nil =>
    obtain ⟨rfl, -⟩ := List.append_eq_nil_iff.1 hs.symm
    simp
  | @escape c s _ ih =>
    rcases p with _ | ⟨_, _ | ⟨_, p⟩⟩
    · simp
    · cases hs
      decide
    · simp only [List.cons_append, List.cons.injEq] at hs
      obtain ⟨rfl, rfl, hs⟩ := hs
      have hp := ih hs
      exact hp
  | @char c s hq hb _ ih =>
    rcases p with _ | ⟨_, p⟩
    · simp
    · simp only [List.cons_append, List.cons.injEq] at hs
      have : Place.next .inside c = .inside := by simp [Place.next, hq, hb]
      rw [List.foldl_cons, ← hs.1, this]
      exact ih hs.2

theorem Enclosed.foldl_eq {s : List Char} (h : Enclosed s) : s.foldl Place.next .inside = .inside := by
  induction h with
  | nil => rfl
  | escape _ ih => exact ih
  | char hq hb _ ih => simpa [Place.next, hq, hb] using ih

theorem foldl_outside {s : List Char} (h : '"' ∉ s) : s.foldl Place.next .outside = .outside := by
  induction s with
  | nil => rfl
  | cons c s ih =>
    simp only [List.mem_cons, not_or] at h
    simpa [Place.next, Ne.symm h.1] using ih h.2

/-- The marks of JSON. -/
def marks : List Char := ['[', ']', '\x7b', '\x7d', ',', ':']

theorem isBlank_of_mem_marks {c : Char} (h : c ∈ marks) : isBlank c = false := by
  simp only [marks, List.mem_cons, List.not_mem_nil, or_false] at h
  rcases h with rfl | rfl | rfl | rfl | rfl | rfl <;> rfl

/-- A token as JSON has it. -/
def Token.Sound : Token → Prop
  | .mark c => c ∈ marks
  | .literal raw => Enclosed raw
  | .atom w => w ≠ [] ∧ ∀ c ∈ w, isAtomChar c = true

@[simp] theorem Token.sound_mark {c : Char} : (Token.mark c).Sound ↔ c ∈ marks := Iff.rfl

@[simp] theorem Token.sound_literal {raw : List Char} : (Token.literal raw).Sound ↔ Enclosed raw := Iff.rfl

theorem Spells.sound {p : Phrase} {ts : List Token} (h : Spells p ts) : ∀ t ∈ ts, t.Sound := by
  induction h with
  | text h => simpa using h.enclosed
  | atom h => simpa [Token.Sound] using ⟨h.nonempty, h.chars⟩
  | noItems | noFields => simp [marks]
  | list _ ih | map _ ih => exact List.forall_mem_cons.2 ⟨by simp [marks], ih⟩
  | lastItem _ ih => exact List.forall_mem_append.2 ⟨ih, by simp [marks]⟩
  | item _ _ ih ihr =>
    exact List.forall_mem_append.2 ⟨ih, List.forall_mem_cons.2 ⟨by simp [marks], ihr⟩⟩
  | lastField hn _ ih =>
    exact List.forall_mem_cons.2 ⟨hn.enclosed, List.forall_mem_cons.2 ⟨by simp [marks],
      List.forall_mem_append.2 ⟨ih, by simp [marks]⟩⟩⟩
  | field hn _ _ ih ihr =>
    exact List.forall_mem_cons.2 ⟨hn.enclosed, List.forall_mem_cons.2 ⟨by simp [marks],
      List.forall_mem_append.2 ⟨ih, List.forall_mem_cons.2 ⟨by simp [marks], ihr⟩⟩⟩⟩

/-- No opening brace directly after another. -/
def Apart (t u : Token) : Prop := t = .mark '\x7b' → u ≠ .mark '\x7b'

/-- An opening brace never follows another one. -/
theorem Spells.isChain {p : Phrase} {ts : List Token} (h : Spells p ts) : ts.IsChain Apart := by
  have hmark : ∀ {ts us : List Token} {c : Char}, ts.IsChain Apart → (.mark c :: us).IsChain Apart →
      c ≠ '\x7b' → (ts ++ .mark c :: us).IsChain Apart := fun ht hu hc =>
    List.isChain_append.2 ⟨ht, hu, fun t _ u hu' _ he => by simp_all⟩
  have hcons : ∀ {t : Token} {us : List Token}, us.IsChain Apart → t ≠ .mark '\x7b' →
      (t :: us).IsChain Apart := fun hu ht => List.isChain_cons.2 ⟨fun _ _ he => absurd he ht, hu⟩
  induction h with
  | text | atom | noItems => simp [Apart]
  | noFields => simp [Apart]
  | list _ ih => exact hcons ih (by simp)
  | map h ih =>
    refine List.isChain_cons.2 ⟨fun u hu _ he => ?_, ih⟩
    cases h <;> simp_all
  | lastItem _ ih => exact hmark ih (by simp) (by decide)
  | item _ _ ih ihr => exact hmark ih (hcons ihr (by simp)) (by decide)
  | lastField _ _ ih => exact hcons (hcons (hmark ih (by simp) (by decide)) (by simp)) (by simp)
  | field _ _ _ ih ihr =>
    exact hcons (hcons (hmark ih (hcons ihr (by simp)) (by decide)) (by simp)) (by simp)

theorem isBlank_of_isSpace {c : Char} (h : isSpace c = true) : isBlank c = true := by
  simp only [isSpace, Bool.or_eq_true, beq_iff_eq] at h
  rcases h with ((rfl | rfl) | rfl) | rfl <;> decide

theorem isBlank_of_isLineEnd {c : Char} (h : isLineEnd c = true) : isBlank c = true := by
  simp only [isLineEnd, isBlank, Bool.or_eq_true, Bool.and_eq_true, decide_eq_true_eq, beq_iff_eq] at h ⊢
  omega

theorem toNat_of_isAtomChar {c : Char} (h : isAtomChar c = true) :
    43 ≤ c.toNat ∧ c.toNat ≤ 122 ∧ c.toNat ≠ 59 ∧ c.toNat ≠ 95 := by
  simp only [isAtomChar, Bool.or_eq_true, beq_iff_eq] at h
  rcases h with ((h | rfl) | rfl) | rfl
  · rcases Bool.or_eq_true_iff.1 h with h | h
    · rcases Bool.or_eq_true_iff.1 h with h | h
      · have hupper : 65 ≤ c.toNat ∧ c.toNat ≤ 90 := of_decide_eq_true h
        omega
      · have hlower : 97 ≤ c.toNat ∧ c.toNat ≤ 122 :=
          (Bool.and_eq_true_iff.1 h).imp of_decide_eq_true of_decide_eq_true
        omega
    · have hdigit : 48 ≤ c.toNat ∧ c.toNat ≤ 57 :=
        (Bool.and_eq_true_iff.1 h).imp of_decide_eq_true of_decide_eq_true
      omega
  all_goals decide

theorem isBlank_of_isAtomChar {c : Char} (h : isAtomChar c = true) : isBlank c = false := by
  have := toNat_of_isAtomChar h
  simp only [isBlank, Bool.or_eq_false_iff, Bool.and_eq_false_iff, decide_eq_false_iff_not,
    beq_eq_false_iff_ne]
  omega

theorem Token.Sound.foldl_text {t : Token} (h : t.Sound) {gap : List Char}
    (hg : ∀ c ∈ gap, isSpace c = true) : (gap ++ t.text).foldl Place.next .outside = .outside := by
  have hgap : gap.foldl Place.next .outside = .outside :=
    foldl_outside fun hq => absurd (hg _ hq) (by decide)
  rw [List.foldl_append, hgap]
  cases t with
  | mark c =>
    refine foldl_outside fun hq => ?_
    obtain rfl := List.mem_singleton.1 hq
    simp [marks] at h
  | literal raw =>
    rw [Token.text, List.foldl_cons, List.foldl_append, show Place.next .outside '"' = .inside from rfl,
      Enclosed.foldl_eq h]
    rfl
  | atom w => exact foldl_outside fun hq => absurd (h.2 _ hq) (by decide)

/-- A character stands in a string that is one of the tokens. -/
def Quoted (ts : List Token) (before : List Char) (c : Char) (after : List Char) : Prop :=
  InString before ∧ ∃ p q front back, .literal (p ++ c :: q) ∈ ts ∧ before = front ++ '"' :: p ∧
    after = q ++ '"' :: back

/-- A character of two texts together is one of the second or one of the first. -/
theorem append_eq_append_cons {s t a b : List Char} {c : Char} (h : s ++ t = a ++ c :: b) :
    (∃ m, a = s ++ m ∧ t = m ++ c :: b) ∨ ∃ m, s = a ++ c :: m ∧ b = m ++ t := by
  rcases List.append_eq_append_iff.1 h with ⟨m, ha, ht⟩ | ⟨m, hs, ht⟩
  · exact .inl ⟨m, ha, ht⟩
  · cases m with
    | nil => exact .inl ⟨[], by simp [hs], by simpa using ht.symm⟩
    | cons d m =>
      obtain ⟨rfl, rfl⟩ := List.cons.inj ht
      exact .inr ⟨m, hs, rfl⟩

/-- A character of a token that is in no word is the mark, or stands in the string. -/
theorem Token.split {t : Token} (h : t.Sound) {before after : List Char} {c : Char}
    (ht : t.text = before ++ c :: after) (hatom : isAtomChar c = false) (hq : c ≠ '"') :
    (t = .mark c ∧ before = [] ∧ after = []) ∨
      ∃ p q, t = .literal (p ++ c :: q) ∧ before = '"' :: p ∧ after = q ++ ['"'] ∧ InString before := by
  cases t with
  | mark d =>
    obtain ⟨rfl, h'⟩ | ⟨rfl, h'⟩ := List.append_eq_singleton_iff.1 ht.symm
    · obtain ⟨rfl, rfl⟩ := List.cons.inj h'
      exact .inl ⟨rfl, rfl, rfl⟩
    · cases h'
  | atom w =>
    have := h.2 c (by rw [show w = _ from ht]; simp)
    rw [hatom] at this
    cases this
  | literal raw =>
    cases before with
    | nil => exact absurd (List.cons.inj ht).1.symm hq
    | cons d p =>
      obtain ⟨rfl, hraw⟩ := List.cons.inj ht
      rcases append_eq_append_cons hraw with ⟨m, rfl, hm⟩ | ⟨q, rfl, rfl⟩
      · cases m with
        | nil => exact absurd (List.cons.inj hm).1.symm hq
        | cons => simp at hm
      · exact .inr ⟨p, q, rfl, rfl, rfl, Enclosed.foldl_ne h rfl⟩

/-- A character that is in neither a gap nor a word is a mark, or stands in a string. -/
theorem Spaced.split {ts : List Token} {s r : List Char} (h : Spaced ts s r) (hts : ∀ t ∈ ts, t.Sound)
    (hr : ∀ c ∈ r, isSpace c = true) {before after : List Char} {c : Char} (hs : s = before ++ c :: after)
    (hspace : isSpace c = false) (hatom : isAtomChar c = false) (hq : c ≠ '"') :
    (∃ us vs, ts = us ++ .mark c :: vs ∧ Laid us before ∧ Spaced vs after r) ∨
      Quoted ts before c after := by
  have hspaces : ∀ {gap : List Char}, (∀ d ∈ gap, isSpace d = true) → c ∉ gap := fun hg hc => by
    rw [hg c hc] at hspace
    cases hspace
  induction h generalizing before with
  | nil r => exact absurd (by simp [hs]) (hspaces hr)
  | @cons gap t ts s r hg h ih =>
    have ht := hts t (by simp)
    rcases append_eq_append_cons hs with ⟨_, rfl, hs'⟩ | ⟨m, hm, -⟩
    · rcases append_eq_append_cons hs' with ⟨m, rfl, hm⟩ | ⟨m, hm, rfl⟩
      · -- The character is behind the token.
        have hopen : InString (gap ++ (t.text ++ m)) ↔ InString m := by
          rw [← List.append_assoc, InString, List.foldl_append, ht.foldl_text hg, InString]
        rcases ih (fun u hu => hts u (by simp [hu])) hr hm with ⟨us, vs, rfl, ⟨r', hu, hr'⟩, hv⟩ |
          ⟨hin, p, q, front, back, hmem, hp, hq'⟩
        · exact .inl ⟨t :: us, vs, rfl, ⟨r', .cons hg hu, hr'⟩, hv⟩
        · exact .inr ⟨hopen.2 hin, p, q, gap ++ (t.text ++ front), back, by simp [hmem], by simp [hp], hq'⟩
      · -- The character is in the token.
        rcases Token.split ht hm hatom hq with ⟨rfl, rfl, rfl⟩ | ⟨p, q, rfl, rfl, rfl, hin⟩
        · exact .inl ⟨[], ts, rfl, ⟨gap ++ [], .nil _, by simpa using hg⟩, h⟩
        · refine .inr ⟨?_, p, q, gap, s, by simp, rfl, by simp⟩
          rwa [InString, List.foldl_append,
            foldl_outside fun hq => absurd (hg _ hq) (by decide)]
    · exact absurd (by simp [hm]) (hspaces hg)

/-- Where a string stands in a text. -/
theorem Spaced.exists_quoted {ts : List Token} {s r : List Char} (h : Spaced ts s r)
    (hts : ∀ t ∈ ts, t.Sound) {p q : List Char} {c : Char} (hmem : .literal (p ++ c :: q) ∈ ts) :
    ∃ front back, s = front ++ '"' :: p ++ c :: (q ++ '"' :: back) ∧ InString (front ++ '"' :: p) := by
  induction h with
  | nil => cases hmem
  | @cons gap t ts s r hg h ih =>
    have ht := hts t (by simp)
    rcases List.mem_cons.1 hmem with rfl | hmem
    · refine ⟨gap, s, by simp [Token.text], ?_⟩
      rw [InString, List.foldl_append, foldl_outside fun hq => absurd (hg _ hq) (by decide)]
      exact Enclosed.foldl_ne ht rfl
    · obtain ⟨front, back, rfl, hin⟩ := ih (fun u hu => hts u (by simp [hu])) hmem
      refine ⟨gap ++ t.text ++ front, back, by simp, ?_⟩
      rwa [List.append_assoc, InString, List.foldl_append, ht.foldl_text hg]

/-- A token opens and ends with no blank. -/
theorem Token.Sound.edges {t : Token} (h : t.Sound) :
    (∃ c ∈ t.text.head?, isBlank c = false) ∧ (∃ c ∈ t.text.getLast?, isBlank c = false) := by
  cases t with
  | mark c =>
    exact ⟨⟨c, rfl, isBlank_of_mem_marks h⟩, c, rfl, isBlank_of_mem_marks h⟩
  | literal raw => exact ⟨⟨'"', rfl, by decide⟩, '"', List.getLast?_concat (l := '"' :: raw), by decide⟩
  | atom w =>
    obtain ⟨hne, hw⟩ := h
    exact ⟨⟨w.head hne, List.head?_eq_some_head hne, isBlank_of_isAtomChar (hw _ (List.head_mem hne))⟩,
      w.getLast hne, List.getLast?_eq_some_getLast hne,
      isBlank_of_isAtomChar (hw _ (List.getLast_mem hne))⟩

theorem Token.Sound.squeezed {t : Token} (h : t.Sound) (hs : ∀ raw, t = .literal raw → Squeezed raw) :
    Squeezed t.text := by
  cases t with
  | mark c =>
    exact squeezed_of_not_blank (by simpa [Token.text] using isBlank_of_mem_marks h)
  | atom w => exact squeezed_of_not_blank fun c hc => isBlank_of_isAtomChar (h.2 c hc)
  | literal raw =>
    intro a c b ht hc
    have hatom : isAtomChar c = false := by
      rw [← Bool.not_eq_true]
      intro ha
      rw [isBlank_of_isAtomChar ha] at hc
      cases hc
    have hq : c ≠ '"' := by
      rintro rfl
      cases hc
    rcases Token.split h ht hatom hq with ⟨he, -⟩ | ⟨p, q, he, rfl, rfl, -⟩
    · cases he
    · cases he
      obtain ⟨hsp, hn⟩ := hs _ rfl p c q rfl hc
      refine ⟨hsp, ?_⟩
      cases q with
      | nil => simp; decide
      | cons d q => simpa using hn

theorem Laid.eq_nil {ts : List Token} (h : Laid ts []) (hts : ∀ t ∈ ts, t.Sound) : ts = [] := by
  obtain ⟨r, hs, -⟩ := h
  generalize he : ([] : List Char) = s at hs
  cases hs with
  | nil => rfl
  | @cons gap t ts s r hg h =>
    obtain ⟨⟨c, hc, -⟩, -⟩ := (hts t (by simp)).edges
    obtain ⟨-, he⟩ := List.append_eq_nil_iff.1 he.symm
    rw [(List.append_eq_nil_iff.1 he).1] at hc
    cases hc

section
variable {ts : List Token} {s r : List Char} (h : Spaced ts s r) (hts : ∀ t ∈ ts, t.Sound)
include h hts

/-- Line ends stand in gaps only, and without them the tokens are the same. -/
theorem Spaced.joinLines (hs : ∀ raw, .literal raw ∈ ts → Squeezed raw) :
    Spaced ts (s.filter (!isLineEnd ·)) (r.filter (!isLineEnd ·)) := by
  induction h with
  | nil => exact .nil _
  | @cons gap t ts s r hg h ih =>
    have ht : t.text.filter (!isLineEnd ·) = t.text := by
      rw [List.filter_eq_self]
      intro c hc
      rw [Bool.not_eq_true', ← Bool.not_eq_true]
      intro hl
      obtain ⟨a, b, hab⟩ := List.append_of_mem hc
      have hsq := (hts t (by simp)).squeezed fun raw he => hs raw (by simp [he])
      obtain ⟨rfl, -⟩ := hsq a c b hab (isBlank_of_isLineEnd hl)
      cases hl
    rw [List.filter_append, List.filter_append, ht]
    exact .cons (fun c hc => hg c (List.mem_filter.1 hc).1)
      (ih (fun u hu => hts u (by simp [hu])) fun raw hr => hs raw (by simp [hr]))

/-- Gaps are squeezed to spaces or to nothing. -/
theorem Spaced.squeeze (hs : ∀ raw, .literal raw ∈ ts → Squeezed raw) :
    Spaced ts (Text.squeeze s) (Text.squeeze r) := by
  induction h with
  | nil => exact .nil _
  | @cons gap t ts s r hg h ih =>
    have ht := hts t (by simp)
    obtain ⟨⟨c, hc, hb⟩, ⟨d, hd, hb'⟩⟩ := ht.edges
    obtain ⟨spaces, hsp, hgap⟩ := exists_squeeze_append (s := t.text ++ s)
      (fun e he => isBlank_of_isSpace (hg e he)) (by
        intro e he
        rw [List.head?_append, hc, Option.some_or, Option.mem_some] at he
        exact he ▸ hb)
    rw [hgap, squeeze_append (ht.squeezed fun raw he => hs raw (by simp [he])) fun e he => by
      rw [hd, Option.mem_some] at he
      exact he ▸ hb']
    exact .cons (fun e he => hsp e he ▸ by decide)
      (ih (fun u hu => hts u (by simp [hu])) fun raw hr => hs raw (by simp [hr]))

theorem Spaced.trimEnd : Spaced ts (Text.trimEnd s) (Text.trimEnd r) := by
  induction h with
  | nil => exact .nil _
  | @cons gap t ts s r hg h ih =>
    obtain ⟨-, d, hd, hb⟩ := (hts t (by simp)).edges
    rw [← List.append_assoc, trimEnd_append, List.append_assoc]
    · exact .cons hg (ih fun u hu => hts u (by simp [hu]))
    · intro e he
      rw [List.getLast?_append, hd, Option.some_or, Option.mem_some] at he
      exact he ▸ hb

theorem Spaced.trimStart (hne : ts ≠ []) :
    Spaced ts (Text.trimStart s) r ∧ ∃ c ∈ (Text.trimStart s).head?, isBlank c = false := by
  cases h with
  | nil => exact absurd rfl hne
  | @cons gap t ts s r hg h =>
    obtain ⟨⟨c, hc, hb⟩, -⟩ := (hts t (by simp)).edges
    have hhead : (t.text ++ s).head? = some c := by rw [List.head?_append, hc, Option.some_or]
    have hdrop : Text.trimStart (gap ++ (t.text ++ s)) = t.text ++ s := by
      rw [Text.trimStart, List.dropWhile_append_of_pos fun e he => isBlank_of_isSpace (hg e he)]
      cases hts' : t.text ++ s with
      | nil => rfl
      | cons d m =>
        rw [hts'] at hhead
        cases hhead
        rw [List.dropWhile_cons_of_neg (by simp [hb])]
    rw [hdrop]
    exact ⟨.token t h, c, hhead, hb⟩

/-- Two opening braces in a row stand in a string. -/
theorem Spaced.quoted_of_double (hr : ∀ c ∈ r, isSpace c = true) (hchain : ts.IsChain Apart)
    {a b : List Char} (hs : s = a ++ '\x7b' :: '\x7b' :: b) : Quoted ts a '\x7b' ('\x7b' :: b) := by
  rcases h.split hts hr hs (by decide) (by decide) (by decide) with ⟨us, vs, rfl, -, hv⟩ | hq
  · have hrest : '\x7b' :: b = [] ++ '\x7b' :: b := rfl
    rcases hv.split (fun t ht => hts t (by simp [ht])) hr hrest (by decide) (by decide) (by decide)
      with ⟨us', vs', rfl, hu', -⟩ | ⟨hin, -⟩
    · obtain rfl := hu'.eq_nil fun t ht => hts t (by simp [ht])
      have := (List.isChain_cons.1 (List.isChain_append.1 hchain).2.1).1 (.mark '\x7b') rfl rfl
      exact absurd rfl this
    · exact absurd rfl hin
  · exact hq

end

theorem not_quoted_nil {ts : List Token} {c : Char} {b : List Char} : ¬ Quoted ts [] c b :=
  fun h => absurd h.1 (by decide)

/-- Three closing braces of which the first stands in no string are three marks, and may be parted. -/
theorem Spaced.part {ts : List Token} {r a b : List Char}
    (h : Spaced ts (a ++ '\x7d' :: '\x7d' :: '\x7d' :: b) r) (hts : ∀ t ∈ ts, t.Sound)
    (hr : ∀ c ∈ r, isSpace c = true) (ha : ¬ Quoted ts a '\x7d' ('\x7d' :: '\x7d' :: b)) :
    Spaced ts (a ++ '\x7d' :: '\x7d' :: ' ' :: '\x7d' :: b) r := by
  have hmark : ∀ {ts : List Token} {a b : List Char}, Spaced ts (a ++ '\x7d' :: b) r →
      (∀ t ∈ ts, t.Sound) → ¬ Quoted ts a '\x7d' b →
      ∃ us vs, ts = us ++ .mark '\x7d' :: vs ∧ Laid us a ∧ Spaced vs b r ∧ ∀ t ∈ vs, t.Sound := by
    intro ts a b h hts ha
    rcases h.split hts hr rfl (by decide) (by decide) (by decide) with ⟨us, vs, rfl, hu, hv⟩ | hq
    · exact ⟨us, vs, rfl, hu, hv, fun t ht => hts t (by simp [ht])⟩
    · exact absurd hq ha
  obtain ⟨us, vs, rfl, hu, hv, hvs⟩ := hmark h hts ha
  obtain ⟨us', vs', rfl, hu', hv', hvs'⟩ := hmark (a := []) hv hvs not_quoted_nil
  obtain ⟨us'', vs'', rfl, hu'', hv'', -⟩ := hmark (a := []) hv' hvs' not_quoted_nil
  have hlast : Spaced (us'' ++ .mark '\x7d' :: vs'') (' ' :: '\x7d' :: b) r :=
    hv'.gap [' '] (by simp [isSpace]) (by simp)
  have hsecond : Spaced (.mark '\x7d' :: (us'' ++ .mark '\x7d' :: vs'')) ('\x7d' :: ' ' :: '\x7d' :: b) r :=
    .token (.mark '\x7d') hlast
  have hsecond' := hu'.append hsecond (by simp)
  exact hu.append (.token (.mark '\x7d') hsecond') (by simp)

/-- Strings are not touched when triple braces are parted. -/
theorem Laid.partBraces {ts : List Token} {s : List Char} (h : Laid ts s) (hts : ∀ t ∈ ts, t.Sound)
    (hopen : ¬ "\x7b\x7b\x7b".toList <:+: s)
    (hclose : ∀ a b, cutText? "\x7d\x7d\x7d".toList s = some (a, b) →
      ¬ Quoted ts a '\x7d' ('\x7d' :: '\x7d' :: b)) :
    Laid ts (Definition.partBraces s) := by
  obtain ⟨r, hs, hr⟩ := h
  have hfirst : replaceFirst "\x7b\x7b\x7b".toList "\x7b \x7b\x7b".toList s = s := by
    rw [replaceFirst, cutText?_eq_none hopen]
  rw [Definition.partBraces, hfirst, replaceFirst]
  cases hc : cutText? "\x7d\x7d\x7d".toList s with
  | none => exact ⟨r, hs, hr⟩
  | some p =>
    obtain ⟨a, b⟩ := p
    rw [cutText?_eq_some hc] at hs
    exact ⟨r, by simpa using hs.part hts hr (hclose a b hc), hr⟩

/-- A text whose line ends are dropped and whose blanks are squeezed is laid out of the same tokens. -/
theorem Laid.trim {ts : List Token} {s : List Char} (h : Laid ts s) (hts : ∀ t ∈ ts, t.Sound)
    (hne : ts ≠ []) (hs : ∀ raw, .literal raw ∈ ts → Squeezed raw) :
    Laid ts (Text.trim (Text.squeeze (s.filter (!isLineEnd ·)))) := by
  obtain ⟨r, h, hr⟩ := h
  obtain ⟨h, -⟩ := ((h.joinLines hts hs).squeeze hts hs).trimStart hts hne
  refine ⟨_, h.trimEnd hts, fun c hc => ?_⟩
  rcases mem_squeeze ((List.dropWhile_sublist isBlank).mem (List.mem_reverse.1 hc) |> List.mem_reverse.1)
    with rfl | hc
  · decide
  · exact hr c (List.mem_filter.1 hc).1

end MockTree.Json
