import MockTree.Definition.Head
import MockTree.Proofs.JsonSpacing
import MockTree.Text.Escape

/-! Words in a text. Escaping, squeezing blanks and parting braces bring nothing together that stood apart,
so a word in what they make of a text was there before. -/
namespace MockTree
namespace Text

/-- A word stands on one side of a character that is not in it. -/
theorem infix_append_cons {w a b : List Char} {c : Char} (hc : c ∉ w) (h : w <:+: a ++ c :: b) :
    w <:+: a ∨ w <:+: b := by
  obtain ⟨front, back, h⟩ := h
  rcases Json.append_eq_append_cons h with ⟨m, rfl, -⟩ | ⟨m, hm, rfl⟩
  · exact .inl ⟨front, m, rfl⟩
  · rcases Json.append_eq_append_cons hm with ⟨p, -, rfl⟩ | ⟨p, -, rfl⟩
    · exact absurd (by simp) hc
    · exact .inr ⟨p, back, rfl⟩

/-- A text that opens with a word which is not before a character stands behind it. -/
theorem suffix_of_suffix_append_cons {w r a b : List Char} {c : Char} (hc : c ∉ w) (hw : ¬ w <:+: a)
    (h : w ++ r <:+ a ++ c :: b) : w ++ r <:+ b := by
  obtain ⟨front, h⟩ := h
  rw [← List.append_assoc] at h
  rcases Json.append_eq_append_cons h with ⟨m, rfl, -⟩ | ⟨m, hm, rfl⟩
  · exact absurd ⟨front, m, rfl⟩ hw
  · rcases Json.append_eq_append_cons hm with ⟨p, -, rfl⟩ | ⟨p, -, rfl⟩
    · exact absurd (by simp) hc
    · exact ⟨p, by simp⟩

/-- A word stands behind what its first character is not in. -/
theorem infix_of_infix_append {c : Char} {w a b : List Char} (hc : c ∉ a) (h : c :: w <:+: a ++ b) :
    c :: w <:+: b := by
  induction a with
  | nil => exact h
  | cons d a ih =>
    simp only [List.mem_cons, not_or] at hc
    rcases List.infix_cons_iff.1 h with hp | hi
    · exact absurd (List.cons_prefix_cons.1 hp).1 hc.1
    · exact ih hc.2 hi

/-- The characters that become references. -/
def specials : List Char := ['&', '"', '\'', Char.ofNat 96, '<', '>']

/-- What references are made of, behind an ampersand. -/
def referenceLetters : List Char := "#0267;agilmopqtux".toList

theorem escapeChar_cases (c : Char) :
    escapeChar c = [c] ∨
      c ∈ specials ∧ ∃ name, escapeChar c = '&' :: name ∧ ∀ d ∈ name, d ∈ referenceLetters := by
  by_cases h : c ∈ specials
  · have hall : (specials.all fun c => (escapeChar c).head? == some '&' &&
        (escapeChar c).tail.all (referenceLetters.contains ·)) = true := by decide
    have hc := List.all_eq_true.1 hall c h
    rw [Bool.and_eq_true, beq_iff_eq] at hc
    exact .inr ⟨h, _, (List.cons_head?_tail hc.1).symm, by simpa using hc.2⟩
  · refine .inl ?_
    have hback : c.toNat ≠ 96 := fun he => by
      obtain rfl := Char.toNat_inj.1 (show c.toNat = (Char.ofNat 96).toNat from he)
      exact h (by decide)
    simp only [specials, List.mem_cons, List.not_mem_nil, or_false, not_or] at h
    simp [escapeChar, h, hback]

theorem prefix_of_prefix_escape {w s : List Char} (hw : '&' ∉ w) (h : w <+: escape s) : w <+: s := by
  induction s generalizing w with
  | nil => exact h
  | cons d s ih =>
    cases w with
    | nil => exact List.nil_prefix
    | cons c w =>
      simp only [List.mem_cons, not_or] at hw
      rw [escape, List.flatMap_cons] at h
      rcases escapeChar_cases d with hd | ⟨-, name, hd, -⟩
      · rw [hd] at h
        obtain ⟨rfl, hp⟩ := List.cons_prefix_cons.1 h
        exact List.cons_prefix_cons.2 ⟨rfl, ih hw.2 hp⟩
      · rw [hd] at h
        exact absurd (List.cons_prefix_cons.1 h).1.symm hw.1

/-- A word that no reference begins or holds is in an escaped text only if it was in the text. -/
theorem infix_of_infix_escape {c : Char} {w s : List Char} (hc : c ∉ referenceLetters)
    (hw : '&' ∉ c :: w) (h : c :: w <:+: escape s) : c :: w <:+: s := by
  induction s with
  | nil => exact h
  | cons d s ih =>
    have hs : escape (d :: s) = escapeChar d ++ escape s := List.flatMap_cons
    rw [hs] at h
    rcases escapeChar_cases d with hd | ⟨-, name, hd, hname⟩
    · rw [hd] at h
      rcases List.infix_cons_iff.1 h with hp | hi
      · exact (prefix_of_prefix_escape hw (by rw [hs, hd]; exact hp)).isInfix
      · exact List.infix_cons (ih hi)
    · rw [hd] at h
      have hnot : c ∉ '&' :: name := by
        simp only [List.mem_cons, not_or] at hw ⊢
        exact ⟨Ne.symm hw.1, fun hm => hc (hname c hm)⟩
      exact List.infix_cons (ih (infix_of_infix_append hnot h))

/-- Characters that are neither special nor in references may be dropped before escaping. -/
theorem filter_escape {p : Char → Bool} (hp : ∀ c ∈ specials ++ '&' :: referenceLetters, p c = true)
    (s : List Char) : (escape s).filter p = escape (s.filter p) := by
  induction s with
  | nil => rfl
  | cons d s ih =>
    have hs : ∀ d s, escape (d :: s) = escapeChar d ++ escape s := fun _ _ => List.flatMap_cons
    rw [hs, List.filter_append, ih, List.filter_cons]
    rcases escapeChar_cases d with hd | ⟨hmem, name, hd, hname⟩
    · rw [hd, List.filter_singleton]
      cases p d
      · rfl
      · simp [hs, hd]
    · have hall : ∀ c ∈ '&' :: name, p c = true := by
        intro c hc
        rcases List.mem_cons.1 hc with rfl | hc
        · exact hp _ (by simp)
        · exact hp _ (by simp [hname c hc])
      rw [if_pos (hp d (by simp [hmem])), hs, hd, List.filter_eq_self.2 hall]

theorem eq_nil_of_prefix_blank {w s : List Char} {c : Char} (hw : ∀ d ∈ w, isBlank d = false)
    (hc : isBlank c = true) (h : w <+: c :: s) : w = [] := by
  cases w with
  | nil => rfl
  | cons d w =>
    obtain ⟨rfl, -⟩ := List.cons_prefix_cons.1 h
    exact absurd hc (by simp [hw d (by simp)])

theorem prefix_of_prefix_squeeze {w s : List Char} (hw : ∀ c ∈ w, isBlank c = false)
    (h : w <+: squeeze s) : w <+: s := by
  fun_induction squeeze s generalizing w with
  | case1 => exact h
  | case2 d e r _ he ih =>
    rw [eq_nil_of_prefix_blank hw he (ih hw h)]
    exact List.nil_prefix
  | case3 d e r _ _ ih =>
    rw [eq_nil_of_prefix_blank hw isBlank_space h]
    exact List.nil_prefix
  | case4 d _ =>
    rw [eq_nil_of_prefix_blank hw isBlank_space h]
    exact List.nil_prefix
  | case5 d r _ ih =>
    cases w with
    | nil => exact List.nil_prefix
    | cons c w =>
      obtain ⟨rfl, hp⟩ := List.cons_prefix_cons.1 h
      exact List.cons_prefix_cons.2 ⟨rfl, ih (fun x hx => hw x (by simp [hx])) hp⟩

/-- Squeezing brings no two characters together. -/
theorem infix_of_infix_squeeze {w s : List Char} (hw : ∀ c ∈ w, isBlank c = false)
    (h : w <:+: squeeze s) : w <:+: s := by
  fun_induction squeeze s with
  | case1 => exact h
  | case2 d e r _ _ ih => exact List.infix_cons (ih h)
  | case3 d e r _ _ ih =>
    rcases List.infix_cons_iff.1 h with hp | hi
    · rw [eq_nil_of_prefix_blank hw isBlank_space hp]
      exact List.nil_infix
    · exact List.infix_cons (ih hi)
  | case4 d _ =>
    rcases List.infix_cons_iff.1 h with hp | hi
    · rw [eq_nil_of_prefix_blank hw isBlank_space hp]
      exact List.nil_infix
    · exact List.infix_cons hi
  | case5 d r hd ih =>
    rcases List.infix_cons_iff.1 h with hp | hi
    · have hs : squeeze (d :: r) = d :: squeeze r := by simp [squeeze, hd]
      exact (prefix_of_prefix_squeeze hw (by rw [hs]; exact hp)).isInfix
    · exact List.infix_cons (ih hi)

theorem isInfix_trim (s : List Char) : trim s <:+: s := by
  have hend : trimEnd (trimStart s) <+: trimStart s := by
    rw [trimEnd, ← List.reverse_suffix, List.reverse_reverse]
    exact List.dropWhile_suffix _
  exact hend.isInfix.trans (List.dropWhile_suffix _).isInfix

theorem filter_dropWhile_blank (s : List Char) :
    (s.dropWhile isBlank).filter (!isBlank ·) = s.filter (!isBlank ·) := by
  induction s with
  | nil => rfl
  | cons c s ih =>
    by_cases hc : isBlank c = true
    · rw [List.dropWhile_cons_of_pos hc, ih, List.filter_cons_of_neg (by simp [hc])]
    · rw [List.dropWhile_cons_of_neg hc]

theorem filter_trim (s : List Char) : (trim s).filter (!isBlank ·) = s.filter (!isBlank ·) := by
  rw [trim, trimEnd, List.filter_reverse, filter_dropWhile_blank, List.filter_reverse,
    List.reverse_reverse, trimStart, filter_dropWhile_blank]

/-- A piece is parted at its first place, if it is there. -/
theorem replaceFirst_parted (p q : List Char) (c : Char) (s : List Char) :
    ¬ p ++ q <:+: s ∧ replaceFirst (p ++ q) (p ++ c :: q) s = s ∨
      ∃ a b, s = a ++ p ++ (q ++ b) ∧ replaceFirst (p ++ q) (p ++ c :: q) s = a ++ p ++ c :: (q ++ b) := by
  rw [replaceFirst]
  split
  · next a b h => exact .inr ⟨a, b, by simp [cutText?_eq_some h], by simp⟩
  · next h => exact .inl ⟨not_infix_of_cutText? h, rfl⟩

end Text

namespace Definition
open Text

/-- Parting braces puts spaces into a text, at two places at most. -/
theorem partBraces_parted {P : List Char → Prop} (hspace : ∀ a b, P (a ++ b) → P (a ++ ' ' :: b))
    {s : List Char} (h : P s) : P (partBraces s) := by
  have hstep : ∀ p q s, P s → P (replaceFirst (p ++ q) (p ++ ' ' :: q) s) := by
    intro p q s hs
    rcases replaceFirst_parted p q ' ' s with ⟨-, he⟩ | ⟨a, b, rfl, he⟩
    · rwa [he]
    · rw [he]
      exact hspace (a ++ p) (q ++ b) hs
  exact hstep "\x7d\x7d".toList "\x7d".toList _ (hstep "\x7b".toList "\x7b\x7b".toList _ h)

/-- Normalizing makes no word without blanks. -/
theorem infix_of_infix_normalize {w s : List Char} (hw : ∀ c ∈ w, isBlank c = false)
    (h : w <:+: normalize s) : w <:+: s := by
  have hspace : ' ' ∉ w := fun hm => by simpa [isBlank_space] using hw _ hm
  have htrimmed : w <:+: trim (squeeze s) :=
    partBraces_parted (P := fun t => w <:+: t → w <:+: trim (squeeze s))
      (fun a b hab hi => hab ((infix_append_cons hspace hi).elim
        (fun ha => ha.trans (List.prefix_append a b).isInfix)
        fun hb => hb.trans (List.suffix_append a b).isInfix)) id h
  exact infix_of_infix_squeeze hw (htrimmed.trans (isInfix_trim _))

theorem filter_normalize (s : List Char) :
    (normalize s).filter (!isBlank ·) = s.filter (!isBlank ·) := by
  have hparted : (normalize s).filter (!isBlank ·) = (trim (squeeze s)).filter (!isBlank ·) :=
    partBraces_parted (P := fun t => t.filter (!isBlank ·) = (trim (squeeze s)).filter (!isBlank ·))
      (fun a b hab => by simpa [isBlank_space] using hab) rfl
  rw [hparted, filter_trim, filter_squeeze]

end Definition

end MockTree
