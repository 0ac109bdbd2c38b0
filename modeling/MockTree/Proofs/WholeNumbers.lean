import Mathlib.Data.List.DropRight
import MockTree.Proofs.JsonScalars
import MockTree.Proofs.Respacing
import MockTree.Proofs.StatusLine

/-! Whole numbers in a text. What may stand around one, what one is made of, and that spaces put in or taken
out side by side make no difference to it. -/
namespace MockTree
namespace Text

/-- A text without the characters of a kind at its ends. -/
def strip (p : Char → Bool) (s : List Char) : List Char := (s.dropWhile p).rdropWhile p

theorem trim_eq_strip (s : List Char) : trim s = strip isBlank s := rfl

theorem trimMargin_eq_strip (s : List Char) : Decimal.trimMargin s = strip Decimal.isMargin s := rfl

section
variable {p : Char → Bool}

theorem dropWhile_congr {q : Char → Bool} {s : List Char} (h : ∀ c ∈ s, p c = q c) :
    s.dropWhile p = s.dropWhile q := by
  induction s with
  | nil => rfl
  | cons c s ih =>
    obtain ⟨hc, hs⟩ := List.forall_mem_cons.1 h
    rw [List.dropWhile_cons, List.dropWhile_cons, hc, ih hs]

theorem strip_congr {q : Char → Bool} {s : List Char} (h : ∀ c ∈ s, p c = q c) : strip p s = strip q s := by
  rw [strip, strip, dropWhile_congr h, List.rdropWhile, List.rdropWhile]
  congr 1
  exact dropWhile_congr fun c hc => h c ((List.dropWhile_sublist q).mem (List.mem_reverse.1 hc))

theorem strip_of_not {s : List Char} (h : ∀ c ∈ s, p c = false) : strip p s = s := by
  have hself {s : List Char} (h : ∀ c ∈ s, p c = false) : s.dropWhile p = s :=
    List.dropWhile_eq_self_iff.2 fun hl => by simp [h _ (List.getElem_mem hl)]
  rw [strip, hself h, List.rdropWhile, hself fun c hc => h c (List.mem_reverse.1 hc), List.reverse_reverse]

theorem strip_strip (s : List Char) : strip p (strip p s) = strip p s := by
  have hfront : (strip p s).dropWhile p = strip p s := by
    obtain ⟨r, hr⟩ := List.rdropWhile_prefix p (s.dropWhile p)
    refine List.dropWhile_eq_self_iff.2 fun hl => ?_
    have hhead : (s.dropWhile p)[0]? = some ((strip p s)[0]) := by
      rw [← hr, ← strip, List.getElem?_append_left hl, List.getElem?_eq_getElem hl]
    have hnot := List.head?_dropWhile_not p s
    rw [List.head?_eq_getElem?, hhead] at hnot
    simpa using hnot
  rw [strip, hfront, strip, List.rdropWhile_idempotent]

theorem mem_of_mem_strip {s : List Char} {c : Char} (h : c ∈ strip p s) : c ∈ s :=
  (List.dropWhile_sublist p).mem ((List.rdropWhile_prefix p _).subset h)

theorem mem_dropWhile {s : List Char} {c : Char} (hc : c ∈ s) (hp : p c = false) : c ∈ s.dropWhile p := by
  rw [← List.takeWhile_append_dropWhile (p := p) (l := s), List.mem_append] at hc
  refine hc.resolve_left fun h => ?_
  rw [List.mem_takeWhile_imp h] at hp
  cases hp

theorem mem_strip {s : List Char} {c : Char} (hc : c ∈ s) (hp : p c = false) : c ∈ strip p s :=
  List.mem_reverse.2 (mem_dropWhile (List.mem_reverse.2 (mem_dropWhile hc hp)) hp)

theorem strip_append_left {a : List Char} (h : ∀ c ∈ a, p c = true) (s : List Char) :
    strip p (a ++ s) = strip p s := by
  rw [strip, List.dropWhile_append_of_pos h, strip]

theorem strip_append_right {b : List Char} (h : ∀ c ∈ b, p c = true) (s : List Char) :
    strip p (s ++ b) = strip p s := by
  by_cases hs : ∀ c ∈ s, p c = true
  · rw [strip, strip, List.dropWhile_eq_nil_iff.2 (List.forall_mem_append.2 ⟨hs, h⟩), List.dropWhile_eq_nil_iff.2 hs]
  · have hne : (s.dropWhile p).isEmpty = false := by
      simpa [List.isEmpty_eq_false_iff] using hs
    rw [strip, List.dropWhile_append, hne, if_neg (by simp), List.rdropWhile, List.reverse_append,
      List.dropWhile_append_of_pos fun c hc => h c (List.mem_reverse.1 hc)]
    rfl

/-- A character between two that stay stays. -/
theorem mem_strip_between {a b : List Char} (ha : ∃ c ∈ a, p c = false) (hb : ∃ c ∈ b, p c = false) (c : Char) :
    c ∈ strip p (a ++ c :: b) := by
  obtain ⟨x, hx, hpx⟩ := ha
  obtain ⟨y, hy, hpy⟩ := hb
  have hfront : (a.dropWhile p).isEmpty = false := by
    rw [List.isEmpty_eq_false_iff]
    exact List.ne_nil_of_mem (mem_dropWhile hx hpx)
  have hback : (b.reverse.dropWhile p).isEmpty = false := by
    rw [List.isEmpty_eq_false_iff]
    exact List.ne_nil_of_mem (mem_dropWhile (List.mem_reverse.2 hy) hpy)
  rw [strip, List.dropWhile_append, hfront, if_neg (by simp), List.rdropWhile, List.reverse_append,
    List.reverse_cons, List.append_assoc, List.dropWhile_append, hback, if_neg (by simp)]
  simp

end
end Text

namespace Decimal
open Text

/-- A character that a whole number may be written with: a digit of any script, a sign or an underscore. -/
def Numeral (c : Char) : Prop := (plainDigit c).isDigit = true ∨ plainDigit c ∈ ['+', '-', '_']

instance : DecidablePred Numeral := fun _ => inferInstanceAs (Decidable (_ ∨ _))

theorem mem_of_sign {s ds : List Char} {negative : Bool} (h : sign s = (negative, ds)) {c : Char} (hc : c ∈ s) :
    c ∈ ['+', '-', '_'] ∨ c ∈ ds := by
  rw [sign.eq_def] at h
  split at h
  · cases h
    exact (List.mem_cons.1 hc).imp_left fun he => by simp [he]
  · cases h
    exact (List.mem_cons.1 hc).imp_left fun he => by simp [he]
  · cases h
    exact .inr hc

theorem mem_of_dropUnderscores? {b : Bool} {s t : List Char} (h : dropUnderscores? b s = some t) {c : Char}
    (hc : c ∈ s) : c = '_' ∨ c ∈ t := by
  fun_induction dropUnderscores? b s generalizing t with
  | case1 => cases hc
  | case2 b d r hd ih => exact (List.mem_cons.1 hc).elim .inl fun hc => ih h hc
  | case3 => cases h
  | case4 => cases h
  | case5 b d r hd ih =>
    obtain ⟨t, ht, rfl⟩ := Option.map_eq_some_iff.1 h
    exact (List.mem_cons.1 hc).elim (fun he => .inr (he ▸ List.mem_cons_self)) fun hc =>
      (ih ht hc).imp_right (List.mem_cons_of_mem _)

/-- A whole number has nothing but numerals in it. -/
theorem numeral_of_readInt? {s : List Char} {n : ℤ} (h : readInt? s = some n) {c : Char}
    (hc : c ∈ trimMargin s) : Numeral c := by
  rw [readInt?] at h
  generalize hsign : sign ((trimMargin s).map plainDigit) = parts at h
  obtain ⟨negative, ds⟩ := parts
  obtain ⟨es, hes, h⟩ := Option.bind_eq_some_iff.1 h
  have hall : allDigits es = true := by
    split at h
    · next hd => exact (Bool.and_eq_true_iff.1 hd).1
    · cases h
  rcases mem_of_sign hsign (List.mem_map_of_mem hc) with hm | hm
  · exact .inr hm
  · rcases mem_of_dropUnderscores? hes hm with he | hm
    · exact .inr (by simp [he])
    · exact .inl (List.all_eq_true.1 (Bool.and_eq_true_iff.1 hall).2 _ hm)

theorem readInt?_eq_none {s : List Char} {c : Char} (hc : c ∈ trimMargin s) (hn : ¬ Numeral c) :
    readInt? s = none := by
  rw [Option.eq_none_iff_forall_ne_some]
  exact fun n h => hn (numeral_of_readInt? h hc)

theorem readInt?_congr {s t : List Char} (h : trimMargin s = trimMargin t) : readInt? s = readInt? t := by
  rw [readInt?, readInt?, h]

theorem not_numeral_of_isBlank {c : Char} (h : isBlank c = true) : ¬ Numeral c := by
  have hplain : plainDigit c = c := by rw [plainDigit, Definition.decimalValue?_of_blank h]
  simp only [isBlank, Bool.or_eq_true, Bool.and_eq_true, decide_eq_true_eq, beq_iff_eq] at h
  rw [Numeral, hplain]
  rintro (hd | hm)
  · have := isDigit_iff.1 hd
    omega
  · simp only [List.mem_cons, List.not_mem_nil, or_false] at hm
    rcases hm with rfl | rfl | rfl <;> revert h <;> decide

/-- Spaces put in or taken out side by side make no difference to a whole number. -/
theorem readInt?_respace {s t : List Char} (h : Respace s t) : readInt? s = readInt? t := by
  have hspace : isMargin ' ' = true := rfl
  cases h with
  | drop a b =>
    by_cases ha : ∀ c ∈ a, isMargin c = true
    · refine readInt?_congr ?_
      have htwo : ∀ c ∈ a ++ [' ', ' '], isMargin c = true := List.forall_mem_append.2 ⟨ha, by simp [hspace]⟩
      have hone : ∀ c ∈ a ++ [' '], isMargin c = true := List.forall_mem_append.2 ⟨ha, by simp [hspace]⟩
      have hl := (strip_append_left htwo b).trans (strip_append_left hone b).symm
      simpa [trimMargin_eq_strip] using hl
    by_cases hb : ∀ c ∈ b, isMargin c = true
    · refine readInt?_congr ?_
      have htwo : ∀ c ∈ ' ' :: ' ' :: b, isMargin c = true :=
        List.forall_mem_cons.2 ⟨hspace, List.forall_mem_cons.2 ⟨hspace, hb⟩⟩
      have hone : ∀ c ∈ ' ' :: b, isMargin c = true := List.forall_mem_cons.2 ⟨hspace, hb⟩
      exact (strip_append_right htwo a).trans (strip_append_right hone a).symm
    · -- Between characters that stay, a space is no part of a number.
      have hnot : ¬ Numeral ' ' := not_numeral_of_isBlank rfl
      simp only [not_forall, Bool.not_eq_true, exists_prop] at ha hb
      obtain ⟨y, hy, hm⟩ := hb
      rw [readInt?_eq_none (mem_strip_between ha ⟨y, List.mem_cons_of_mem _ hy, hm⟩ ' ') hnot,
        readInt?_eq_none (mem_strip_between ha ⟨y, hy, hm⟩ ' ') hnot]
  | @part c hc a b =>
    obtain ⟨hm, hn⟩ : isMargin c = false ∧ ¬ Numeral c := by
      rcases mem_braces.1 hc with rfl | rfl <;> exact ⟨rfl, by decide⟩
    rw [readInt?_eq_none (mem_strip (by simp) hm) hn, readInt?_eq_none (mem_strip (by simp) hm) hn]

theorem readInt?_respaced {s t : List Char} (h : Respaced s t) : readInt? s = readInt? t := by
  induction h with
  | refl => rfl
  | tail _ hstep ih => exact ih.trans (readInt?_respace hstep)

/-- A blank that may not stand around a number. -/
def isSeparator (c : Char) : Bool := 28 ≤ c.toNat && c.toNat ≤ 31

theorem isBlank_of_isSeparator {c : Char} (h : isSeparator c = true) : isBlank c = true := by
  simp only [isSeparator, isBlank, Bool.or_eq_true, Bool.and_eq_true, decide_eq_true_eq, beq_iff_eq] at h ⊢
  omega

/-- A number in a trimmed text is one of the whole text, just when there is no separator around it. -/
theorem readInt?_of_trim {s : List Char} {n : ℤ} (h : readInt? (trim s) = some n) :
    readInt? s = if s.any isSeparator then none else some n := by
  split
  · next hany =>
    obtain ⟨c, hc, hsep⟩ := List.any_eq_true.1 hany
    refine readInt?_eq_none (mem_strip hc ?_) (not_numeral_of_isBlank (isBlank_of_isSeparator hsep))
    rw [isMargin, show (28 ≤ c.toNat && c.toNat ≤ 31) = true from hsep]
    simp
  · next hany =>
    have hagree : ∀ c ∈ s, isMargin c = isBlank c := fun c hc => by
      have hsep : isSeparator c = false := by
        simpa using fun h => hany (List.any_eq_true.2 ⟨c, hc, h⟩)
      rw [isMargin, show (28 ≤ c.toNat && c.toNat ≤ 31) = false from hsep]
      simp
    rw [← h]
    refine readInt?_congr ?_
    rw [trimMargin_eq_strip, trimMargin_eq_strip, trim_eq_strip, strip_congr hagree]
    exact (strip_congr fun c hc => hagree c (mem_of_mem_strip hc)).trans (strip_strip s) |>.symm

theorem plainDigit_of_isDigit {c : Char} (h : c.isDigit = true) : plainDigit c = c := by
  have hc := isDigit_iff.1 h
  rw [plainDigit, decimalValue?, if_pos (by omega), if_pos h]
  simp only [Nat.add_sub_cancel' hc.1, Char.ofNat_toNat]

/-- A text without underscores loses nothing. -/
theorem dropUnderscores?_of_not_mem {s : List Char} (h : '_' ∉ s) (b : Bool) : dropUnderscores? b s = some s := by
  induction s generalizing b with
  | nil => rfl
  | cons c s ih =>
    obtain ⟨hc, hs⟩ := not_or.1 (List.mem_cons.not.1 h)
    rw [dropUnderscores?.eq_4 _ _ _ (fun e => hc e.symm), ih hs]
    rfl

theorem dropUnderscores?_digits {s : List Char} (h : ∀ c ∈ s, c.isDigit = true) (b : Bool) :
    dropUnderscores? b s = some s := by
  apply dropUnderscores?_of_not_mem
  intro hm
  cases h '_' hm

theorem sign_digits {c : Char} (h : c.isDigit = true) (s : List Char) : sign (c :: s) = (false, c :: s) := by
  rw [sign.eq_def]
  split
  · next he =>
    cases he
    cases h
  · next he =>
    cases he
    cases h
  · rfl

end Decimal
end MockTree
