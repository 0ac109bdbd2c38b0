import MockTree.Proofs.Filling
import MockTree.Proofs.Head
import MockTree.Proofs.Text

/-! The head of a definition with holes. Where no value breaks a line and no line can turn blank, the
head of the filled text is the head of the text with its lines filled. -/
namespace MockTree
open Text Template

namespace Definition

def isBlankSymbol : Symbol → Bool
  | .char c => isBlank c
  | .hole _ => false

/-- The lines before the first blank one of a text with holes, given the symbols already read of the
current line, last first. -/
def headFrom (line : List Symbol) : List Symbol → List (List Symbol)
  | [] => if line.all isBlankSymbol then [] else [line.reverse]
  | .char '\r' :: .char '\n' :: r =>
    if line.all isBlankSymbol then [] else line.reverse :: headFrom [] r
  | .char c :: r =>
    if isLineEnd c then if line.all isBlankSymbol then [] else line.reverse :: headFrom [] r
    else headFrom (.char c :: line) r
  | .hole key :: r => headFrom (.hole key :: line) r

def headSymbols (d : List Symbol) : List (List Symbol) := headFrom [] d

/-- The text of symbols, if none of them is a hole. -/
def literal? : List Symbol → Option (List Char)
  | [] => some []
  | .char c :: r => (literal? r).map (c :: ·)
  | .hole _ :: _ => none

/-- The text before the first colon, if no hole comes before it. -/
def beforeColon? : List Symbol → Option (List Char)
  | [] => none
  | .char c :: r => if c == ':' then some [] else (beforeColon? r).map (c :: ·)
  | .hole _ :: _ => none

/-- A line that is the same kind of line whatever is filled in: there is no hole in it, or it is a
header that sets no delay, with the holes in its value. -/
def Firm (l : List Symbol) : Prop :=
  (literal? l).isSome = true ∨
  (beforeColon? l).any (fun name => !startsWith "HTTP".toList name && trim name != delayName) = true

instance (l : List Symbol) : Decidable (Firm l) := inferInstanceAs (Decidable (_ ∨ _))

theorem eq_of_literal? {l : List Symbol} {s : List Char} (h : literal? l = some s) :
    l = s.map .char := by
  induction l generalizing s with
  | nil => cases h; rfl
  | cons x r ih =>
    cases x with
    | hole key => cases h
    | char c =>
      obtain ⟨t, ht, rfl⟩ := Option.map_eq_some_iff.1 h
      rw [ih ht, List.map_cons]

theorem fill_of_beforeColon? {l : List Symbol} {name : List Char} (h : beforeColon? l = some name)
    (query : List (String × Value)) :
    ':' ∉ name ∧ ∃ value, fill query l = name ++ ':' :: value := by
  induction l generalizing name with
  | nil => cases h
  | cons x r ih =>
    cases x with
    | hole key => cases h
    | char c =>
      rw [beforeColon?] at h
      split at h
      · next hc =>
        cases h
        rw [eq_of_beq hc]
        exact ⟨by simp, fill query r, rfl⟩
      · next hc =>
        obtain ⟨t, ht, rfl⟩ := Option.map_eq_some_iff.1 h
        obtain ⟨hn, value, hv⟩ := ih ht
        have hne : ':' ≠ c := fun e => hc (by simp [← e])
        refine ⟨by simp [hne, hn], value, ?_⟩
        rw [fill_cons, hv]
        rfl

/-- A firm line with something in it that is no blank is not blank when it is filled. -/
theorem Firm.not_blank {l : List Symbol} (h : Firm l) (hb : l.all isBlankSymbol = false)
    (q : List (String × Value)) : (trim (fill q l)).isEmpty = false := by
  rw [trim_isEmpty, ← Bool.not_eq_true, List.all_eq_true]
  intro hall
  rcases h with h | h
  · obtain ⟨s, hs⟩ := Option.isSome_iff_exists.1 h
    rw [eq_of_literal? hs, fill_chars] at hall
    rw [eq_of_literal? hs, ← Bool.not_eq_true, List.all_eq_true] at hb
    refine hb fun x hx => ?_
    obtain ⟨c, hc, rfl⟩ := List.mem_map.1 hx
    exact hall c hc
  · obtain ⟨name, hname, -⟩ := (Option.any_eq_true _ _).1 h
    obtain ⟨-, value, hv⟩ := fill_of_beforeColon? hname q
    have hcolon := hall ':' (by simp [hv])
    exact absurd hcolon (by decide)

theorem blank_fill {l : List Symbol} (h : l.all isBlankSymbol = true) (q : List (String × Value)) :
    (trim (fill q l)).isEmpty = true := by
  rw [trim_isEmpty, List.all_eq_true]
  intro c hc
  obtain ⟨x, hx, hc⟩ := List.mem_flatMap.1 hc
  have hb := List.all_eq_true.1 h x hx
  cases x with
  | hole key => cases hb
  | char d =>
    rw [Symbol.fill, List.mem_singleton] at hc
    rw [hc]
    exact hb

/-- A line that is not blank as far as it has been read is one of the head. -/
theorem exists_prefix_headFrom {line : List Symbol} (h : line.all isBlankSymbol = false)
    (d : List Symbol) : ∃ l ∈ headFrom line d, line.reverse <+: l := by
  fun_induction headFrom line d with
  | case1 line hb => rw [h] at hb; cases hb
  | case2 line hb => exact ⟨_, by simp, List.prefix_rfl⟩
  | case3 line r hb => rw [h] at hb; cases hb
  | case4 line r hb ih => exact ⟨_, by simp, List.prefix_rfl⟩
  | case5 line c r hr hc hb => rw [h] at hb; cases hb
  | case6 line c r hr hc hb ih => exact ⟨_, by simp, List.prefix_rfl⟩
  | case7 line c r hr hc ih =>
    obtain ⟨l, hl, hp⟩ := ih (by simp [h])
    exact ⟨l, hl, (by simp : line.reverse <+: (Symbol.char c :: line).reverse).trans hp⟩
  | case8 line key r ih =>
    obtain ⟨l, hl, hp⟩ := ih (by simp [h])
    exact ⟨l, hl, (by simp : line.reverse <+: (Symbol.hole key :: line).reverse).trans hp⟩

/-- A firm line does not open with a hole. -/
theorem Firm.not_hole {key : String} {l : List Symbol} (h : [Symbol.hole key] <+: l) : ¬ Firm l := by
  obtain ⟨r, rfl⟩ := h
  rintro (h | h) <;> cases h

theorem headOf_cons_blank {l : List Char} (h : (trim l).isEmpty = true) (ls : List (List Char)) :
    headOf (l :: ls) = [] := by
  simp [headOf, h]

theorem headOf_cons {l : List Char} (h : (trim l).isEmpty = false) (ls : List (List Char)) :
    headOf (l :: ls) = l :: headOf ls := by
  simp [headOf, h]

theorem all_reverse_blank {line : List Symbol} {b : Bool} (h : line.all isBlankSymbol = b) :
    line.reverse.all isBlankSymbol = b := by
  rw [List.all_reverse, h]

/-- The head of a filled text is the head of the text, filled. -/
theorem headOf_fill {q : List (String × Value)} {line d : List Symbol}
    (hfirm : ∀ l ∈ headFrom line d, Firm l)
    (hq : ∀ l ∈ headFrom line d, ∀ c ∈ fill q l, isLineEnd c = false) :
    headOf (linesFrom (fill q line.reverse).reverse (fill q d)) = (headFrom line d).map (fill q) := by
  fun_induction headFrom line d with
  | case1 line hb =>
    rw [fill_nil, linesFrom]
    split
    · rfl
    · rw [List.reverse_reverse, headOf_cons_blank (blank_fill (all_reverse_blank hb) q)]
      rfl
  | case2 line hb =>
    have hn := (hfirm line.reverse (by simp)).not_blank (all_reverse_blank (by simpa using hb)) q
    have hne : fill q line.reverse ≠ [] := by
      intro he
      rw [he] at hn
      cases hn
    rw [fill_nil, linesFrom, if_neg (by simpa using hne), List.reverse_reverse, headOf_cons hn]
    rfl
  | case3 line r hb =>
    obtain ⟨rest, hr⟩ := exists_linesFrom_lineEnd (c := '\r') (by decide)
      (fill q line.reverse).reverse (fill q (.char '\n' :: r))
    rw [fill_cons, Symbol.fill, List.singleton_append, hr, List.reverse_reverse,
      headOf_cons_blank (blank_fill (all_reverse_blank hb) q)]
    rfl
  | case4 line r hb ih =>
    have hn := (hfirm line.reverse (by simp)).not_blank (all_reverse_blank (by simpa using hb)) q
    have hr := ih (fun l hl => hfirm l (by simp [hl])) fun l hl => hq l (by simp [hl])
    simp only [fill_cons, Symbol.fill, List.singleton_append, linesFrom, List.reverse_reverse]
    rw [headOf_cons hn, List.map_cons]
    exact congrArg _ hr
  | case5 line c r hr hc hb =>
    obtain ⟨rest, hr⟩ := exists_linesFrom_lineEnd hc (fill q line.reverse).reverse (fill q r)
    rw [fill_cons, Symbol.fill, List.singleton_append, hr, List.reverse_reverse,
      headOf_cons_blank (blank_fill (all_reverse_blank hb) q)]
    rfl
  | case6 line c r hcr hc hb ih =>
    have hn := (hfirm line.reverse (by simp)).not_blank (all_reverse_blank (by simpa using hb)) q
    have hr := ih (fun l hl => hfirm l (by simp [hl])) fun l hl => hq l (by simp [hl])
    -- the next line opens with a character of its own, so no value completes a pair of line ends
    have hnl : c = '\r' → (fill q r).head? ≠ some '\n' := by
      intro hce
      cases r with
      | nil => simp
      | cons x r =>
        cases x with
        | char e =>
          intro he
          have hen : e = '\n' := by simpa [Symbol.fill] using he
          exact hcr r (by rw [hen]) hce
        | hole key =>
          have hopen : [Symbol.hole key].all isBlankSymbol = false := rfl
          obtain ⟨l, hl, hp⟩ := exists_prefix_headFrom hopen r
          exact absurd (hfirm l (List.mem_cons_of_mem _ hl)) (Firm.not_hole hp)
    rw [fill_cons, Symbol.fill, List.singleton_append, linesFrom_lineEnd hc hnl, List.reverse_reverse,
      headOf_cons hn, List.map_cons]
    exact congrArg _ hr
  | case7 line c r hcr hc ih =>
    have hr := ih hfirm hq
    rw [List.reverse_cons, fill_append, List.reverse_append] at hr
    rw [fill_cons, Symbol.fill, List.singleton_append, linesFrom_char (by simpa using hc)]
    exact hr
  | case8 line key r ih =>
    have hr := ih hfirm hq
    have hopen : (Symbol.hole key :: line).all isBlankSymbol = false := rfl
    obtain ⟨l, hl, more, hp⟩ := exists_prefix_headFrom hopen r
    have hv : ∀ c ∈ Symbol.fill q (.hole key), isLineEnd c = false := by
      intro c hc
      refine hq l hl c ?_
      rw [← hp, fill_append, List.reverse_cons, fill_append]
      simp [hc]
    rw [List.reverse_cons, fill_append, List.reverse_append, fill_cons, fill_nil, List.append_nil] at hr
    rw [fill_cons, linesFrom_append hv]
    exact hr

end Definition
end MockTree
