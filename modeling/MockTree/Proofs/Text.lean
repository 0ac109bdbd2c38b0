import Mathlib.Data.List.TakeWhile
import MockTree.Text.Blank
import MockTree.Text.Find

/-! Texts cut, trimmed and split into lines, piece by piece. -/
namespace MockTree.Text

theorem splitAt_of_not_mem {sep : Char} {s : List Char} (h : sep ∉ s) :
    splitAt sep s = [s] := by
  induction s with
  | nil => rfl
  | cons c r ih =>
    simp only [List.mem_cons, not_or] at h
    rw [splitAt, if_neg (by simpa using Ne.symm h.1), ih h.2]

theorem not_mem_of_mem_splitAt {sep : Char} {s p : List Char} (h : p ∈ splitAt sep s) :
    sep ∉ p := by
  induction s generalizing p with
  | nil => simp_all [splitAt]
  | cons c r ih =>
    rw [splitAt] at h
    split at h
    · rcases List.mem_cons.1 h with rfl | h
      · simp
      · exact ih h
    · next hc =>
      have hne : sep ≠ c := fun e => hc (by simp [e])
      split at h
      · next q qs hq =>
        rcases List.mem_cons.1 h with rfl | h
        · simp only [List.mem_cons, not_or]
          exact ⟨hne, ih (by simp [hq])⟩
        · exact ih (by simp [hq, h])
      · simp_all

theorem splitAt_append_of_not_mem {sep : Char} {b : List Char} (h : sep ∉ b) (a : List Char) :
    ∃ init p, splitAt sep (a ++ b) = init ++ [p ++ b] := by
  induction a with
  | nil => exact ⟨[], [], by simp [splitAt_of_not_mem h]⟩
  | cons c a ih =>
    obtain ⟨init, p, hs⟩ := ih
    rw [List.cons_append, splitAt, hs]
    split
    · exact ⟨[] :: init, p, rfl⟩
    · cases init with
      | nil => exact ⟨[], c :: p, rfl⟩
      | cons q init => exact ⟨(c :: q) :: init, p, rfl⟩

theorem splitAt_ne_nil (sep : Char) (s : List Char) : splitAt sep s ≠ [] := by
  cases s with
  | nil => simp [splitAt]
  | cons c r =>
    rw [splitAt]
    split
    · simp
    · split <;> simp

theorem splitAt_append_cons (sep : Char) (a b : List Char) :
    splitAt sep (a ++ sep :: b) = splitAt sep a ++ splitAt sep b := by
  induction a with
  | nil => simp [splitAt]
  | cons c a ih =>
    rw [List.cons_append, splitAt, splitAt, ih]
    split
    · rfl
    · obtain ⟨p, ps, hp⟩ := List.exists_cons_of_ne_nil (splitAt_ne_nil sep a)
      rw [hp]
      rfl

theorem cut?_of_not_mem {sep : Char} {a : List Char} (h : sep ∉ a) (b : List Char) :
    cut? sep (a ++ sep :: b) = some (a, b) := by
  induction a with
  | nil => simp [cut?]
  | cons c a ih =>
    simp only [List.mem_cons, not_or] at h
    rw [List.cons_append, cut?, if_neg (by simpa using Ne.symm h.1), ih h.2]
    rfl

theorem cut?_eq_none {sep : Char} {s : List Char} (h : sep ∉ s) : cut? sep s = none := by
  induction s with
  | nil => rfl
  | cons c s ih =>
    simp only [List.mem_cons, not_or] at h
    rw [cut?, if_neg (by simpa using Ne.symm h.1), ih h.2]
    rfl

theorem startsWith_append_of_not_mem {c : Char} {start : List Char} (h : c ∉ start) (s t : List Char) :
    startsWith start (s ++ c :: t) = startsWith start s := by
  induction start generalizing s with
  | nil => rfl
  | cons d start ih =>
    simp only [List.mem_cons, not_or] at h
    cases s with
    | nil =>
      simp [startsWith, after?, Ne.symm h.1]
    | cons x s =>
      rw [startsWith, startsWith, List.cons_append, after?, after?]
      split
      · exact ih h.2 s
      · rfl

theorem forall_of_all {p : Char → Bool} {b : Bool} {s : List Char} (h : s.all (p · == b) = true) :
    ∀ c ∈ s, p c = b := by simpa using h

theorem trim_isEmpty (s : List Char) : (trim s).isEmpty = s.all isBlank := by
  rw [Bool.eq_iff_iff, List.isEmpty_iff, List.all_eq_true, trim, trimEnd, List.reverse_eq_nil_iff,
    List.dropWhile_eq_nil_iff]
  constructor
  · intro h c hc
    by_contra hn
    obtain ⟨d, r, hd⟩ : ∃ d r, trimStart s = d :: r := by
      refine List.exists_cons_of_ne_nil fun he => hn ?_
      exact List.dropWhile_eq_nil_iff.1 he c hc
    have hb : isBlank d = false := by
      have := List.head?_dropWhile_not isBlank s
      rw [trimStart] at hd
      simpa [hd] using this
    have := h d (by simp [hd])
    simp [hb] at this
  · intro h c hc
    exact h c ((List.dropWhile_sublist _).mem (List.mem_reverse.1 hc))

theorem linesFrom_char {c : Char} (h : isLineEnd c = false) (line s : List Char) :
    linesFrom line (c :: s) = linesFrom (c :: line) s := by
  have hc : ∀ r, c = '\r' → s = '\n' :: r → False := by
    rintro r rfl
    exact absurd h (by decide)
  rw [linesFrom.eq_3 _ _ _ hc, if_neg (by simp [h])]

/-- Text without line ends goes on with the line. -/
theorem linesFrom_append {v : List Char} (h : ∀ c ∈ v, isLineEnd c = false) (line s : List Char) :
    linesFrom line (v ++ s) = linesFrom (v.reverse ++ line) s := by
  induction v generalizing line with
  | nil => rfl
  | cons c v ih =>
    rw [List.cons_append, linesFrom_char (h c (by simp)), ih fun d hd => h d (by simp [hd])]
    simp

theorem linesFrom_lineEnd {c : Char} (h : isLineEnd c = true) {s : List Char}
    (hn : c = '\r' → s.head? ≠ some '\n') (line : List Char) :
    linesFrom line (c :: s) = line.reverse :: linesFrom [] s := by
  have hc : ∀ r, c = '\r' → s = '\n' :: r → False := by
    rintro r hr rfl
    exact hn hr rfl
  rw [linesFrom.eq_3 _ _ _ hc, if_pos h]

/-- A line end closes the line, whatever follows. -/
theorem exists_linesFrom_lineEnd {c : Char} (h : isLineEnd c = true) (line s : List Char) :
    ∃ rest, linesFrom line (c :: s) = line.reverse :: rest := by
  by_cases hn : c = '\r' → s.head? ≠ some '\n'
  · exact ⟨_, linesFrom_lineEnd h hn line⟩
  · obtain ⟨rfl, hs⟩ : c = '\r' ∧ s.head? = some '\n' := by simpa using hn
    obtain ⟨r, rfl⟩ : ∃ r, s = '\n' :: r := by
      cases s with
      | nil => cases hs
      | cons d r => exact ⟨r, by simpa using hs⟩
    exact ⟨_, rfl⟩

/-- The lines of a text hold all of it but the line ends. -/
theorem flatten_lines (s : List Char) : (lines s).flatten = s.filter (!isLineEnd ·) := by
  have hfrom : ∀ line, (linesFrom line s).flatten = line.reverse ++ s.filter (!isLineEnd ·) := by
    intro line
    fun_induction linesFrom line s with
    | case1 line h => simp_all
    | case2 line h => simp
    | case3 line r ih => simpa [isLineEnd] using ih
    | case4 line c r _ hc ih => simpa [hc] using ih
    | case5 line c r _ hc ih => simpa [hc] using ih
  exact hfrom []

/-- A line feed closes a line, or makes an empty one. -/
theorem exists_lines_append_lineFeed (a b : List Char) :
    ∃ empty, (∀ l ∈ empty, l = []) ∧ lines (a ++ '\n' :: b) = lines a ++ (empty ++ lines b) := by
  have hfrom : ∀ line, ∃ empty, (∀ l ∈ empty, l = []) ∧
      linesFrom line (a ++ '\n' :: b) = linesFrom line a ++ (empty ++ lines b) := by
    intro line
    fun_induction linesFrom line a with
    | case1 line h =>
      refine ⟨[[]], by simp, ?_⟩
      rw [List.isEmpty_iff.1 h]
      rfl
    | case2 line h => exact ⟨[], by simp, rfl⟩
    | case3 line r ih =>
      obtain ⟨empty, hempty, hr⟩ := ih
      exact ⟨empty, hempty, congrArg (line.reverse :: ·) hr⟩
    | case4 line c r hn hc ih =>
      by_cases hcr : c = '\r' ∧ r = []
      · obtain ⟨rfl, rfl⟩ := hcr
        exact ⟨[], by simp, rfl⟩
      · obtain ⟨empty, hempty, hr⟩ := ih
        have hnext : c = '\r' → (r ++ '\n' :: b).head? ≠ some '\n' := by
          intro he hh
          cases r with
          | nil => exact hcr ⟨he, rfl⟩
          | cons d r => exact hn r he (by rw [Option.some.inj hh])
        exact ⟨empty, hempty, by rw [List.cons_append, linesFrom_lineEnd hc hnext, hr]; rfl⟩
    | case5 line c r hn hc ih =>
      obtain ⟨empty, hempty, hr⟩ := ih
      refine ⟨empty, hempty, ?_⟩
      rw [List.cons_append, linesFrom_char (by simpa using hc), hr]
  exact hfrom []

theorem lines_of_not_lineEnd {s : List Char} (h : ∀ c ∈ s, isLineEnd c = false) (hne : s ≠ []) :
    lines s = [s] := by
  have hs := linesFrom_append h [] []
  rw [List.append_nil, List.append_nil, linesFrom, if_neg (by simpa using hne), List.reverse_reverse] at hs
  exact hs

theorem trimEnd_append {a : List Char} (h : ∀ c ∈ a.getLast?, isBlank c = false) (b : List Char) :
    trimEnd (a ++ b) = a ++ trimEnd b := by
  have ha : a.reverse.dropWhile isBlank = a.reverse := by
    rw [List.dropWhile_eq_self_iff]
    intro hl
    rw [List.getElem_zero, List.head_reverse]
    simpa using h _ (List.getLast?_eq_some_getLast _)
  rw [trimEnd, trimEnd, List.reverse_append, List.dropWhile_append]
  split
  · next he => simp [ha, List.isEmpty_iff.1 he]
  · simp

theorem trim_of_edges {s : List Char} (hh : ∀ c ∈ s.head?, isBlank c = false)
    (hl : ∀ c ∈ s.getLast?, isBlank c = false) : trim s = s := by
  have hstart : trimStart s = s := by
    cases s with
    | nil => rfl
    | cons c r => exact List.dropWhile_cons_of_neg (by simp [hh c rfl])
  have hend := trimEnd_append hl []
  rw [List.append_nil] at hend
  rw [trim, hstart, hend]
  exact List.append_nil s

/-- All blanks are single spaces. -/
def Squeezed (s : List Char) : Prop :=
  ∀ a c b, s = a ++ c :: b → isBlank c = true → c = ' ' ∧ ∀ d ∈ b.head?, isBlank d = false

theorem Squeezed.of_cons {c : Char} {s : List Char} (h : Squeezed (c :: s)) : Squeezed s :=
  fun a d b hs hd => h (c :: a) d b (by simp [hs]) hd

theorem squeezed_cons {c : Char} {s : List Char} :
    Squeezed (c :: s) ↔ (isBlank c = true → c = ' ' ∧ s.head?.any isBlank = false) ∧ Squeezed s := by
  have hhead : (∀ d ∈ s.head?, isBlank d = false) ↔ s.head?.any isBlank = false := by
    cases s <;> simp
  refine ⟨fun h => ⟨fun hc => ?_, h.of_cons⟩, fun ⟨hc, hs⟩ a d b hab hd => ?_⟩
  · exact (h [] c s rfl hc).imp_right hhead.1
  · cases a with
    | nil =>
      obtain ⟨rfl, rfl⟩ := List.cons.inj hab
      exact (hc hd).imp_right hhead.2
    | cons e a => exact hs a d b (List.cons.inj hab).2 hd

instance decidableSqueezed : DecidablePred Squeezed
  | [] => .isTrue fun a c b hab => absurd hab (by simp)
  | c :: s =>
    have := decidableSqueezed s
    decidable_of_iff' _ squeezed_cons

theorem squeezed_of_not_blank {s : List Char} (h : ∀ c ∈ s, isBlank c = false) : Squeezed s := by
  rintro a c b rfl hc
  rw [h c (by simp)] at hc
  cases hc

/-- Squeezing keeps what is squeezed, up to a character that is no blank. -/
theorem squeeze_append {s : List Char} (hs : Squeezed s) (hl : ∀ c ∈ s.getLast?, isBlank c = false)
    (r : List Char) : squeeze (s ++ r) = s ++ squeeze r := by
  induction s with
  | nil => rfl
  | cons c s ih =>
    cases s with
    | nil =>
      have hc : isBlank c = false := hl c rfl
      simp [squeeze, hc]
    | cons d s =>
      have hrest := ih hs.of_cons (by simpa using hl)
      rw [List.cons_append] at hrest
      by_cases hc : isBlank c = true
      · obtain ⟨rfl, hd⟩ := hs [] c (d :: s) rfl hc
        simp [squeeze, hc, hd d rfl] at hrest ⊢
        exact hrest
      · rw [List.cons_append, List.cons_append, squeeze, if_neg hc, hrest]
        rfl

/-- Blanks are squeezed to spaces. -/
theorem exists_squeeze_append {gap s : List Char} (hg : ∀ c ∈ gap, isBlank c = true)
    (hs : ∀ c ∈ s.head?, isBlank c = false) :
    ∃ spaces, (∀ c ∈ spaces, c = ' ') ∧ squeeze (gap ++ s) = spaces ++ squeeze s := by
  induction gap with
  | nil => exact ⟨[], by simp, rfl⟩
  | cons c gap ih =>
    have hc := hg c (by simp)
    cases gap with
    | nil =>
      refine ⟨[' '], by simp, ?_⟩
      cases s with
      | nil => simp [squeeze, hc]
      | cons d s => simp [squeeze, hc, hs d rfl]
    | cons d gap =>
      obtain ⟨spaces, hsp, h⟩ := ih fun e he => hg e (by simp [he])
      refine ⟨spaces, hsp, ?_⟩
      rw [← h]
      simp [squeeze, hc, hg d (by simp)]

theorem mem_squeeze {c : Char} {s : List Char} (h : c ∈ squeeze s) : c = ' ' ∨ c ∈ s := by
  fun_induction squeeze s with
  | case1 => cases h
  | case2 d e r _ _ ih => exact (ih h).imp_right fun hm => by simp_all
  | case3 d e r _ _ ih => grind
  | case4 d _ => grind
  | case5 d r _ ih => grind

/-- A trimmed text opens with no blank. -/
theorem head?_trim {c : Char} {s : List Char} (h : c ∈ (trim s).head?) : isBlank c = false := by
  rw [trim] at h
  have hstart := List.head?_dropWhile_not isBlank s
  rw [trimStart] at h
  cases hd : s.dropWhile isBlank with
  | nil => simp [hd, trimEnd] at h
  | cons d r =>
    rw [hd] at h hstart
    have hd' : isBlank d = false := by simpa using hstart
    have hr : trimEnd ([d] ++ r) = [d] ++ trimEnd r := trimEnd_append (by simpa using hd') r
    rw [← List.singleton_append, hr] at h
    cases h
    exact hd'

theorem after?_eq_some {start s r : List Char} : after? start s = some r ↔ s = start ++ r := by
  induction start generalizing s with
  | nil => simp [after?, eq_comm]
  | cons c start ih =>
    cases s with
    | nil => simp [after?]
    | cons d s =>
      rw [after?]
      split
      · next hc => simp [ih, eq_of_beq hc]
      · next hc => simp [Ne.symm (by simpa using hc : ¬ c = d)]

/-- A run of characters ends before the first one that is not of its kind. -/
theorem run_append {p : Char → Bool} {u v : List Char} (hu : ∀ c ∈ u, p c = true)
    (hv : ∀ c ∈ v.head?, p c = false) : (u ++ v).takeWhile p = u ∧ (u ++ v).dropWhile p = v := by
  rw [List.takeWhile_append_of_pos hu, List.dropWhile_append_of_pos hu]
  cases v with
  | nil => exact ⟨List.append_nil u, rfl⟩
  | cons c v => simp [hv c rfl]

theorem cutText?_eq_some {piece s a b : List Char} (h : cutText? piece s = some (a, b)) :
    s = a ++ (piece ++ b) := by
  induction s generalizing a with
  | nil =>
    rw [cutText?] at h
    split at h
    · next hp =>
      cases h
      simp [List.isEmpty_iff.1 hp]
    · cases h
  | cons c r ih =>
    rw [cutText?] at h
    split at h
    · next rest hr =>
      cases h
      rw [List.nil_append]
      exact after?_eq_some.1 hr
    · obtain ⟨⟨a', b'⟩, hr, he⟩ := Option.map_eq_some_iff.1 h
      cases he
      rw [ih hr, List.cons_append]

theorem cutText?_eq_none {piece s : List Char} (h : ¬ piece <:+: s) : cutText? piece s = none := by
  rw [Option.eq_none_iff_forall_ne_some]
  rintro ⟨a, b⟩ hc
  exact h ⟨a, b, by simp [cutText?_eq_some hc]⟩

theorem not_infix_of_cutText? {piece s : List Char} (h : cutText? piece s = none) : ¬ piece <:+: s := by
  induction s with
  | nil =>
    intro hi
    rw [List.infix_nil.1 hi] at h
    cases h
  | cons c r ih =>
    rw [cutText?] at h
    split at h
    · cases h
    · next hafter =>
      intro hi
      rcases List.infix_cons_iff.1 hi with ⟨t, ht⟩ | hi
      · rw [after?_eq_some.2 ht.symm] at hafter
        cases hafter
      · exact ih (by simpa using h) hi

/-- A piece is found behind a text that neither holds it nor ends in a start of it. -/
theorem cutText?_append {a piece : List Char} (h : ¬ piece <:+: a ++ piece.dropLast) (b : List Char) :
    cutText? piece (a ++ (piece ++ b)) = some (a, b) := by
  induction a with
  | nil =>
    have hp : piece ≠ [] := by
      rintro rfl
      exact h List.nil_infix
    obtain ⟨c, r, hr⟩ := List.exists_cons_of_ne_nil hp
    have hafter : after? piece (c :: (r ++ b)) = some b := after?_eq_some.2 (by simp [hr])
    rw [List.nil_append, show piece ++ b = c :: (r ++ b) by simp [hr], cutText?, hafter]
  | cons c a ih =>
    have hafter : after? piece (c :: (a ++ (piece ++ b))) = none := by
      rw [Option.eq_none_iff_forall_ne_some]
      intro t ht
      have hpre : piece <+: c :: a ++ piece.dropLast := by
        have hlong : piece <+: c :: a ++ (piece ++ b) := ⟨t, (after?_eq_some.1 ht).symm⟩
        have hshort : c :: a ++ piece.dropLast <+: c :: a ++ (piece ++ b) :=
          (List.prefix_append_right_inj _).2 ((List.dropLast_prefix piece).trans (List.prefix_append piece b))
        exact List.prefix_of_prefix_length_le hlong hshort (by simp; omega)
      exact h hpre.isInfix
    rw [List.cons_append, cutText?, hafter, ih fun hi => h (List.infix_cons hi)]
    rfl

theorem head?_replaceFirst {piece new : List Char} {c : Char} (hp : c ∈ piece.head?)
    (hn : c ∈ new.head?) (s : List Char) : (replaceFirst piece new s).head? = s.head? := by
  rw [replaceFirst]
  split
  · next a b h =>
    rw [cutText?_eq_some h, List.append_assoc, List.head?_append, List.head?_append, List.head?_append,
      List.head?_append, Option.mem_def.1 hp, Option.mem_def.1 hn]
  · rfl

end MockTree.Text
