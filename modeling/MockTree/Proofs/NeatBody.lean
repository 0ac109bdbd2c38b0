import MockTree.Proofs.Head
import MockTree.Proofs.Respacing
import MockTree.Proofs.Words

/-! The body of a definition as it is looked at: the text after the first blank line with its blanks brought down
to single spaces between other characters. If braces come three in a row at no more than one place, and there
not more often, they are parted once and for all. -/
namespace MockTree
namespace Text

/-- No blanks but single spaces between characters that are none. -/
structure Neat (s : List Char) : Prop where
  squeezed : Squeezed s
  first : ∀ c ∈ s.head?, isBlank c = false
  last : ∀ c ∈ s.getLast?, isBlank c = false

theorem squeeze_of_neat {s : List Char} (h : Neat s) : squeeze s = s := by
  have hs := squeeze_append h.squeezed h.last []
  rwa [List.append_nil, show squeeze [] = [] from rfl, List.append_nil] at hs

/-- What follows a character that is no blank opens with none. -/
theorem head?_squeeze_of_not_blank {s : List Char} (h : s.head?.any isBlank = false) :
    (squeeze s).head?.any isBlank = false := by
  cases s with
  | nil => rfl
  | cons d r =>
    have hd : isBlank d = false := by simpa using h
    simp [squeeze, hd]

theorem squeezed_squeeze (s : List Char) : Squeezed (squeeze s) := by
  fun_induction squeeze s with
  | case1 => exact squeezed_of_not_blank (by simp)
  | case2 c _ d r _ ih => exact ih
  | case3 c _ d r hd ih =>
    have hhead : (squeeze (d :: r)).head?.any isBlank = false :=
      head?_squeeze_of_not_blank (by simpa using hd)
    exact squeezed_cons.2 ⟨fun _ => ⟨rfl, hhead⟩, ih⟩
  | case4 c hc => exact squeezed_cons.2 ⟨fun _ => ⟨rfl, rfl⟩, squeezed_of_not_blank (by simp)⟩
  | case5 c r hc ih => exact squeezed_cons.2 ⟨fun hb => absurd hb hc, ih⟩

theorem Squeezed.of_isInfix {s t : List Char} (h : Squeezed s) (ht : t <:+: s) : Squeezed t := by
  obtain ⟨before, after, rfl⟩ := ht
  rintro a c b rfl hc
  obtain ⟨hspace, hnext⟩ := h (before ++ a) c (b ++ after) (by simp) hc
  refine ⟨hspace, fun d hd => hnext d ?_⟩
  obtain ⟨r, rfl⟩ := List.head?_eq_some_iff.1 hd
  rfl

theorem getLast?_trim {c : Char} {s : List Char} (h : c ∈ (trim s).getLast?) : isBlank c = false := by
  rw [trim, trimEnd, List.getLast?_reverse] at h
  have hlast := List.head?_dropWhile_not isBlank (trimStart s).reverse
  rw [Option.mem_def.1 h] at hlast
  simpa using hlast

theorem neat_trim_squeeze (s : List Char) : Neat (trim (squeeze s)) :=
  ⟨(squeezed_squeeze s).of_isInfix (isInfix_trim _), fun _ => head?_trim, fun _ => getLast?_trim⟩

theorem isBlank_of_mem_braces {c : Char} (h : c ∈ braces) : isBlank c = false := by
  rcases mem_braces.1 h with rfl | rfl <;> decide

/-- A space comes between two characters that are no blanks. -/
theorem Neat.insert {a b : List Char} {c d : Char} (h : Neat (a ++ c :: d :: b)) (hc : isBlank c = false)
    (hd : isBlank d = false) : Neat (a ++ c :: ' ' :: d :: b) := by
  refine ⟨?squeezed, ?first, ?last⟩
  case squeezed =>
    have hall := h.squeezed
    clear h
    induction a with
    | nil =>
      have hrest : Squeezed (' ' :: d :: b) :=
        squeezed_cons.2 ⟨fun _ => ⟨rfl, by simpa using hd⟩, hall.of_cons⟩
      exact squeezed_cons.2 ⟨fun hb => by simp [hc] at hb, hrest⟩
    | cons e a ih =>
      rw [List.cons_append, squeezed_cons] at hall ⊢
      refine ⟨fun he => (hall.1 he).imp_right fun hnext => ?_, ih hall.2⟩
      cases a <;> simpa using hnext
  case first => cases a <;> simpa using h.first
  case last =>
    intro e he
    refine h.last e ?_
    simpa [List.getLast?_append, List.getLast?_cons] using he

/-- Respacing keeps a text neat. -/
theorem Neat.respaced {s t : List Char} (h : Neat s) (hst : Respaced s t) : Neat t := by
  induction hst with
  | refl => exact h
  | tail _ hstep ih =>
    cases hstep with
    | drop a b =>
      have hnext := (ih.squeezed a ' ' (' ' :: b) rfl isBlank_space).2 ' ' rfl
      rw [isBlank_space] at hnext
      cases hnext
    | part hc a b => exact ih.insert (isBlank_of_mem_braces hc) (isBlank_of_mem_braces hc)

/-! ### Runs -/

/-- How often a character comes in a row between others, given how often it has just come. -/
def stretchesFrom (c : Char) (n : ℕ) : List Char → List ℕ
  | [] => [n]
  | d :: r => if d == c then stretchesFrom c (n + 1) r else n :: stretchesFrom c 0 r

/-- The lengths of the maximal runs of a character that reach three. -/
def longRuns (c : Char) (s : List Char) : List ℕ := (stretchesFrom c 0 s).filter (3 ≤ ·)

variable {c d : Char} {s : List Char}

@[simp] theorem stretchesFrom_self (n : ℕ) (s : List Char) :
    stretchesFrom c n (c :: s) = stretchesFrom c (n + 1) s := by simp [stretchesFrom]

theorem stretchesFrom_of_ne (h : d ≠ c) (n : ℕ) (s : List Char) :
    stretchesFrom c n (d :: s) = n :: stretchesFrom c 0 s := by simp [stretchesFrom, h]

/-- What comes first leaves a row behind, whatever follows. -/
theorem stretchesFrom_append (c : Char) (n : ℕ) (a : List Char) :
    ∃ init m, ∀ b, stretchesFrom c n (a ++ b) = init ++ stretchesFrom c m b := by
  induction a generalizing n with
  | nil => exact ⟨[], n, fun b => rfl⟩
  | cons d a ih =>
    by_cases h : d = c
    · subst h
      obtain ⟨init, m, hb⟩ := ih (n + 1)
      exact ⟨init, m, fun b => by rw [List.cons_append, stretchesFrom_self, hb]⟩
    · obtain ⟨init, m, hb⟩ := ih 0
      exact ⟨n :: init, m, fun b => by rw [List.cons_append, stretchesFrom_of_ne h, hb]; rfl⟩

/-- What comes last prolongs the row that is left to it. -/
theorem exists_stretchesFrom (c : Char) (s : List Char) :
    ∃ k tail, ∀ n, stretchesFrom c n s = (n + k) :: tail := by
  induction s with
  | nil => exact ⟨0, [], fun n => rfl⟩
  | cons d s ih =>
    obtain ⟨k, tail, hs⟩ := ih
    by_cases h : d = c
    · subst h
      exact ⟨k + 1, tail, fun n => by rw [stretchesFrom_self, hs, Nat.add_right_comm, Nat.add_assoc]⟩
    · exact ⟨0, stretchesFrom c 0 s, fun n => stretchesFrom_of_ne h n s⟩

theorem longRuns_cons (h : d ≠ c) (s : List Char) : longRuns c (d :: s) = longRuns c s := by
  rw [longRuns, stretchesFrom_of_ne h]
  rfl

theorem longRuns_concat (h : d ≠ c) (s : List Char) : longRuns c (s ++ [d]) = longRuns c s := by
  obtain ⟨init, m, hb⟩ := stretchesFrom_append c 0 s
  have hs := hb []
  rw [List.append_nil] at hs
  rw [longRuns, longRuns, hb, hs, stretchesFrom_of_ne h, stretchesFrom, stretchesFrom]
  simp [List.filter_append, List.filter_cons]

theorem ne_of_isBlank (hc : isBlank c = false) (hd : isBlank d = true) : d ≠ c := by
  rintro rfl
  rw [hd] at hc
  cases hc

theorem longRuns_trim (hc : isBlank c = false) (s : List Char) : longRuns c (trim s) = longRuns c s := by
  have hstart : longRuns c (trimStart s) = longRuns c s := by
    induction s with
    | nil => rfl
    | cons d s ih =>
      by_cases hd : isBlank d = true
      · rw [longRuns_cons (ne_of_isBlank hc hd), ← ih, trimStart, List.dropWhile_cons_of_pos hd, trimStart]
      · rw [trimStart, List.dropWhile_cons_of_neg hd]
  rw [trim, ← hstart]
  generalize trimStart s = t
  induction t using List.reverseRecOn with
  | nil => rfl
  | append_singleton t d ih =>
    by_cases hd : isBlank d = true
    · have hend : trimEnd (t ++ [d]) = trimEnd t := by simp [trimEnd, hd]
      rw [hend, ih, longRuns_concat (ne_of_isBlank hc hd)]
    · have hend : trimEnd (t ++ [d]) = t ++ [d] := by simp [trimEnd, hd]
      rw [hend]

/-- A space for many blanks leaves the long runs as they are. -/
theorem longRuns_squeeze (hc : isBlank c = false) (s : List Char) : longRuns c (squeeze s) = longRuns c s := by
  have hspace : ' ' ≠ c := ne_of_isBlank hc isBlank_space
  have hfrom : ∀ n, (stretchesFrom c n (squeeze s)).filter (3 ≤ ·) = (stretchesFrom c n s).filter (3 ≤ ·) := by
    fun_induction squeeze s with
    | case1 => exact fun n => rfl
    | case2 d hd e r he ih =>
      intro n
      rw [ih, stretchesFrom_of_ne (ne_of_isBlank hc he), stretchesFrom_of_ne (ne_of_isBlank hc hd),
        stretchesFrom_of_ne (ne_of_isBlank hc he)]
      simp [List.filter_cons]
    | case3 d hd e r he ih =>
      intro n
      rw [stretchesFrom_of_ne hspace, stretchesFrom_of_ne (ne_of_isBlank hc hd), List.filter_cons,
        List.filter_cons, ih]
    | case4 d hd =>
      intro n
      rw [stretchesFrom_of_ne hspace, stretchesFrom_of_ne (ne_of_isBlank hc hd)]
    | case5 d r hd ih =>
      intro n
      by_cases hdc : d = c
      · subst hdc
        rw [stretchesFrom_self, stretchesFrom_self, ih]
      · rw [stretchesFrom_of_ne hdc, stretchesFrom_of_ne hdc, List.filter_cons, List.filter_cons, ih]
  exact hfrom 0

/-- Another character beside one that is not counted changes nothing. -/
theorem longRuns_insert {x y : Char} (hx : x ≠ c) (hy : y ≠ c) (a b : List Char) :
    longRuns c (a ++ x :: y :: b) = longRuns c (a ++ x :: b) := by
  obtain ⟨init, m, hb⟩ := stretchesFrom_append c 0 a
  rw [longRuns, longRuns, hb, hb, stretchesFrom_of_ne hx, stretchesFrom_of_ne hx, stretchesFrom_of_ne hy]
  simp [List.filter_append, List.filter_cons]

@[simp] theorem stretchesFrom_replicate (n i : ℕ) (s : List Char) :
    stretchesFrom c n (List.replicate i c ++ s) = stretchesFrom c (n + i) s := by
  induction i generalizing n with
  | zero => rfl
  | succ i ih =>
    rw [List.replicate_succ, List.cons_append, stretchesFrom_self, ih, Nat.add_assoc, Nat.add_comm 1 i]

/-- The runs around three characters of a kind, with something between them or not. -/
theorem exists_longRuns (c : Char) (a b : List Char) : ∃ init m k tail,
    longRuns c (a ++ (List.replicate 3 c ++ b)) = init ++ (m + 3 + k) :: tail ∧
    ∀ d ≠ c, ∀ i j, longRuns c (a ++ (List.replicate i c ++ d :: (List.replicate j c ++ b))) =
      init ++ [m + i, j + k].filter (3 ≤ ·) ++ tail := by
  obtain ⟨init, m, ha⟩ := stretchesFrom_append c 0 a
  obtain ⟨k, tail, hb⟩ := exists_stretchesFrom c b
  refine ⟨init.filter (3 ≤ ·), m, k, tail.filter (3 ≤ ·), ?_, fun d hd i j => ?_⟩
  · have hlong : 3 ≤ m + 3 + k := by omega
    simp [longRuns, ha, hb, hlong]
  · rw [longRuns, ha, stretchesFrom_replicate, stretchesFrom_of_ne hd, stretchesFrom_replicate, hb, Nat.zero_add]
    rw [List.append_assoc, ← List.filter_append]
    exact List.filter_append ..

/-- A character three in a row makes a long run. -/
theorem not_infix_of_longRuns (h : longRuns c s = []) : ¬ List.replicate 3 c <:+: s := by
  rintro ⟨a, b, rfl⟩
  obtain ⟨init, m, k, tail, hruns, -⟩ := exists_longRuns c a b
  rw [List.append_assoc, hruns] at h
  exact absurd h (by simp)

/-- One run of just three, once it is parted, leaves no long run. -/
theorem longRuns_parted {a b : List Char} (h : longRuns c (a ++ (List.replicate 3 c ++ b)) ∈ [[], [3]])
    (hd : d ≠ c) {i j : ℕ} (hi : i < 3) (hj : j < 3) :
    longRuns c (a ++ (List.replicate i c ++ d :: (List.replicate j c ++ b))) = [] := by
  obtain ⟨init, m, k, tail, hruns, hparted⟩ := exists_longRuns c a b
  rw [hruns] at h
  obtain ⟨rfl, hlength, rfl⟩ : init = [] ∧ m + 3 + k = 3 ∧ tail = [] := by
    cases init <;> simp_all
  rw [hparted d hd]
  obtain ⟨rfl, rfl⟩ : m = 0 ∧ k = 0 := by omega
  simp [hi, hj]

/-- Parting three characters at their first place brings an end to the one run that has just three, and makes no
difference to the runs of others. -/
theorem longRuns_replaceFirst (hc : c ≠ ' ') {i j : ℕ} (hij : i + 1 + (j + 1) = 3) (s : List Char) :
    let t := replaceFirst (List.replicate (i + 1) c ++ List.replicate (j + 1) c)
      (List.replicate (i + 1) c ++ ' ' :: List.replicate (j + 1) c) s
    (longRuns c s ∈ [[], [3]] → ¬ List.replicate 3 c <:+: t) ∧
      ∀ d, d ≠ c → d ≠ ' ' → longRuns d t = longRuns d s := by
  intro t
  have hthree : List.replicate (i + 1) c ++ List.replicate (j + 1) c = List.replicate 3 c := by
    rw [List.replicate_append_replicate, hij]
  rcases replaceFirst_parted (List.replicate (i + 1) c) (List.replicate (j + 1) c) ' ' s with
    ⟨hnone, ht⟩ | ⟨a, b, hs, ht⟩
  · rw [hthree] at hnone
    exact ⟨fun _ => by rwa [show t = s from ht], fun d _ _ => by rw [show t = s from ht]⟩
  · have ht : t = a ++ List.replicate (i + 1) c ++ ' ' :: (List.replicate (j + 1) c ++ b) := ht
    refine ⟨fun hruns => not_infix_of_longRuns ?_, fun d hdc hd => ?_⟩
    · have hs : s = a ++ (List.replicate 3 c ++ b) := by
        rw [hs, ← hthree, List.append_assoc, List.append_assoc]
      rw [ht, List.append_assoc]
      exact longRuns_parted (hs ▸ hruns) hc.symm (by omega) (by omega)
    · have hrun (r : List Char) : a ++ List.replicate (i + 1) c ++ r = a ++ List.replicate i c ++ c :: r := by
        simp [List.replicate_succ']
      rw [ht, hs, hrun, hrun]
      exact longRuns_insert hdc.symm hd.symm _ _

/-- Braces of a kind come three in a row at one place at most, and nowhere more often. -/
def Partable (s : List Char) : Prop := ∀ c ∈ braces, longRuns c s ∈ [[], [3]]

instance : DecidablePred Partable := fun s => List.decidableBAll (fun c => longRuns c s ∈ [[], [3]]) braces

theorem Partable.trim_squeeze {s : List Char} (h : Partable s) : Partable (trim (squeeze s)) := by
  intro c hc
  rw [longRuns_trim (isBlank_of_mem_braces hc), longRuns_squeeze (isBlank_of_mem_braces hc)]
  exact h c hc

end Text

namespace Definition
open Text

theorem neat_normalize (s : List Char) : Neat (normalize s) :=
  (neat_trim_squeeze s).respaced (respaced_partBraces _)

/-- Braces that can be parted do not come three in a row any more. -/
theorem not_infix_partBraces {s : List Char} (h : Partable s) :
    ¬ "\x7b\x7b\x7b".toList <:+: partBraces s ∧ ¬ "\x7d\x7d\x7d".toList <:+: partBraces s := by
  obtain ⟨hopen, hkeep⟩ := longRuns_replaceFirst (c := '\x7b') (i := 0) (j := 1) (by decide) rfl s
  obtain ⟨hclose, -⟩ := longRuns_replaceFirst (c := '\x7d') (i := 1) (j := 0) (by decide) rfl
    (replaceFirst "\x7b\x7b\x7b".toList "\x7b \x7b\x7b".toList s)
  refine ⟨fun hi => hopen (h _ (by decide)) ?_, hclose ?_⟩
  · -- The second space brings no opening braces together.
    rcases replaceFirst_parted ['\x7d', '\x7d'] ['\x7d'] ' '
      (replaceFirst "\x7b\x7b\x7b".toList "\x7b \x7b\x7b".toList s) with ⟨-, ht⟩ | ⟨a, b, hs, ht⟩
    · exact ht ▸ hi
    · have hi : "\x7b\x7b\x7b".toList <:+: a ++ ['\x7d', '\x7d'] ++ ' ' :: (['\x7d'] ++ b) := ht ▸ hi
      have hpiece : "\x7b\x7b\x7b".toList <:+: a ++ ['\x7d', '\x7d'] ++ (['\x7d'] ++ b) :=
        (infix_append_cons (by decide) hi).elim (fun h => h.trans (List.prefix_append ..).isInfix)
          fun h => h.trans (List.suffix_append ..).isInfix
      exact hs ▸ hpiece
  · exact (hkeep '\x7d' (by decide) (by decide)).symm ▸ h _ (by decide)

/-- A neat text without three braces of a kind in a row is left as it is. -/
theorem normalize_of_neat {s : List Char} (h : Neat s) (hopen : ¬ "\x7b\x7b\x7b".toList <:+: s)
    (hclose : ¬ "\x7d\x7d\x7d".toList <:+: s) : normalize s = s := by
  have hfirst : replaceFirst "\x7b\x7b\x7b".toList "\x7b \x7b\x7b".toList s = s := by
    rw [replaceFirst, cutText?_eq_none hopen]
  rw [normalize, squeeze_of_neat h, trim_of_edges h.first h.last, partBraces, hfirst, replaceFirst,
    cutText?_eq_none hclose]

/-! ### The text of the body -/

/-- The text after the first blank line, given whether the line that is being read holds more than blanks. -/
def afterBlankFrom (inked : Bool) : List Char → List Char
  | [] => []
  | '\r' :: '\n' :: r => if inked then afterBlankFrom false r else r
  | c :: r =>
    if isLineEnd c then if inked then afterBlankFrom false r else r
    else afterBlankFrom (inked || !isBlank c) r

/-- The text after the first blank line; nothing where no line is blank. -/
def afterBlankLine (s : List Char) : List Char := afterBlankFrom false s

theorem bodyOf_cons (l : List Char) (ls : List (List Char)) :
    bodyOf (l.reverse :: ls) = if l.any (!isBlank ·) then bodyOf ls else ls := by
  have hblank : (trim l.reverse).isEmpty = !l.any (!isBlank ·) := by
    rw [trim_isEmpty, List.all_reverse, List.not_any_eq_all_not]
    simp
  rw [bodyOf, List.dropWhile_cons, hblank, Bool.not_not]
  split <;> rfl

/-- The lines of the body are those of the text after the first blank line. -/
theorem bodyOf_lines (s : List Char) : bodyOf (lines s) = lines (afterBlankLine s) := by
  have hfrom : ∀ line, bodyOf (linesFrom line s) = lines (afterBlankFrom (line.any (!isBlank ·)) s) := by
    intro line
    fun_induction linesFrom line s with
    | case1 line h => rfl
    | case2 line h =>
      rw [bodyOf_cons]
      split <;> rfl
    | case3 line r ih =>
      rw [bodyOf_cons, ih, afterBlankFrom]
      split <;> rfl
    | case4 line c r hn hc ih =>
      rw [bodyOf_cons, ih, afterBlankFrom.eq_3 _ _ _ hn, if_pos hc]
      split <;> rfl
    | case5 line c r hn hc ih =>
      rw [ih, afterBlankFrom.eq_3 _ _ _ hn, if_neg hc, List.any_cons, Bool.or_comm]
  exact hfrom []

/-- The body is the text after the first blank line but for its blanks. These are single spaces within. Braces that
can be parted in the joined lines come nowhere three in a row, and there is nothing left to be done to the
body. -/
theorem split_body {rendered body : List Char} {r : Response} (h : split rendered = .ok (r, body)) :
    let text := afterBlankLine rendered
    body.filter (!isBlank ·) = text.filter (!isBlank ·) ∧ Neat body ∧
    (Partable (lines text).flatten →
      ¬ "\x7b\x7b\x7b".toList <:+: body ∧ ¬ "\x7d\x7d\x7d".toList <:+: body ∧ normalize body = body) := by
  intro text
  obtain rfl : body = normalize (lines text).flatten := by
    rw [split_eq, bodyText, bodyOf_lines] at h
    cases hhead : readLines .empty (headOf (lines rendered)) with
    | error f => simp [hhead, Except.map] at h
    | ok head =>
      rw [hhead] at h
      cases h
      rfl
  refine ⟨?characters, neat_normalize _, fun hpart => ?parted⟩
  case characters =>
    rw [filter_normalize, flatten_lines, List.filter_filter]
    refine List.filter_congr fun c _ => ?_
    by_cases hc : isLineEnd c = true
    · simp [hc, Json.isBlank_of_isLineEnd hc]
    · simp [hc]
  case parted =>
    obtain ⟨hopen, hclose⟩ := not_infix_partBraces hpart.trim_squeeze
    exact ⟨hopen, hclose, normalize_of_neat (neat_normalize _) hopen hclose⟩

theorem split_body_tabbed :
    let rendered := "HTTP/1.1 201\nA: b\n \t\r\n x \t \x7b\x7b\x7by\x7d\n \x7d\x7d z\t\x7d\x7d\x7d \n".toList
    let body := "x \x7b \x7b\x7by\x7d \x7d\x7d z \x7d\x7d \x7d".toList
    split rendered = .ok ({ Response.empty with status := 201, headers := [("A", "b")] }, body) ∧
      Partable (lines (afterBlankLine rendered)).flatten ∧
      body.filter (!isBlank ·) = (afterBlankLine rendered).filter (!isBlank ·) ∧ normalize body = body := by
  intro rendered body
  have hsplit : split rendered = .ok ({ Response.empty with status := 201, headers := [("A", "b")] }, body) := by
    rfl
  have hpart : Partable (lines (afterBlankLine rendered)).flatten := by decide +kernel
  obtain ⟨hchars, -, hfixed⟩ := split_body hsplit
  exact ⟨hsplit, hpart, hchars, (hfixed hpart).2.2⟩

/-- Longer runs are parted at their first place only. -/
example : normalize "\x7b\x7b\x7b\x7b\x7b\x7b".toList = "\x7b \x7b\x7b\x7b\x7b\x7b".toList := by decide

end Definition
end MockTree
