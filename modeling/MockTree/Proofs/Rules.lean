import MockTree.Proofs.PlainText

/-! What rules of a grammar read, one after another. A rule reads a text before another one if it does so
wherever the two stand, and whatever was seen by then. -/
namespace MockTree.Template
open Text

namespace Rule
variable {α β : Type}

/-- The rule takes u before t, and gives a. -/
def Reads (r : Rule α) (u : List Char) (a : α) (t : List Char) : Prop :=
  ∀ p n, ∃ m, r.runIn ⟨p, u ++ t⟩ n = (some (a, ⟨p + u.length, t⟩), m)

/-- The rule takes no start of s. -/
def Refuses (r : Rule α) (s : List Char) : Prop :=
  ∀ p n, ∃ m, r.runIn ⟨p, s⟩ n = (none, m)

/-- The rule takes the whole of s and sees its end. -/
def ReadsAll (r : Rule α) (s : List Char) (a : α) : Prop :=
  ∀ p n, ∃ m, p + s.length ≤ m ∧ r.runIn ⟨p, s⟩ n = (some (a, ⟨p + s.length, []⟩), m)

theorem Reads.pure (a : α) (t : List Char) : Reads (Pure.pure a) [] a t := fun _ n => ⟨n, rfl⟩

theorem Reads.bind {r : Rule α} {k : α → Rule β} {u v t : List Char} {a : α} {b : β}
    (h : Reads r u a (v ++ t)) (hk : Reads (k a) v b t) : Reads (r >>= k) (u ++ v) b t := by
  intro p n
  obtain ⟨m, hr⟩ := h p n
  obtain ⟨m', hb⟩ := hk (p + u.length) m
  refine ⟨m', ?_⟩
  rw [runIn_bind, List.append_assoc, hr, List.length_append, ← Nat.add_assoc]
  exact hb

/-- A rule that takes nothing may come first. -/
theorem Reads.then {r : Rule α} {k : α → Rule β} {u t : List Char} {a : α} {b : β}
    (h : Reads r [] a (u ++ t)) (hk : Reads (k a) u b t) : Reads (r >>= k) u b t := h.bind hk

/-- A rule that takes nothing may come last. -/
theorem Reads.last {r : Rule α} {k : α → Rule β} {u t : List Char} {a : α} {b : β}
    (h : Reads r u a t) (hk : Reads (k a) [] b t) : Reads (r >>= k) u b t := by
  have hb := h.bind (v := []) hk
  rwa [List.append_nil] at hb

theorem Reads.bind_pure {r : Rule α} {f : α → β} {u t : List Char} {a : α} (h : Reads r u a t) :
    Reads (r >>= fun x => Pure.pure (f x)) u (f a) t :=
  h.last (.pure (f a) t)

theorem Refuses.bind {r : Rule α} {s : List Char} (h : Refuses r s) (k : α → Rule β) :
    Refuses (r >>= k) s := by
  intro p n
  obtain ⟨m, hr⟩ := h p n
  exact ⟨m, by rw [runIn_bind, hr]⟩

theorem Reads.bind_refuses {r : Rule α} {k : α → Rule β} {u t : List Char} {a : α} (h : Reads r u a t)
    (hk : Refuses (k a) t) : Refuses (r >>= k) (u ++ t) := by
  intro p n
  obtain ⟨m, hr⟩ := h p n
  obtain ⟨m', hb⟩ := hk (p + u.length) m
  exact ⟨m', by rw [runIn_bind, hr]; exact hb⟩

theorem Reads.orElse {r : Rule α} {u t : List Char} {a : α} (h : Reads r u a t) (q : Rule α) :
    Reads (r <|> q) u a t := by
  intro p n
  obtain ⟨m, hr⟩ := h p n
  exact ⟨m, by rw [runIn_orElse, hr]⟩

theorem Refuses.orElse_reads {r q : Rule α} {u t : List Char} {a : α} (h : Refuses r (u ++ t))
    (hq : Reads q u a t) : Reads (r <|> q) u a t := by
  intro p n
  obtain ⟨m, hr⟩ := h p n
  obtain ⟨m', hb⟩ := hq p m
  exact ⟨m', by rw [runIn_orElse, hr]; exact hb⟩

theorem Refuses.orElse {r q : Rule α} {s : List Char} (h : Refuses r s) (hq : Refuses q s) :
    Refuses (r <|> q) s := by
  intro p n
  obtain ⟨m, hr⟩ := h p n
  obtain ⟨m', hb⟩ := hq p m
  exact ⟨m', by rw [runIn_orElse, hr]; exact hb⟩

theorem refuses_fail (s : List Char) : Refuses (fail : Rule α) s := fun _ n => ⟨n, rfl⟩

theorem reads_seeHere (t : List Char) : Reads seeHere [] () t := fun p n => ⟨max p n, rfl⟩

theorem reads_remaining (t : List Char) : Reads remaining [] t.length t := fun _ n => ⟨n, rfl⟩

theorem reads_satisfy {p : Char → Bool} {c : Char} (h : p c = true) (t : List Char) :
    Reads (satisfy p) [c] c t := by
  intro q n
  refine ⟨max q n, ?_⟩
  rw [satisfy, runIn_bind, runIn_get]
  simp only [List.singleton_append, h, if_true]
  rfl

theorem refuses_satisfy {p : Char → Bool} {s : List Char} (h : ∀ c ∈ s.head?, p c = false) :
    Refuses (satisfy p) s := by
  intro q n
  refine ⟨n, ?_⟩
  rw [satisfy, runIn_bind, runIn_get]
  cases s with
  | nil => rfl
  | cons c s =>
    simp only [h c rfl, Bool.false_eq_true, if_false]
    rfl

theorem reads_char (c : Char) (t : List Char) : Reads (char c) [c] () t :=
  (reads_satisfy (by simp) t).bind_pure

theorem refuses_char {c : Char} {s : List Char} (h : c ∉ s.head?) : Refuses (char c) s :=
  (refuses_satisfy (p := (· == c)) fun d hd => by
    rw [beq_eq_false_iff_ne]
    rintro rfl
    exact h hd).bind fun _ => Pure.pure ()

theorem reads_text (w t : List Char) : Reads (text w) w () t := by
  induction w with
  | nil => exact .pure () t
  | cons c w ih => exact (reads_char c (w ++ t)).bind ih

theorem refuses_text {c : Char} {s : List Char} (h : c ∉ s.head?) (w : List Char) :
    Refuses (text (c :: w)) s := (refuses_char h).bind _

theorem reads_run {p : Char → Bool} {u t : List Char} (hu : ∀ c ∈ u, p c = true)
    (ht : ∀ c ∈ t.head?, p c = false) : Reads (run p) u u t := by
  intro q n
  obtain ⟨htake, hdrop⟩ := run_append hu ht
  refine ⟨max (q + u.length) n, ?_⟩
  rw [run, runIn_bind, runIn_get]
  simp only [htake, hdrop, runIn_bind, runIn_set, runIn_seeHere, runIn_pure]

theorem reads_run1 {p : Char → Bool} {u t : List Char} (hne : u ≠ []) (hu : ∀ c ∈ u, p c = true)
    (ht : ∀ c ∈ t.head?, p c = false) : Reads (run1 p) u u t := by
  have hk : Reads (if u.isEmpty then fail else Pure.pure u) [] u t := by
    rw [if_neg (by simpa using hne)]
    exact .pure u t
  exact (reads_run hu ht).last hk

theorem refuses_run1 {p : Char → Bool} {s : List Char} (h : ∀ c ∈ s.head?, p c = false) :
    Refuses (run1 p) s :=
  (reads_run (u := []) (by simp) h).bind_refuses (refuses_fail s)

theorem reads_spaces {t : List Char} (h : ∀ c ∈ t.head?, isBlank c = false) : Reads spaces [] () t :=
  (reads_run (u := []) (by simp) h).bind_pure

/-- A rule that lacks another takes nothing where that one does not apply. -/
theorem reads_lacking {r : Rule α} {t : List Char} (h : Refuses r t) : Reads (lacking r) [] () t := by
  intro p n
  obtain ⟨m, hr⟩ := h p n
  refine ⟨max p m, ?_⟩
  rw [lacking, runIn_bind, runIn_get]
  simp only [runIn_bind, runIn_orElse, List.nil_append, hr, runIn_pure, runIn_set]
  rfl

/-- Lacking a rule takes nothing, so what comes after it decides. -/
theorem Refuses.lacking {k : Unit → Rule β} {s : List Char} (hk : Refuses (k ()) s) (r : Rule α) :
    Refuses (lacking r >>= k) s := by
  intro p n
  have hlacking : (∃ m, (Rule.lacking r).runIn ⟨p, s⟩ n = (none, m)) ∨
      ∃ m, (Rule.lacking r).runIn ⟨p, s⟩ n = (some ((), ⟨p, s⟩), m) := by
    rw [Rule.lacking, runIn_bind, runIn_get]
    simp only [runIn_bind, runIn_orElse, runIn_pure, runIn_set]
    rcases r.runIn ⟨p, s⟩ n with ⟨_ | ⟨a, c⟩, m⟩
    · exact .inr ⟨_, rfl⟩
    · exact .inl ⟨_, rfl⟩
  rcases hlacking with ⟨m, h⟩ | ⟨m, h⟩
  · exact ⟨m, by rw [runIn_bind, h]⟩
  · obtain ⟨m', hb⟩ := hk p m
    exact ⟨m', by rw [runIn_bind, h]; exact hb⟩

theorem reads_many_nil {r : Rule α} {t : List Char} (h : Refuses r t) (n : Nat) :
    Reads (many r n) [] [] t := by
  cases n with
  | zero => exact .pure [] t
  | succ n => exact Refuses.orElse_reads (h.bind _) ((reads_seeHere t).then (.pure [] t))

theorem reads_many_cons {r : Rule α} {u v t : List Char} {a : α} {as : List α} {n : Nat}
    (h : Reads r u a (v ++ t)) (hs : Reads (many r n) v as t) :
    Reads (many r (n + 1)) (u ++ v) (a :: as) t :=
  (h.bind hs.bind_pure).orElse _

end Rule

namespace Grammar
open Rule

/-! Text and tags up to the end of a text. -/

theorem readsAll_pieces_nil (fuel : Nat) : ReadsAll (pieces (fuel + 1)) [] [] := fun p n =>
  ⟨max p n, Nat.le_max_left p n, runIn_pieces_nil fuel p n⟩

theorem readsAll_pieces_text {fuel : Nat} {u v x : List Char} {ps : List Piece}
    (h : textHere? (u ++ v) = some (x, v)) (hps : ReadsAll (pieces fuel) v ps) :
    ReadsAll (pieces (fuel + 1)) (u ++ v) (pieceText x :: ps) := by
  intro p n
  obtain ⟨m, hm, hrun⟩ := hps (p + u.length) (max (p + u.length) n)
  refine ⟨m, by simpa [Nat.add_assoc] using hm, ?_⟩
  rw [pieces, runIn_bind, runIn_get]
  simp only [h, runIn_bind, runIn_set, runIn_seeHere, List.length_append, Nat.add_sub_cancel, hrun, runIn_pure,
    Nat.add_assoc]

theorem readsAll_pieces_tag {fuel : Nat} {u v : List Char} {q : Piece} {ps : List Piece}
    (h : textHere? (u ++ v) = none) (hq : Reads (tag fuel) u q v) (hps : ReadsAll (pieces fuel) v ps) :
    ReadsAll (pieces (fuel + 1)) (u ++ v) (q :: ps) := by
  intro p n
  obtain ⟨m, hrun⟩ := hq p n
  obtain ⟨m', hm, hrest⟩ := hps (p + u.length) m
  refine ⟨m', by simpa [Nat.add_assoc] using hm, ?_⟩
  rw [pieces, runIn_bind, runIn_get]
  simp only [h, runIn_orElse, runIn_bind, hrun, hrest, runIn_pure, List.length_append, Nat.add_assoc]

theorem readTidy_of_readsAll {s : List Char} {ps : List Piece}
    (h : ReadsAll (pieces (3 * s.length + 3)) s ps) (hs : allSound ps = true) :
    readTidy s = .ok (nodesOf ps) := by
  obtain ⟨m, hm, hrun⟩ := h 0 0
  have happly : Rule.apply (pieces (3 * s.length + 3)) s = (some ps, m) := by rw [apply_eq, hrun]; rfl
  rw [readTidy, happly]
  simp [hs, show ¬ m < s.length by omega]

theorem textHere?_inline {c : Char} {gap v : List Char} (hg : ∀ d ∈ c :: gap, isInline d = true)
    (hv : ∀ d ∈ v.head?, isInline d = false) : textHere? (c :: gap ++ v) = some (c :: gap, v) := by
  have hc : isInline c = true := hg c (by simp)
  have hgap : ∀ d ∈ gap, isInline d = true := fun d hd => hg d (by simp [hd])
  obtain ⟨htake, hdrop⟩ := run_append hgap hv
  rw [List.cons_append, textHere?.eq_4]
  · rw [if_pos hc, htake, hdrop]
  · rintro rfl
    cases hc
  · rintro r rfl
    cases hc

/-- Text that opens with no blank reaches to the next tag. -/
theorem textHere?_append {c : Char} {u : List Char} (hi : isInline c = false) (hl : isLineEnd c = false)
    (hopen : ¬ openBraces <:+: c :: u ++ ['\x7b']) (v : List Char) :
    textHere? (c :: u ++ (openBraces ++ v)) = some (c :: u, openBraces ++ v) := by
  have hcut : cutText? openBraces (c :: u ++ (openBraces ++ v)) = some (c :: u, v) :=
    cutText?_append (by simpa [openBraces] using hopen) v
  rw [List.cons_append, textHere?.eq_4]
  · rw [if_neg (by simp [hi]), ← List.cons_append, hcut]
  · rintro rfl
    cases hl
  · rintro r rfl
    cases hl

end Grammar
end MockTree.Template
