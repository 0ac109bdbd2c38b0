import MockTree.Proofs.History
import MockTree.Proofs.Text

/-! Text without tags. As a template it is read as one text, and printing it changes nothing. -/
namespace MockTree.Template
open Text

namespace Rule
variable {α β : Type}

/-- What a rule comes to at a place, and the furthest place seen then. -/
def runIn (r : Rule α) (c : Cursor) (seen : Nat) : Option (α × Cursor) × Nat :=
  StateT.run (OptionT.run (StateT.run r c)) seen

theorem apply_eq (r : Rule α) (s : List Char) :
    r.apply s = ((r.runIn ⟨0, s⟩ 0).1.map (·.1), (r.runIn ⟨0, s⟩ 0).2) := rfl

theorem runIn_bind (r : Rule α) (k : α → Rule β) (c : Cursor) (n : Nat) :
    (r >>= k).runIn c n =
      match r.runIn c n with
      | (some (a, c'), n') => (k a).runIn c' n'
      | (none, n') => (none, n') := by
  change StateT.run (OptionT.run (StateT.run r c >>= fun p => StateT.run (k p.1) p.2)) n = _
  rw [OptionT.run_bind, Option.elimM, StateT.run_bind, runIn]
  rcases StateT.run (OptionT.run (StateT.run r c)) n with ⟨_ | ⟨a, c'⟩, n'⟩ <;> rfl

theorem runIn_orElse (r q : Rule α) (c : Cursor) (n : Nat) :
    (r <|> q).runIn c n =
      match r.runIn c n with
      | (some p, n') => (some p, n')
      | (none, n') => q.runIn c n' := by
  change StateT.run (OptionT.run (StateT.run r c <|> StateT.run q c)) n = _
  rw [OptionT.run_orElse, Option.elimM, StateT.run_bind, runIn]
  rcases StateT.run (OptionT.run (StateT.run r c)) n with ⟨_ | ⟨a, c'⟩, n'⟩ <;> rfl

@[simp] theorem runIn_pure (a : α) (c : Cursor) (n : Nat) : (pure a : Rule α).runIn c n = (some (a, c), n) :=
  rfl

@[simp] theorem runIn_get (c : Cursor) (n : Nat) : (get : Rule Cursor).runIn c n = (some (c, c), n) := rfl

@[simp] theorem runIn_set (c c' : Cursor) (n : Nat) : (set c' : Rule Unit).runIn c n = (some ((), c'), n) :=
  rfl

@[simp] theorem runIn_seeHere (c : Cursor) (n : Nat) : seeHere.runIn c n = (some ((), c), max c.place n) :=
  rfl

end Rule

namespace Grammar
open Rule

/-- No tag opens at the end of the text. -/
theorem runIn_block (fuel : Nat) (mark : Char) (p n : Nat) :
    (block fuel mark).runIn ⟨p, []⟩ n = (none, n) := by
  cases fuel <;> rw [block] <;> rfl

theorem runIn_tag (fuel p n : Nat) : (tag fuel).runIn ⟨p, []⟩ n = (none, n) := by
  cases fuel with
  | zero => rw [tag]; rfl
  | succ fuel =>
    rw [tag]
    simp only [runIn_orElse, runIn_block]
    rfl

theorem runIn_pieces_nil (fuel p n : Nat) :
    (pieces (fuel + 1)).runIn ⟨p, []⟩ n = (some ([], ⟨p, []⟩), max p n) := by
  rw [pieces, runIn_bind, runIn_get]
  simp only [textHere?]
  rw [runIn_orElse, runIn_bind, runIn_tag]
  rfl

/-- A text that is all text is the one piece, and is seen to the end. -/
theorem apply_pieces {s : List Char} (h : textHere? s = some (s, [])) (fuel : Nat) :
    Rule.apply (pieces (fuel + 2)) s = (some [pieceText s], s.length) := by
  have hrun : (pieces (fuel + 2)).runIn ⟨0, s⟩ 0 = (some ([pieceText s], ⟨s.length, []⟩), s.length) := by
    rw [pieces, runIn_bind, runIn_get]
    simp only [h, runIn_bind, runIn_set, runIn_seeHere, runIn_pieces_nil, runIn_pure]
    simp
  rw [apply_eq, hrun]
  rfl

/-- Nothing in a text that a template would take for a tag or the edge of one. -/
structure Tagless (s : List Char) : Prop where
  opening : ¬ openBraces <:+: s
  tilde : ¬ '~' :: closeBraces <:+: s

/-- What a tag opens with if it may share its line, or the blanks around it may go. -/
def lineMarks : List Char := ['#', '/', '!', '~', 'e']

/-- Tags of a text share no line with blanks to remove, have no tildes and no argument to rename. -/
structure Steady (s : List Char) : Prop where
  tags : ∀ r, openBraces ++ r <:+ s → (∀ c ∈ r.head?, c ∉ lineMarks) ∧ renameFrom.search r = none
  tilde : ¬ '~' :: closeBraces <:+: s

theorem Steady.of_suffix {s t : List Char} (h : Steady s) (ht : t <:+ s) : Steady t :=
  ⟨fun r hr => h.tags r (hr.trans ht), fun hi => h.tilde (hi.trans ht.isInfix)⟩

theorem Tagless.steady {s : List Char} (h : Tagless s) : Steady s :=
  ⟨fun r hr => absurd ((List.prefix_append openBraces r).isInfix.trans hr.isInfix) h.opening, h.tilde⟩

theorem renameFrom_of_steady {s : List Char} (h : Steady s) : renameFrom s = s := by
  induction s with
  | nil => rw [renameFrom]
  | cons c r ih =>
    have hn : renameFrom.renamed? (c :: r) = none := by
      rw [renameFrom.renamed?]
      split
      · next t ht =>
        rw [(h.tags t ⟨[], by simp [after?_eq_some.1 ht]⟩).2]
        rfl
      · rfl
    rw [renameFrom, hn]
    simp only
    rw [ih (h.of_suffix (List.suffix_cons c r))]

theorem isLineTag_of_head? {kinds inner : List Char} (hk : kinds ⊆ lineMarks)
    (h : ∀ c ∈ inner.head?, c ∉ lineMarks) (orElse : Bool) : isLineTag kinds orElse inner = false := by
  cases inner with
  | nil => rfl
  | cons c t =>
    have hc := h c rfl
    have hkind : c ∉ kinds := fun hm => hc (hk hm)
    have helse : c ≠ 'e' := by
      rintro rfl
      exact hc (by decide)
    simp [isLineTag, hkind, helse]

theorem afterLineTag?_of_steady {s : List Char} (h : Steady s) {kinds : List Char} (hk : kinds ⊆ lineMarks)
    (orElse : Bool) : afterLineTag? kinds orElse s = none := by
  rw [afterLineTag?.eq_def]
  split
  · next a b r =>
    split
    · next he =>
      have hr := (h.tags r ⟨[], by rw [← eq_of_beq he]; rfl⟩).1
      have hinner : isLineTag kinds orElse (r.takeWhile (!isBrace ·)) = false := by
        refine isLineTag_of_head? hk (fun c hc => hr c ?_) orElse
        obtain ⟨t, ht⟩ := List.takeWhile_prefix (!isBrace ·) (l := r)
        rw [← ht, List.head?_append, Option.mem_def.1 hc]
        rfl
      simp only [hinner, Bool.and_false, Bool.false_eq_true, if_false]
      split <;> rfl
    · rfl
  · rfl

theorem afterLineTags?_of_steady {s : List Char} (h : Steady s) {kinds : List Char} (hk : kinds ⊆ lineMarks)
    (orElse : Bool) (fuel : Nat) : afterLineTags? kinds orElse fuel s = none := by
  cases fuel with
  | zero => rfl
  | succ fuel =>
    rw [afterLineTags?, afterLineTag?_of_steady (h.of_suffix (List.dropWhile_suffix _)) hk]

theorem afterTidied?_of_steady {s : List Char} (h : Steady s) (previous : Option Char) :
    afterTidied? previous s = none := by
  have hright : afterRightTilde? s = none := by
    rw [afterRightTilde?.eq_def]
    split
    · next a b r =>
      rw [if_neg]
      intro he
      exact h.tilde ⟨[], r, by rw [← eq_of_beq he]; rfl⟩
    · rfl
  have hleft : afterLeftTilde? s = none := by
    have hs := h.of_suffix (List.dropWhile_suffix isBlank)
    rw [afterLeftTilde?]
    split
    · next a b r he =>
      rw [he] at hs
      rw [if_neg]
      intro he
      exact (hs.tags ('~' :: r) ⟨[], by rw [← eq_of_beq he]; rfl⟩).1 '~' rfl (by decide)
    · rfl
  have hline : ∀ kinds ⊆ lineMarks, ∀ orElse, afterTagLine? kinds orElse s = none :=
    fun kinds hk orElse => by rw [afterTagLine?, afterLineTags?_of_steady h hk, Option.bind_none]
  have hlast : afterLastLine? s = none := by
    rw [afterLastLine?, Option.bind_eq_none_iff]
    intro r hr
    have hsuffix : r <:+ s := by
      rw [afterNewline?.eq_def] at hr
      split at hr
      · cases hr; exact (List.suffix_cons _ _).trans (List.suffix_cons _ _)
      · cases hr; exact List.suffix_cons _ _
      · cases hr
    rw [afterLineTags?_of_steady (h.of_suffix hsuffix) (by decide)]
  rw [afterTidied?, hright, hleft, hline _ (by decide), hline _ (by decide), hlast]
  simp

theorem tidy_of_steady {s : List Char} (h : Steady s) : tidy s = s := by
  have hfrom : ∀ previous, tidyFrom previous s = s := by
    induction s with
    | nil => intro previous; rw [tidyFrom]
    | cons c r ih =>
      intro previous
      rw [tidyFrom, afterTidied?_of_steady h]
      simp only
      rw [ih (h.of_suffix (List.suffix_cons c r))]
  exact hfrom none

/-- A steady text is read as it stands. -/
theorem read_of_steady {s : List Char} (h : Steady s) {nodes : List Node} (hr : readTidy s = .ok nodes) :
    read s = .ok nodes := by
  rw [read, renameFrom_of_steady h, tidy_of_steady h]
  simp only [hr]

/-- Text without tags is read as one text, if it does not open with a blank. -/
theorem read_of_tagless {s : List Char} (h : Tagless s) {c : Char} (hc : c ∈ s.head?)
    (hb : isBlank c = false) : read s = .ok [.text s] := by
  have hhere : textHere? s = some (s, []) := by
    obtain ⟨r, rfl⟩ : ∃ r, s = c :: r := by
      cases s with
      | nil => cases hc
      | cons d r => cases hc; exact ⟨r, rfl⟩
    have hinline : isInline c = false := by
      rw [← Bool.not_eq_true]
      intro hi
      simp only [isInline, Bool.or_eq_true, beq_iff_eq] at hi
      rcases hi with rfl | rfl <;> cases hb
    rw [textHere?.eq_4]
    · rw [if_neg (by simp [hinline]), cutText?_eq_none h.opening]
    · rintro rfl
      cases hb
    · rintro t rfl
      cases hb
  have hready : readTidy s = .ok [.text s] := by
    rw [readTidy, show 3 * s.length + 3 = (3 * s.length + 1) + 2 from rfl, apply_pieces hhere]
    simp [allSound, nodesOf, pieceText]
  exact read_of_steady h.steady hready

theorem read_nil : read [] = .ok [] := by
  rw [read, renameFrom, tidy, tidyFrom]
  rfl

end Grammar
end MockTree.Template

namespace MockTree
open Template Text

/-- Text without tags renders to itself. -/
theorem render_of_tagless (registry : Registry) (s : Setting) {σ : Session} (hσ : σ.Sound)
    {source : List Char} (h : Grammar.Tagless source) {c : Char} (hc : c ∈ source.head?)
    (hb : isBlank c = false) :
    ∃ τ, τ.Sound ∧ (render registry s (String.ofList source)).runIn σ = (.ok (String.ofList source), τ) := by
  have hp : Template.print registry s [.text source] = pure (source ++ []) := rfl
  rw [List.append_nil] at hp
  exact render_of_read (Grammar.read_of_tagless h hc hb) hp hσ

end MockTree
