import Mathlib.Data.List.Induction
import MockTree.Template.Parser
import MockTree.Proofs.Text

/-! The argument called from. What the rewriting of a template source renames is told place by place, from
what stands before the place; and a source spelled with its keys marked is rewritten exactly when, in each of
its tags, the places renamed are the keys. -/
namespace MockTree.Template.Grammar
open Text

/-- Braces opened in t that no closing brace and no renamed argument has ended. -/
def Open (t : List Char) : Prop :=
  ∃ a b, t = a ++ openBraces ++ b ∧ '\x7d' ∉ b ∧ ∀ c, isBlank c = true → ¬ c :: "from=".toList <:+: b

/-- A name that follows t is the first argument after open braces, and set apart. -/
def Called (t : List Char) : Prop :=
  ∃ u c, t = u ++ [c] ∧ isBlank c = true ∧ Open u

theorem called_append_singleton {t : List Char} {c : Char} :
    Called (t ++ [c]) ↔ isBlank c = true ∧ Open t := by
  constructor
  · rintro ⟨u, d, ht, hd, ho⟩
    obtain ⟨rfl, hc⟩ := List.append_inj' ht rfl
    obtain rfl := (List.cons.inj hc).1
    exact ⟨hd, ho⟩
  · rintro ⟨hc, ho⟩
    exact ⟨t, c, rfl, hc, ho⟩

/-- Renaming, after what stands before, the word from where it is called and nothing else. -/
inductive Renames : List Char → List Char → List Char → Prop
  | done (t : List Char) : Renames t [] []
  | keep {t : List Char} {c : Char} {r r' : List Char} (h : Called t → ¬ "from=".toList <+: c :: r)
      (hr : Renames (t ++ [c]) r r') : Renames t (c :: r) (c :: r')
  | key {t r r' : List Char} (h : Called t) (hr : Renames (t ++ "from=".toList) r r') :
      Renames t ("from=".toList ++ r) ("source=".toList ++ r')

theorem renames_nil_iff {t s' : List Char} : Renames t [] s' ↔ s' = [] := by
  constructor
  · intro h
    cases h
    rfl
  · rintro rfl
    exact .done t

theorem renames_char_iff {t r r' : List Char} {c : Char} :
    Renames t (c :: r) (c :: r') ↔ (Called t → ¬ "from=".toList <+: c :: r) ∧ Renames (t ++ [c]) r r' := by
  constructor
  · generalize hs : c :: r = s
    generalize hs' : c :: r' = s'
    intro h
    cases h with
    | done => cases hs
    | keep h hr =>
      obtain ⟨rfl, rfl⟩ := List.cons.inj hs
      obtain ⟨-, rfl⟩ := List.cons.inj hs'
      exact ⟨h, hr⟩
    | key h hr =>
      -- the key begins with an f and its new name with an s
      have hf : c = 'f' := (List.cons.inj hs).1
      have hs : c = 's' := (List.cons.inj hs').1
      exact absurd (hf.symm.trans hs) (by decide)
  · rintro ⟨h, hr⟩
    exact .keep h hr

theorem renames_key_iff {t r r' : List Char} :
    Renames t ("from=".toList ++ r) ("source=".toList ++ r') ↔
      Called t ∧ Renames (t ++ "from=".toList) r r' := by
  constructor
  · generalize hs : "from=".toList ++ r = s
    generalize hs' : "source=".toList ++ r' = s'
    intro h
    cases h with
    | done => cases hs
    | keep h hr =>
      have hf := (List.cons.inj hs).1
      have hs := (List.cons.inj hs').1
      exact absurd (hf.trans hs.symm) (by decide)
    | key h hr =>
      obtain rfl := List.append_cancel_left hs
      obtain rfl := List.append_cancel_left hs'
      exact ⟨h, hr⟩
  · rintro ⟨h, hr⟩
    exact .key h hr

/-- What stands before a place decides what becomes of the text that follows it. -/
theorem Renames.unique {t s a b : List Char} (ha : Renames t s a) (hb : Renames t s b) : a = b := by
  induction ha generalizing b with
  | done => exact (renames_nil_iff.1 hb).symm
  | @keep t c r r' h hr ih =>
    generalize hs : c :: r = s at hb
    cases hb with
    | done => cases hs
    | keep h' hr' =>
      obtain ⟨rfl, rfl⟩ := List.cons.inj hs
      rw [ih hr']
    | key h' hr' => exact absurd (hs ▸ List.prefix_append _ _) (h h')
  | @key t r r' h hr ih =>
    generalize hs : "from=".toList ++ r = s at hb
    cases hb with
    | done => cases hs
    | keep h' hr' => exact absurd (hs ▸ List.prefix_append _ _) (h' h)
    | key h' hr' =>
      obtain rfl := List.append_cancel_left hs
      rw [ih hr']

theorem Renames.keep_append {t w s s' : List Char}
    (h : ∀ u v, w = u ++ v → v ≠ [] → Called (t ++ u) → ¬ "from=".toList <+: v ++ s)
    (hs : Renames (t ++ w) s s') : Renames t (w ++ s) (w ++ s') := by
  induction w generalizing t with
  | nil => simpa using hs
  | cons c w ih =>
    refine .keep (by simpa using h [] (c :: w) rfl (by simp)) (ih (fun u v hw hv => ?_) (by simpa using hs))
    simpa using h (c :: u) v (by simp [hw]) hv

/-! ### What the rewriting searches for -/

theorem open_of_append_singleton {t : List Char} {c : Char} (h : Open (t ++ [c])) :
    Open t ∧ c ≠ '\x7d' ∨ c = '\x7b' ∧ t.getLast? = some '\x7b' := by
  obtain ⟨a, b, ht, hb, hkey⟩ := h
  rcases List.eq_nil_or_concat b with rfl | ⟨b, d, rfl⟩
  · have ht : t ++ [c] = (a ++ ['\x7b']) ++ ['\x7b'] := by simpa [openBraces] using ht
    obtain ⟨rfl, hc⟩ := List.append_inj' ht rfl
    exact .inr ⟨(List.cons.inj hc).1, by simp⟩
  · have ht : t ++ [c] = (a ++ openBraces ++ b) ++ [d] := by simpa using ht
    obtain ⟨rfl, hc⟩ := List.append_inj' ht rfl
    obtain rfl := (List.cons.inj hc).1
    simp only [List.concat_eq_append, List.mem_append, List.mem_singleton, not_or] at hb hkey
    exact .inl ⟨⟨a, b, rfl, hb.1, fun c hc hi => hkey c hc (hi.trans (List.infix_append' [] b _))⟩,
      Ne.symm hb.2⟩

/-- The search ends at the first blank before the word, and passes no closing brace. -/
theorem search_eq_some {s a rest : List Char} (h : renameFrom.search s = some (a, rest)) :
    ∃ x c, s = x ++ c :: ("from=".toList ++ rest) ∧ a = x ++ c :: "source=".toList ∧ isBlank c = true ∧
      '\x7d' ∉ x ∧ ∀ u d v, x = u ++ d :: v → isBlank d = true →
        ¬ "from=".toList <+: v ++ c :: ("from=".toList ++ rest) := by
  induction s generalizing a with
  | nil => cases h
  | cons c r ih =>
    rw [renameFrom.search.eq_def] at h
    simp only at h
    split at h
    · cases h
    next hc =>
    have hc : c ≠ '\x7d' := fun he => hc (by simp [he])
    split at h
    · next hafter =>
      split at hafter
      · next hblank =>
        cases h
        exact ⟨[], c, by rw [after?_eq_some.1 hafter]; rfl, rfl, hblank, by simp, by simp⟩
      · cases hafter
    · next hafter =>
      obtain ⟨⟨a', rest'⟩, hr, he⟩ := Option.map_eq_some_iff.1 h
      cases he
      obtain ⟨x, d, rfl, rfl, hd, hx, hfirst⟩ := ih hr
      refine ⟨c :: x, d, rfl, rfl, hd, by simp [hx, hc.symm], fun u e v hu he => ?_⟩
      cases u with
      | nil =>
        obtain ⟨rfl, rfl⟩ := List.cons.inj hu
        rintro ⟨y, hy⟩
        rw [if_pos he, after?_eq_some.2 hy.symm] at hafter
        cases hafter
      | cons _ u =>
        obtain ⟨-, rfl⟩ := List.cons.inj hu
        exact hfirst u e v rfl he

theorem search_eq_none_of_cons {c : Char} {r : List Char} (h : renameFrom.search (c :: r) = none)
    (hc : c ≠ '\x7d') :
    renameFrom.search r = none ∧ (isBlank c = true → ¬ "from=".toList <+: r) := by
  rw [renameFrom.search.eq_def] at h
  simp only [beq_iff_eq, hc, if_false] at h
  split at h
  · cases h
  next hafter =>
  refine ⟨Option.map_eq_none_iff.1 h, fun hblank => ?_⟩
  rintro ⟨y, hy⟩
  rw [if_pos hblank, after?_eq_some.2 hy.symm] at hafter
  cases hafter

/-- Nothing that was begun in t is left to be renamed in s. -/
structure Settled (t s : List Char) : Prop where
  opened : Open t → renameFrom.search s = none
  called : Called t → ¬ "from=".toList <+: s
  brace : t.getLast? = some '\x7b' → ∀ r, s = '\x7b' :: r → renameFrom.search r = none

theorem not_open_nil : ¬ Open [] := by
  rintro ⟨a, b, h, -⟩
  simp [openBraces] at h

theorem settled_nil (s : List Char) : Settled [] s where
  opened h := absurd h not_open_nil
  called := by rintro ⟨u, c, h, -⟩; simp at h
  brace := by simp

/-- A character from where nothing is found is passed over. -/
theorem Settled.step {t r : List Char} {c : Char} (h : Settled t (c :: r))
    (hn : renameFrom.renamed? (c :: r) = none) : Settled (t ++ [c]) r where
  opened ho := by
    rcases open_of_append_singleton ho with ⟨ho, hc⟩ | ⟨rfl, ht⟩
    · exact (search_eq_none_of_cons (h.opened ho) hc).1
    · exact h.brace ht r rfl
  called := by
    intro hcalled
    obtain ⟨hc, ho⟩ := called_append_singleton.1 hcalled
    exact (search_eq_none_of_cons (h.opened ho) (by rintro rfl; cases hc)).2 hc
  brace hl y hy := by
    obtain rfl : c = '\x7b' := by simpa using hl
    subst hy
    exact Option.map_eq_none_iff.1 hn

theorem renamed?_eq_some {s done rest : List Char} (h : renameFrom.renamed? s = some (done, rest)) :
    ∃ x c, s = openBraces ++ x ++ c :: ("from=".toList ++ rest) ∧
      done = openBraces ++ x ++ c :: "source=".toList ∧ isBlank c = true ∧ '\x7d' ∉ x ∧
      ∀ u d v, x = u ++ d :: v → isBlank d = true →
        ¬ "from=".toList <+: v ++ c :: ("from=".toList ++ rest) := by
  rw [renameFrom.renamed?] at h
  split at h
  · next r hr =>
    obtain ⟨⟨a, rest'⟩, hs, he⟩ := Option.map_eq_some_iff.1 h
    cases he
    obtain ⟨x, c, rfl, rfl, hc, hx, hfirst⟩ := search_eq_some hs
    exact ⟨x, c, by simpa using after?_eq_some.1 hr, by simp, hc, hx, hfirst⟩
  · cases h

theorem not_prefix_brace (s : List Char) : ¬ "from=".toList <+: '\x7b' :: s := fun h =>
  absurd (List.cons_prefix_cons.1 h).1 (by decide)

theorem open_append {t x : List Char} (hx : '\x7d' ∉ x) {rest : List Char} {c : Char}
    (hfirst : ∀ u d v, x = u ++ d :: v → isBlank d = true →
      ¬ "from=".toList <+: v ++ c :: ("from=".toList ++ rest)) : Open (t ++ openBraces ++ x) := by
  refine ⟨t, x, rfl, hx, ?_⟩
  rintro d hd ⟨u, v, hv⟩
  refine hfirst u d ("from=".toList ++ v) (by simpa using hv.symm) hd ?_
  rw [List.append_assoc]
  exact List.prefix_append _ _

/-- A blank and the word end what was open before them. -/
theorem not_open_of_key (t : List Char) {c : Char} (hc : isBlank c = true) :
    ¬ Open (t ++ c :: "from=".toList) := by
  rintro ⟨a, b, ht, -, hkey⟩
  rcases List.append_eq_append_iff.1 ht with ⟨w, hw, hb⟩ | ⟨w, -, rfl⟩
  · rcases List.eq_nil_or_concat w with rfl | ⟨w, d, rfl⟩
    · exact hkey c hc ⟨[], [], by simpa using hb⟩
    · -- the braces would end among the characters of the word
      have hd : d = '\x7b' := by simpa [openBraces] using (congrArg List.getLast? hw).symm
      have hmem : d ∈ c :: "from=".toList := hb ▸ by simp
      subst hd
      rcases List.mem_cons.1 hmem with rfl | hmem
      · cases hc
      · exact absurd hmem (by decide)
  · exact hkey c hc ⟨w, [], by simp⟩

theorem settled_of_key (t : List Char) {c : Char} (hc : isBlank c = true) (s : List Char) :
    Settled (t ++ c :: "from=".toList) s where
  opened ho := absurd ho (not_open_of_key t hc)
  called hcalled := by
    have hcalled : Called ((t ++ c :: "from".toList) ++ ['=']) := by simpa using hcalled
    exact absurd (called_append_singleton.1 hcalled).1 (by decide)
  brace hl := by simp at hl

/-- A tag up to its first argument from is kept, and the argument renamed. -/
theorem renames_of_first {t x rest rest' : List Char} {c : Char} (hc : isBlank c = true) (hx : '\x7d' ∉ x)
    (hfirst : ∀ u d v, x = u ++ d :: v → isBlank d = true →
      ¬ "from=".toList <+: v ++ c :: ("from=".toList ++ rest))
    (hrest : Renames (t ++ openBraces ++ x ++ c :: "from=".toList) rest rest') :
    Renames t (openBraces ++ x ++ c :: ("from=".toList ++ rest))
      (openBraces ++ x ++ c :: ("source=".toList ++ rest')) := by
  have hkey : Renames (t ++ (openBraces ++ x ++ [c])) ("from=".toList ++ rest)
      ("source=".toList ++ rest') :=
    .key ⟨t ++ openBraces ++ x, c, by simp, hc, open_append hx hfirst⟩ (by simpa using hrest)
  have hkeep : Renames t ((openBraces ++ x ++ [c]) ++ ("from=".toList ++ rest))
      ((openBraces ++ x ++ [c]) ++ ("source=".toList ++ rest')) := by
    refine .keep_append (fun u v hw hv hcalled => ?_) hkey
    match u with
    | [] =>
      obtain rfl : v = _ := hw.symm
      exact not_prefix_brace _
    | [_] =>
      obtain rfl : v = _ := (List.cons.inj hw).2.symm
      exact not_prefix_brace _
    | b :: b' :: u =>
      obtain ⟨rfl, htail⟩ := List.cons.inj (List.cons.inj hw).2
      have htail : x ++ [c] = u ++ v := htail
      rcases List.eq_nil_or_concat u with rfl | ⟨u, d, rfl⟩
      · have hcalled : Called ((t ++ [b]) ++ ['\x7b']) := by simpa using hcalled
        exact absurd (called_append_singleton.1 hcalled).1 (by decide)
      · have hd : isBlank d = true := by
          have hcalled : Called ((t ++ b :: '\x7b' :: u) ++ [d]) := by simpa using hcalled
          exact (called_append_singleton.1 hcalled).1
        rcases List.eq_nil_or_concat v with rfl | ⟨v, f, rfl⟩
        · exact absurd rfl hv
        · have htail : x ++ [c] = (u ++ d :: v) ++ [f] := by simpa using htail
          obtain ⟨rfl, hf⟩ := List.append_inj' htail rfl
          obtain rfl := (List.cons.inj hf).1
          simpa using hfirst u d v rfl hd
  simpa using hkeep

/-- The rewriting renames what is called, and nothing else. -/
theorem renames_renameFrom {t s : List Char} (h : Settled t s) : Renames t s (renameFrom s) := by
  induction hn : s.length using Nat.strong_induction_on generalizing t s with
  | _ n ih =>
  subst hn
  cases s with
  | nil => rw [renameFrom]; exact .done t
  | cons c r =>
    rw [renameFrom]
    split
    · next done rest hr =>
      obtain ⟨x, d, hs, rfl, hd, hx, hfirst⟩ := renamed?_eq_some hr
      have hlen : rest.length ≤ r.length := by
        have := congrArg List.length hs
        simp [openBraces] at this
        omega
      rw [if_pos hlen, hs]
      have hrest := ih rest.length (by simp; omega) (settled_of_key (t ++ openBraces ++ x) hd rest) rfl
      simpa using renames_of_first hd hx hfirst hrest
    · next hr =>
      refine .keep h.called (ih r.length (by simp) (h.step hr) rfl)

end MockTree.Template.Grammar

namespace MockTree.Template.Spelling
open Text Grammar

/-! ### Sources with their keys marked -/

/-- A character of a source, or the key of an argument called from. -/
inductive Mark
  | char (c : Char)
  | key
  deriving DecidableEq, Repr

def Mark.text : Mark → List Char
  | .char c => [c]
  | .key => "from=".toList

def Mark.renamed : Mark → List Char
  | .char c => [c]
  | .key => "source=".toList

def text (marks : List Mark) : List Char := marks.flatMap Mark.text
def renamed (marks : List Mark) : List Char := marks.flatMap Mark.renamed

/-- Where the word stands after t and the marks before it, it is called exactly if it is a key. -/
def ExactAfter (t : List Char) (marks : List Mark) : Prop :=
  ∀ before after, marks = before ++ after → "from=".toList <+: text after →
    (Called (t ++ text before) ↔ after.head? = some .key)

@[simp] theorem text_nil : text [] = [] := rfl
@[simp] theorem text_char (c : Char) (marks : List Mark) : text (.char c :: marks) = c :: text marks := rfl
@[simp] theorem text_key (marks : List Mark) : text (.key :: marks) = "from=".toList ++ text marks := rfl
@[simp] theorem renamed_char (c : Char) (marks : List Mark) :
    renamed (.char c :: marks) = c :: renamed marks := rfl
@[simp] theorem renamed_key (marks : List Mark) :
    renamed (.key :: marks) = "source=".toList ++ renamed marks := rfl
@[simp] theorem text_append (a b : List Mark) : text (a ++ b) = text a ++ text b := by simp [text]
@[simp] theorem text_chars (s : List Char) : text (s.map .char) = s := by
  induction s with
  | nil => rfl
  | cons c s ih => rw [List.map_cons, text_char, ih]

theorem exactAfter_nil (t : List Char) : ExactAfter t [] := by
  intro before after h hw
  obtain ⟨-, rfl⟩ := List.append_eq_nil_iff.1 h.symm
  exact absurd hw (by decide)

theorem exactAfter_cons_iff {t : List Char} {m : Mark} {marks : List Mark} :
    ExactAfter t (m :: marks) ↔
      ("from=".toList <+: text (m :: marks) → (Called t ↔ m = .key)) ∧ ExactAfter (t ++ m.text) marks := by
  constructor
  · intro h
    refine ⟨fun hw => by simpa using h [] (m :: marks) rfl hw, fun before after hm hw => ?_⟩
    have := h (m :: before) after (by rw [hm]; rfl) hw
    simpa [text] using this
  · rintro ⟨hm, h⟩ before after he hw
    cases before with
    | nil =>
      obtain rfl : after = m :: marks := he.symm
      simpa using hm hw
    | cons m' before =>
      obtain ⟨rfl, rfl⟩ := List.cons.inj he
      simpa [text] using h before after rfl hw

/-- Marks are renamed as they stand exactly if the keys are what is called. -/
theorem renames_iff_exactAfter {t : List Char} {marks : List Mark} :
    Renames t (text marks) (renamed marks) ↔ ExactAfter t marks := by
  induction marks generalizing t with
  | nil => exact ⟨fun _ => exactAfter_nil t, fun _ => .done t⟩
  | cons m marks ih =>
    rw [exactAfter_cons_iff]
    cases m with
    | char c =>
      rw [renamed_char, text_char, renames_char_iff, ih]
      refine and_congr ?_ Iff.rfl
      simp only [reduceCtorEq, iff_false]
      exact ⟨fun h hw hc => h hc hw, fun h hc hw => h hw hc⟩
    | key =>
      rw [renamed_key, text_key, renames_key_iff, ih]
      refine and_congr ?_ Iff.rfl
      simp

/-! ### The parts of a source -/

def chars (s : List Char) : List Mark := s.map .char

mutual

/-- A value as it is written: text between quotes, a number, a word or a path, or a directive called in
parentheses. -/
inductive Value
  | quoted (quote : Char) (s : List Char)
  | plain (s : List Char)
  | call (path : List Char) (arguments : Arguments)

/-- Arguments as they are written, by position or by name, with the gaps before them and at the end. -/
inductive Arguments
  | done (gap : List Char)
  | positional (gap : List Char) (value : Value) (others : Arguments)
  | named (gap name : List Char) (value : Value) (others : Arguments)

end

/-- The name of an argument and its sign of equality. -/
def nameMarks (name : List Char) : List Mark :=
  if name = "from".toList then [.key] else chars (name ++ ['='])

mutual

def Value.marks : Value → List Mark
  | .quoted quote s => chars (quote :: s ++ [quote])
  | .plain s => chars s
  | .call path arguments => chars ('(' :: path) ++ arguments.marks ++ chars [')']

def Arguments.marks : Arguments → List Mark
  | .done gap => chars gap
  | .positional gap value others => chars gap ++ value.marks ++ others.marks
  | .named gap name value others => chars gap ++ nameMarks name ++ value.marks ++ others.marks

end

/-- A tag as it is written. -/
inductive Tag
  /-- A tag between two or more braces: what stands before its arguments, and these. -/
  | plain (more : Nat) (start : List Char) (arguments : Arguments)
  | comment (s : List Char)
  /-- The two tags of a raw block, and the text between them. -/
  | raw (start : List Char) (arguments : Arguments) (body name : List Char)

def opening (more : Nat) : List Char := openBraces ++ List.replicate more '\x7b'
def closing (more : Nat) : List Char := List.replicate more '\x7d' ++ closeBraces

def Tag.marks : Tag → List Mark
  | .plain more start arguments =>
    chars (opening more ++ start) ++ arguments.marks ++ chars (closing more)
  | .comment s => chars (openBraces ++ '!' :: s ++ closeBraces)
  | .raw start arguments body name =>
    chars (opening 2 ++ start) ++ arguments.marks ++
      chars (closing 2 ++ body ++ opening 2 ++ '/' :: name ++ closing 2)

/-- Taken by itself, the tag has its keys where the word is called, and nowhere else. -/
def Tag.Exact (tag : Tag) : Prop := ExactAfter [] tag.marks

/-- Text outside tags. -/
abbrev Plain := {s : List Char // ¬ openBraces <:+: s}

def Plain.nothing : Plain := ⟨[], fun h => List.cons_ne_nil _ _ (List.infix_nil.1 h)⟩

/-- A template source: tags, each after some text, and the text at the end. -/
structure Source where
  pieces : List (Plain × Tag)
  last : Plain

def Source.marks (source : Source) : List Mark :=
  source.pieces.flatMap (fun p => chars p.1.1 ++ p.2.marks) ++ chars source.last.1

/-- The source as it is written. -/
def Source.text (source : Source) : List Char := Spelling.text source.marks

/-- The source with the key of every argument called from renamed, and all else as it is. -/
def Source.renamed (source : Source) : List Char := Spelling.renamed source.marks

theorem Tag.exists_marks (tag : Tag) :
    ∃ inner, tag.marks = chars openBraces ++ inner ++ chars ['\x7d'] := by
  cases tag with
  | plain more start arguments =>
    refine ⟨chars (List.replicate more '\x7b' ++ start) ++ arguments.marks ++
      chars (List.replicate more '\x7d' ++ ['\x7d']), ?_⟩
    simp [Tag.marks, chars, opening, closing, closeBraces]
  | comment s => exact ⟨chars ('!' :: s ++ ['\x7d']), by simp [Tag.marks, chars, closeBraces]⟩
  | raw start arguments body name =>
    refine ⟨chars ("\x7b\x7b".toList ++ start) ++ arguments.marks ++
      chars (closing 2 ++ body ++ opening 2 ++ '/' :: name ++ "\x7d\x7d\x7d".toList), ?_⟩
    simp [Tag.marks, chars, opening, closing, closeBraces]

/-! ### Tags one by one -/

theorem open_of_called {t : List Char} (h : Called t) : Open t := by
  obtain ⟨u, c, rfl, hc, a, b, rfl, hb, hkey⟩ := h
  refine ⟨a, b ++ [c], by simp, ?_, ?_⟩
  · simp only [List.mem_append, List.mem_singleton, not_or]
    exact ⟨hb, by rintro rfl; cases hc⟩
  · rintro d hd ⟨x, y, hxy⟩
    rcases List.eq_nil_or_concat y with rfl | ⟨y, e, rfl⟩
    · have : c = '=' := by simpa using (congrArg List.getLast? hxy).symm
      subst this
      cases hc
    · have hxy : (x ++ d :: "from=".toList ++ y) ++ [e] = b ++ [c] := by simpa using hxy
      exact hkey d hd ⟨x, y, (List.append_inj' hxy rfl).1⟩

/-- Nothing is open in a text, and the next character opens nothing. -/
structure Ended (p : List Char) : Prop where
  opened : ¬ Open p
  brace : p.getLast? ≠ some '\x7b'

theorem ended_nil : Ended [] := ⟨not_open_nil, by simp⟩

theorem ended_brace (p : List Char) : Ended (p ++ ['\x7d']) where
  opened h := by
    rcases open_of_append_singleton h with ⟨-, h⟩ | ⟨h, -⟩
    · exact h rfl
    · cases h
  brace := by simp

/-- Only braces open anything. -/
theorem Ended.not_open {p u : List Char} (hp : Ended p) (hu : ¬ openBraces <:+: u) : ¬ Open (p ++ u) := by
  induction u using List.reverseRecOn with
  | nil => simpa using hp.opened
  | append_singleton u c ih =>
    intro h
    rw [← List.append_assoc] at h
    rcases open_of_append_singleton h with ⟨h, -⟩ | ⟨rfl, hlast⟩
    · exact ih (fun hi => hu (hi.trans (List.prefix_append u _).isInfix)) h
    · rcases List.eq_nil_or_concat u with rfl | ⟨u, d, rfl⟩
      · exact hp.brace (by simpa using hlast)
      · obtain rfl : d = '\x7b' := by simpa [← List.append_assoc] using hlast
        exact hu ⟨u, [], by simp [openBraces]⟩

/-- Text outside tags is left as it is. -/
theorem exactAfter_chars {p s : List Char} (marks : List Mark) (h : ∀ u, u <+: s → ¬ Open (p ++ u)) :
    ExactAfter p (chars s ++ marks) ↔ ExactAfter (p ++ s) marks := by
  induction s generalizing p with
  | nil => simp [chars]
  | cons c s ih =>
    have hp : ¬ Called p := fun hc => h [] List.nil_prefix (by simpa using open_of_called hc)
    rw [chars, List.map_cons, List.cons_append, exactAfter_cons_iff, ← chars,
      ih fun u hu => by simpa [Mark.text] using h (c :: u) (List.cons_prefix_cons.2 ⟨rfl, hu⟩)]
    simp [hp, Mark.text]

/-- What is open in a tag does not depend on what stands before the tag. -/
theorem open_append_iff {q w : List Char} (hq : ¬ Open q) :
    Open (q ++ openBraces ++ w) ↔ Open (openBraces ++ w) := by
  constructor
  · rintro ⟨a, b, h, hb, hkey⟩
    have h : q ++ (openBraces ++ w) = a ++ (openBraces ++ b) := by simpa using h
    rcases List.append_eq_append_iff.1 h with ⟨a', rfl, htail⟩ | ⟨m, rfl, htail⟩
    · exact ⟨a', b, by simpa using htail, hb, hkey⟩
    match m with
    | [] => exact ⟨[], b, by simpa using htail.symm, hb, hkey⟩
    | [d] =>
      -- a brace of the text before, and one of the tag
      obtain rfl : b = '\x7b' :: w := (List.cons.inj (List.cons.inj htail).2).2
      exact ⟨[], w, rfl, fun hw => hb (List.mem_cons_of_mem _ hw),
        fun c hc hi => hkey c hc (List.infix_cons hi)⟩
    | d :: d' :: m =>
      obtain ⟨rfl, hrest⟩ := List.cons.inj htail
      obtain ⟨rfl, rfl⟩ := List.cons.inj hrest
      refine absurd ⟨a, m, by simp [openBraces], ?_, fun c hc hi => ?_⟩ hq
      · exact fun hm => hb (List.mem_append_left _ hm)
      · exact hkey c hc (hi.trans (List.prefix_append m _).isInfix)
  · rintro ⟨a, b, h, hb, hkey⟩
    exact ⟨q ++ a, b, by rw [List.append_assoc, h]; simp, hb, hkey⟩

theorem called_append_iff {q w : List Char} (hq : ¬ Open q) :
    Called (q ++ openBraces ++ w) ↔ Called (openBraces ++ w) := by
  rcases List.eq_nil_or_concat w with rfl | ⟨w, c, rfl⟩
  · have h : ∀ t, ¬ Called (t ++ ['\x7b', '\x7b']) := fun t hc => by
      have hc : Called ((t ++ ['\x7b']) ++ ['\x7b']) := by simpa using hc
      exact absurd (called_append_singleton.1 hc).1 (by decide)
    exact iff_of_false (by simpa [openBraces] using h q) (by simpa [openBraces] using h [])
  · rw [List.concat_eq_append, ← List.append_assoc, ← List.append_assoc, called_append_singleton,
      called_append_singleton, open_append_iff hq]

theorem exactAfter_tag_iff {q : List Char} (hq : ¬ Open q) (inner : List Mark) :
    ExactAfter q (chars openBraces ++ inner) ↔ ExactAfter [] (chars openBraces ++ inner) := by
  refine forall₄_congr fun before after h hw => ?_
  rw [List.nil_append]
  match before with
  | [] =>
    obtain rfl : after = _ := h.symm
    exact absurd hw (not_prefix_brace _)
  | [_] =>
    obtain rfl : after = _ := (List.cons.inj h).2.symm
    exact absurd hw (not_prefix_brace _)
  | _ :: _ :: before =>
    obtain ⟨rfl, htail⟩ := List.cons.inj h
    obtain ⟨rfl, -⟩ := List.cons.inj htail
    have hcalled := called_append_iff (w := Spelling.text before) hq
    exact iff_congr (by simpa [openBraces] using hcalled) Iff.rfl

theorem prefix_append_cons_iff {w a b : List Char} {c : Char} (hc : c ∉ w) :
    w <+: a ++ c :: b ↔ w <+: a ++ [c] := by
  have ha : a ++ [c] <+: a ++ c :: b := ⟨b, by simp⟩
  constructor
  · intro hw
    rcases List.prefix_or_prefix_of_prefix hw ha with h | h
    · exact h
    · exact absurd (h.subset (by simp)) hc
  · exact fun hw => hw.trans ha

/-- Beyond a closing brace no word goes on. -/
theorem exactAfter_append {t : List Char} {a b : List Mark} :
    ExactAfter t (a ++ chars ['\x7d'] ++ b) ↔
      ExactAfter t (a ++ chars ['\x7d']) ∧ ExactAfter (t ++ Spelling.text (a ++ chars ['\x7d'])) b := by
  induction a generalizing t with
  | nil =>
    have hno (s : List Char) : ¬ "from=".toList <+: '\x7d' :: s := fun h =>
      absurd (List.cons_prefix_cons.1 h).1 (by decide)
    simp only [chars, List.map_cons, List.map_nil, List.nil_append, List.cons_append, exactAfter_cons_iff,
      text_char, text_nil, hno, false_imp_iff, exactAfter_nil, true_and, Mark.text]
  | cons m a ih =>
    have hword : "from=".toList <+: Spelling.text (m :: (a ++ chars ['\x7d'] ++ b)) ↔
        "from=".toList <+: Spelling.text (m :: (a ++ chars ['\x7d'])) := by
      have := prefix_append_cons_iff (a := Spelling.text (m :: a)) (b := Spelling.text b)
        (show '\x7d' ∉ "from=".toList by decide)
      simpa [Spelling.text, chars, Mark.text] using this
    rw [List.cons_append, List.cons_append, exactAfter_cons_iff, exactAfter_cons_iff, ih, hword, and_assoc]
    simp [Spelling.text]

theorem ended_tag (p : List Char) (tag : Tag) : Ended (p ++ Spelling.text tag.marks) := by
  obtain ⟨inner, h⟩ := tag.exists_marks
  have := ended_brace (p ++ openBraces ++ Spelling.text inner)
  simpa [h, chars] using this

theorem exactAfter_source {p : List Char} (hp : Ended p) (pieces : List (Plain × Tag)) (last : Plain) :
    ExactAfter p (Source.mk pieces last).marks ↔ ∀ piece ∈ pieces, piece.2.Exact := by
  have hplain (p : List Char) (hp : Ended p) (s : Plain) : ∀ u, u <+: s.1 → ¬ Open (p ++ u) :=
    fun u hu => hp.not_open fun hi => s.2 (hi.trans hu.isInfix)
  induction pieces generalizing p with
  | nil =>
    have h := exactAfter_chars [] (hplain p hp last)
    simpa [Source.marks, exactAfter_nil] using h
  | cons piece pieces ih =>
    obtain ⟨s, tag⟩ := piece
    obtain ⟨inner, htag⟩ := tag.exists_marks
    have hopen := hplain p hp s s.1 (List.prefix_refl _)
    have hmarks : (Source.mk ((s, tag) :: pieces) last).marks =
        chars s.1 ++ (tag.marks ++ (Source.mk pieces last).marks) := by simp [Source.marks]
    have hrest : ExactAfter (p ++ s.1 ++ Spelling.text tag.marks) (Source.mk pieces last).marks ↔
        ∀ piece ∈ pieces, piece.2.Exact := ih (ended_tag (p ++ s.1) tag)
    rw [hmarks, exactAfter_chars _ (hplain p hp s), htag, exactAfter_append, ← htag, hrest,
      List.forall_mem_cons, Tag.Exact, htag, List.append_assoc, exactAfter_tag_iff hopen]

/-- A source of well-formed tags is rewritten as it should be exactly if each of its tags is. -/
theorem renameFrom_eq_renamed_iff (source : Source) :
    renameFrom source.text = source.renamed ↔ ∀ piece ∈ source.pieces, piece.2.Exact := by
  rw [← exactAfter_source ended_nil source.pieces source.last, ← renames_iff_exactAfter]
  have h : Renames [] source.text (renameFrom source.text) := renames_renameFrom (settled_nil _)
  constructor
  · intro he
    rw [he] at h
    exact h
  · exact fun hr => h.unique hr

/-- A tag whose first argument has a closing brace for its value, and whose second is called from. -/
def braceTag : Tag :=
  .plain 0 "capture".toList
    (.named [' '] "key".toList (.quoted '"' ['\x7d'])
      (.named [' '] "from".toList (.quoted '"' "query".toList) (.done [])))

theorem renameFrom_braceTag :
    let source : Source := ⟨[(Plain.nothing, braceTag)], Plain.nothing⟩
    source.text = "\x7b\x7bcapture key=\"\x7d\" from=\"query\"\x7d\x7d".toList ∧
    source.renamed = "\x7b\x7bcapture key=\"\x7d\" source=\"query\"\x7d\x7d".toList ∧
    renameFrom source.text ≠ source.renamed := by
  refine ⟨by decide +kernel, by decide +kernel, by decide +kernel⟩

end MockTree.Template.Spelling
