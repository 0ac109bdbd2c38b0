import Mathlib.Data.List.Forall2
import Mathlib.Logic.Relation
import MockTree.Proofs.Closure

/-! What becoming a body does to a text: of two spaces side by side one goes, and a space comes between two
braces of a kind. A text of JSON to which that is done is still one, of the same value but for spaces in its
strings. -/
namespace MockTree
namespace Text

def braces : List Char := ['\x7b', '\x7d']

theorem mem_braces {c : Char} : c ∈ braces ↔ c = '\x7b' ∨ c = '\x7d' := by simp [braces]

/-- One of two spaces side by side is dropped, or two braces of a kind are parted. -/
inductive Respace : List Char → List Char → Prop
  | drop (a b : List Char) : Respace (a ++ ' ' :: ' ' :: b) (a ++ ' ' :: b)
  | part {c : Char} (hc : c ∈ braces) (a b : List Char) : Respace (a ++ c :: c :: b) (a ++ c :: ' ' :: c :: b)

/-- A text that becomes another one in such steps. -/
abbrev Respaced : List Char → List Char → Prop := Relation.ReflTransGen Respace

theorem Respace.cons {s t : List Char} (c : Char) (h : Respace s t) : Respace (c :: s) (c :: t) := by
  cases h with
  | drop a b => exact .drop (c :: a) b
  | part hc a b => exact .part hc (c :: a) b

theorem Respaced.cons {s t : List Char} (c : Char) (h : Respaced s t) : Respaced (c :: s) (c :: t) :=
  h.lift (c :: ·) fun _ _ => .cons c

/-- A text without spaces and braces. -/
def Unspaced (s : List Char) : Prop := ' ' ∉ s ∧ '\x7b' ∉ s ∧ '\x7d' ∉ s

instance : DecidablePred Unspaced := fun _ => inferInstanceAs (Decidable (_ ∧ _ ∧ _))

/-- A text without spaces and braces stays as it is. -/
theorem Respaced.eq_of_unspaced {s t : List Char} (h : Respaced s t) (hs : Unspaced s) : t = s := by
  induction h with
  | refl => rfl
  | tail _ hstep ih =>
    subst ih
    cases hstep with
    | drop a b => exact absurd (by simp) hs.1
    | @part c hc a b =>
      rcases mem_braces.1 hc with rfl | rfl
      · exact absurd (by simp) hs.2.1
      · exact absurd (by simp) hs.2.2

/-- Squeezing drops spaces only, where there are no other blanks. -/
theorem respaced_squeeze {s : List Char} (h : ∀ c ∈ s, isBlank c = true → c = ' ') : Respaced s (squeeze s) := by
  fun_induction squeeze s with
  | case1 => exact .refl
  | case2 c hc d r hd ih =>
    obtain rfl := h c (by simp) hc
    obtain rfl := h d (by simp) hd
    exact .head (.drop [] r) (ih fun e he => h e (List.mem_cons_of_mem _ he))
  | case3 c hc d r hd ih =>
    obtain rfl := h c (by simp) hc
    exact .cons ' ' (ih fun e he => h e (List.mem_cons_of_mem _ he))
  | case4 c hc =>
    obtain rfl := h c (by simp) hc
    exact .refl
  | case5 c r hc ih => exact .cons c (ih fun e he => h e (List.mem_cons_of_mem _ he))

theorem respaced_partBraces (s : List Char) : Respaced s (Definition.partBraces s) := by
  have hopen (s : List Char) : Respaced s (replaceFirst "\x7b\x7b\x7b".toList "\x7b \x7b\x7b".toList s) := by
    rw [replaceFirst]
    split
    · next a b h =>
      rw [cutText?_eq_some h]
      simpa using Relation.ReflTransGen.single (Respace.part (c := '\x7b') (by decide) a ('\x7b' :: b))
    · exact .refl
  have hclose (s : List Char) : Respaced s (replaceFirst "\x7d\x7d\x7d".toList "\x7d\x7d \x7d".toList s) := by
    rw [replaceFirst]
    split
    · next a b h =>
      rw [cutText?_eq_some h]
      simpa using Relation.ReflTransGen.single (Respace.part (c := '\x7d') (by decide) (a ++ ['\x7d']) b)
    · exact .refl
  exact (hopen s).trans (hclose _)

end Text

namespace Json
open Text Definition

/-! Between quotes. -/

/-- A character that stands for itself between quotes, and is no part of an escape. -/
def Bare (c : Char) : Prop := escaped? c = none ∧ hexValue? c = none ∧ c ≠ 'u' ∧ 32 ≤ c.toNat ∧ c.toNat < 0xD800

theorem bare_space : Bare ' ' := ⟨rfl, rfl, by decide, by decide, by decide⟩

theorem bare_brace {c : Char} (h : c ∈ braces) : Bare c := by
  rcases mem_braces.1 h with rfl | rfl <;> exact ⟨rfl, rfl, by decide, by decide, by decide⟩

theorem Bare.ne {c : Char} (h : Bare c) : c ≠ '"' ∧ c ≠ '\\' := by
  constructor <;> rintro rfl <;> cases h.1

theorem Bare.raw {c : Char} (h : Bare c) {raw : List Char} {ns : List ℕ} (hr : Raw raw ns) :
    Raw (c :: raw) (c.toNat :: ns) := .char h.2.2.2.1 h.ne.1 h.ne.2 hr

theorem Raw.append {raw raw' : List Char} {ns ns' : List ℕ} (h : Raw raw ns) (h' : Raw raw' ns') :
    Raw (raw ++ raw') (ns ++ ns') := by
  induction h with
  | nil => exact h'
  | unit hu _ ih => exact .unit hu ih
  | escape he _ ih => exact .escape he ih
  | char hc hq hb _ ih => exact .char hc hq hb ih

theorem hexUnit?_bare {a b c d : Char} {n : ℕ} (h : hexUnit? a b c d = some n) :
    ¬ Bare a ∧ ¬ Bare b ∧ ¬ Bare c ∧ ¬ Bare d := by
  have hne : ∀ {x : Char} {k : ℕ}, hexValue? x = some k → ¬ Bare x := fun hx hb => by
    rw [hb.2.1] at hx
    cases hx
  obtain ⟨x, hx, h⟩ := Option.bind_eq_some_iff.1 h
  obtain ⟨y, hy, h⟩ := Option.bind_eq_some_iff.1 h
  obtain ⟨z, hz, h⟩ := Option.bind_eq_some_iff.1 h
  obtain ⟨w, hw, -⟩ := Option.bind_eq_some_iff.1 h
  exact ⟨hne hx, hne hy, hne hz, hne hw⟩

/-- What stands between quotes may be cut at a bare character. -/
theorem Raw.split {p q : List Char} {c : Char} (hc : Bare c) {ns : List ℕ} (h : Raw (p ++ c :: q) ns) :
    ∃ ms ls, Raw p ms ∧ Raw q ls ∧ ns = ms ++ c.toNat :: ls := by
  generalize hs : p ++ c :: q = s at h
  induction h generalizing p with
  | nil => simp at hs
  | @unit a b c' d n raw ns hu hr ih =>
    obtain ⟨ha, hb, hc', hd⟩ := hexUnit?_bare hu
    rcases p with _ | ⟨x₁, _ | ⟨x₂, _ | ⟨x₃, _ | ⟨x₄, _ | ⟨x₅, _ | ⟨x₆, p⟩⟩⟩⟩⟩⟩ <;>
      simp only [List.nil_append, List.cons_append, List.cons.injEq] at hs
    · exact absurd hs.1 hc.ne.2
    · exact absurd hs.2.1 hc.2.2.1
    · exact absurd (hs.2.2.1 ▸ hc) ha
    · exact absurd (hs.2.2.2.1 ▸ hc) hb
    · exact absurd (hs.2.2.2.2.1 ▸ hc) hc'
    · exact absurd (hs.2.2.2.2.2.1 ▸ hc) hd
    · obtain ⟨rfl, rfl, rfl, rfl, rfl, rfl, hs⟩ := hs
      obtain ⟨ms, ls, hp, hq, rfl⟩ := ih hs
      exact ⟨n :: ms, ls, .unit hu hp, hq, rfl⟩
  | @escape e c' raw ns he hr ih =>
    rcases p with _ | ⟨x₁, _ | ⟨x₂, p⟩⟩ <;>
      simp only [List.nil_append, List.cons_append, List.cons.injEq] at hs
    · exact absurd hs.1 hc.ne.2
    · rw [← hs.2.1, hc.1] at he
      cases he
    · obtain ⟨rfl, rfl, hs⟩ := hs
      obtain ⟨ms, ls, hp, hq, rfl⟩ := ih hs
      exact ⟨c'.toNat :: ms, ls, .escape he hp, hq, rfl⟩
  | @char c' raw ns hlow hquote hback hr ih =>
    rcases p with _ | ⟨x₁, p⟩ <;> simp only [List.nil_append, List.cons_append, List.cons.injEq] at hs
    · obtain ⟨rfl, rfl⟩ := hs
      exact ⟨[], ns, .nil, hr, rfl⟩
    · obtain ⟨rfl, hs⟩ := hs
      obtain ⟨ms, ls, hp, hq, rfl⟩ := ih hs
      exact ⟨x₁.toNat :: ms, ls, .char hlow hquote hback hp, hq, rfl⟩

theorem joinUnits_append {c : Char} (hc : Bare c) (ms ls : List ℕ) :
    joinUnits (ms ++ c.toNat :: ls) = joinUnits ms ++ c :: joinUnits ls := by
  have hlow : c.toNat < 0xD800 := hc.2.2.2.2
  have hnone : isHighUnit c.toNat = false ∧ isLowUnit c.toNat = false := by
    constructor <;> simp [isHighUnit, isLowUnit] <;> omega
  have hself : joinUnits (c.toNat :: ls) = c :: joinUnits ls := by
    rw [joinUnits_cons hnone.1, ofUnit, hnone.1, hnone.2, if_neg (by simp), Char.ofNat_toNat]
  fun_induction joinUnits ms with
  | case1 => exact hself
  | case2 n =>
    rw [List.singleton_append, joinUnits, hnone.2, Bool.and_false, if_neg (by simp), hself]
    rfl
  | case3 n m ms h ih => rw [List.cons_append, List.cons_append, joinUnits, if_pos h, ih, List.cons_append]
  | case4 n m ms h ih =>
    rw [List.cons_append] at ih
    rw [List.cons_append, List.cons_append, joinUnits, if_neg h, ih, List.cons_append]

/-- What is respaced between quotes is read as a text that is respaced. -/
theorem Raw.respace {raw raw' : List Char} {ns : List ℕ} (h : Raw raw ns) (hs : Respace raw raw') :
    ∃ ns', Raw raw' ns' ∧ Respace (joinUnits ns) (joinUnits ns') := by
  have hspace := bare_space
  cases hs with
  | drop a b =>
    obtain ⟨ms, _, ha, hmore, rfl⟩ := h.split hspace
    obtain ⟨_, ls, hnil, hb, rfl⟩ := hmore.split (p := []) hspace
    cases hnil
    refine ⟨_, ha.append (hspace.raw hb), ?_⟩
    rw [List.nil_append, joinUnits_append hspace, joinUnits_append hspace, ← List.nil_append (_ :: ls),
      joinUnits_append hspace]
    exact .drop _ _
  | @part c hc a b =>
    have hbare := bare_brace hc
    obtain ⟨ms, _, ha, hmore, rfl⟩ := h.split hbare
    obtain ⟨_, ls, hnil, hb, rfl⟩ := hmore.split (p := []) hbare
    cases hnil
    refine ⟨_, ha.append (hbare.raw (hspace.raw (hbare.raw hb))), ?_⟩
    have hcons (d : Char) (hd : Bare d) (ls : List ℕ) : joinUnits (d.toNat :: ls) = d :: joinUnits ls :=
      joinUnits_append hd [] ls
    rw [List.nil_append, joinUnits_append hbare, joinUnits_append hbare, hcons c hbare, hcons ' ' hspace,
      hcons c hbare]
    exact .part hc _ _

/-! Tokens. -/

/-- The same token, or a string whose text is respaced. -/
inductive Token.Respaced : Token → Token → Prop
  | mark (c : Char) : Respaced (.mark c) (.mark c)
  | atom (w : List Char) : Respaced (.atom w) (.atom w)
  | literal {raw raw' : List Char}
      (h : ∀ ns, Raw raw ns → ∃ ns', Raw raw' ns' ∧ Text.Respaced (joinUnits ns) (joinUnits ns')) :
      Respaced (.literal raw) (.literal raw')

@[refl] theorem Token.Respaced.refl (t : Token) : t.Respaced t := by
  cases t with
  | mark c => exact .mark c
  | atom w => exact .atom w
  | literal raw => exact .literal fun ns h => ⟨ns, h, .refl⟩

theorem Token.Respaced.trans {t u v : Token} (h : t.Respaced u) (h' : u.Respaced v) : t.Respaced v := by
  cases h with
  | mark | atom => exact h'
  | literal h =>
    cases h' with
    | literal h' =>
      refine .literal fun ns hns => ?_
      obtain ⟨ms, hms, hs⟩ := h ns hns
      obtain ⟨ls, hls, hs'⟩ := h' ms hms
      exact ⟨ls, hls, hs.trans hs'⟩

/-- Tokens one by one the same, but for respaced strings. -/
abbrev RespacedTokens : List Token → List Token → Prop := List.Forall₂ Token.Respaced

theorem RespacedTokens.refl (ts : List Token) : RespacedTokens ts ts :=
  List.forall₂_same.2 fun t _ => .refl t

theorem RespacedTokens.trans {ts us vs : List Token} (h : RespacedTokens ts us) (h' : RespacedTokens us vs) :
    RespacedTokens ts vs := by
  induction h generalizing vs with
  | nil => exact h'
  | cons ht _ ih =>
    cases h' with
    | cons hu hus => exact .cons (ht.trans hu) (ih hus)

theorem exists_append_of_forall₂ {α : Type} {R : α → α → Prop} {xs ys zs : List α}
    (h : List.Forall₂ R (xs ++ ys) zs) :
    ∃ xs' ys', zs = xs' ++ ys' ∧ List.Forall₂ R xs xs' ∧ List.Forall₂ R ys ys' := by
  induction xs generalizing zs with
  | nil => exact ⟨[], zs, rfl, .nil, h⟩
  | cons x xs ih =>
    cases h with
    | cons hx h =>
      obtain ⟨xs', ys', rfl, hxs, hys⟩ := ih h
      exact ⟨_ :: xs', ys', rfl, .cons hx hxs, hys⟩

theorem RespacedTokens.exists_append {ts us vs : List Token} (h : RespacedTokens (ts ++ us) vs) :
    ∃ ts' us', vs = ts' ++ us' ∧ RespacedTokens ts ts' ∧ RespacedTokens us us' := exists_append_of_forall₂ h

theorem RespacedTokens.mark {c : Char} {ts us : List Token} (h : RespacedTokens (.mark c :: ts) us) :
    ∃ us', us = .mark c :: us' ∧ RespacedTokens ts us' := by
  cases h with
  | cons ht h =>
    cases ht
    exact ⟨_, rfl, h⟩

theorem RespacedTokens.atom {w : List Char} {ts us : List Token} (h : RespacedTokens (.atom w :: ts) us) :
    ∃ us', us = .atom w :: us' ∧ RespacedTokens ts us' := by
  cases h with
  | cons ht h =>
    cases ht
    exact ⟨_, rfl, h⟩

theorem RespacedTokens.literal {raw : List Char} {ns : List ℕ} {ts us : List Token} (hraw : Raw raw ns)
    (h : RespacedTokens (.literal raw :: ts) us) : ∃ raw' ns' us', us = .literal raw' :: us' ∧ Raw raw' ns' ∧
      Text.Respaced (joinUnits ns) (joinUnits ns') ∧ RespacedTokens ts us' := by
  cases h with
  | cons ht h =>
    cases ht with
    | literal hlit =>
      obtain ⟨ns', hraw', hs⟩ := hlit ns hraw
      exact ⟨_, ns', _, rfl, hraw', hs, h⟩

theorem RespacedTokens.eq_nil {us : List Token} (h : RespacedTokens [] us) : us = [] :=
  List.forall₂_nil_left_iff.1 h

theorem Laid.cons {ts : List Token} {s : List Char} (t : Token) (gap : List Char)
    (hg : ∀ c ∈ gap, isSpace c = true) (h : Laid ts s) : Laid (t :: ts) (gap ++ (t.text ++ s)) := by
  obtain ⟨r, hs, hr⟩ := h
  exact ⟨r, .cons hg hs, hr⟩

theorem laid_gap (gap : List Char) (hg : ∀ c ∈ gap, isSpace c = true) : Laid [] gap := ⟨gap, .nil gap, hg⟩

theorem Laid.concat {ts us : List Token} {s m : List Char} (h : Laid ts s) (hu : Laid us m) :
    Laid (ts ++ us) (s ++ m) := by
  obtain ⟨r, hm, hr⟩ := hu
  cases us with
  | nil =>
    cases hm
    obtain ⟨r', hs, hr'⟩ := h
    rw [List.append_nil]
    exact ⟨r' ++ m, hs.extend m, List.forall_mem_append.2 ⟨hr', hr⟩⟩
  | cons u us => exact ⟨r, h.append hm (by simp), hr⟩

/-- Where a character that is part of no word stands in a text of tokens. -/
inductive Stands (c : Char) : List Token → List Char → List Char → Prop
  | gap {ts us : List Token} {before after : List Char} (hc : isSpace c = true) (ht : Laid ts before)
      (hu : Laid us after) : Stands c (ts ++ us) before after
  | mark {ts us : List Token} {before after : List Char} (ht : Laid ts before) (hu : Laid us after) :
      Stands c (ts ++ .mark c :: us) before after
  | literal {ts us : List Token} {p q front back : List Char} (ht : Laid ts front) (hu : Laid us back) :
      Stands c (ts ++ .literal (p ++ c :: q) :: us) (front ++ '"' :: p) (q ++ '"' :: back)

theorem Stands.cons {c : Char} {ts : List Token} {before after : List Char} (t : Token) {gap : List Char}
    (hg : ∀ d ∈ gap, isSpace d = true) (h : Stands c ts before after) :
    Stands c (t :: ts) (gap ++ (t.text ++ before)) after := by
  cases h with
  | gap hc ht hu => exact .gap hc (ht.cons t _ hg) hu
  | mark ht hu => exact .mark (ht.cons t _ hg) hu
  | @literal ts us p q front back ht hu =>
    have hstands := Stands.literal (c := c) (p := p) (q := q) (ht.cons t _ hg) hu
    simpa using hstands

theorem Laid.stands {ts : List Token} {s : List Char} (h : Laid ts s) (hts : ∀ t ∈ ts, t.Sound)
    {before after : List Char} {c : Char} (hs : s = before ++ c :: after) (hatom : isAtomChar c = false)
    (hq : c ≠ '"') : Stands c ts before after := by
  obtain ⟨r, h, hr⟩ := h
  induction h generalizing before with
  | nil r =>
    subst hs
    obtain ⟨hbefore, hafter⟩ := List.forall_mem_append.1 hr
    obtain ⟨hc, hafter⟩ := List.forall_mem_cons.1 hafter
    exact .gap hc (laid_gap _ hbefore) (laid_gap _ hafter)
  | @cons gap t ts s r hg h ih =>
    have hlaid : Laid ts s := ⟨r, h, hr⟩
    rcases append_eq_append_cons hs with ⟨m, rfl, hm⟩ | ⟨m, rfl, rfl⟩
    · rcases append_eq_append_cons hm with ⟨m', rfl, hm'⟩ | ⟨m', hm', rfl⟩
      · exact .cons t hg (ih (fun u hu => hts u (by simp [hu])) hm' hr)
      · rcases Token.split (hts t (by simp)) hm' hatom hq with ⟨rfl, rfl, rfl⟩ | ⟨p, q, rfl, rfl, rfl, -⟩
        · have hstands := Stands.mark (c := c) (laid_gap (gap ++ []) (by simpa using hg)) hlaid
          exact hstands
        · have hstands := Stands.literal (c := c) (p := p) (q := q) (laid_gap gap hg) hlaid
          simpa using hstands
    · obtain ⟨hbefore, hafter⟩ := List.forall_mem_append.1 hg
      obtain ⟨hc, hafter⟩ := List.forall_mem_cons.1 hafter
      have hstands := Stands.gap hc (laid_gap before hbefore) (hlaid.cons t m hafter)
      exact hstands

theorem Laid.literal (raw : List Char) {ts : List Token} {s : List Char} (h : Laid ts s) :
    Laid (.literal raw :: ts) ('"' :: (raw ++ '"' :: s)) := by
  have hcons := h.cons (.literal raw) [] (by simp)
  simpa [Token.text] using hcons

theorem RespacedTokens.of_respace {raw raw' : List Char} (h : Respace raw raw') (ts us : List Token) :
    RespacedTokens (ts ++ .literal raw :: us) (ts ++ .literal raw' :: us) := by
  refine List.rel_append (RespacedTokens.refl ts) (.cons (.literal fun ns hns => ?_) (RespacedTokens.refl us))
  obtain ⟨ns', hns', hs⟩ := hns.respace h
  exact ⟨ns', hns', .single hs⟩

/-- A text that is respaced is laid out of the same tokens, but for respaced strings. -/
theorem Laid.respace {ts : List Token} {s s' : List Char} (h : Laid ts s) (hts : ∀ t ∈ ts, t.Sound)
    (hs : Respace s s') : ∃ us, RespacedTokens ts us ∧ Laid us s' := by
  cases hs with
  | drop a b =>
    have hstands := h.stands hts rfl (c := ' ') (by decide) (by decide)
    generalize hafter : ' ' :: b = after at hstands
    cases hstands with
    | gap hc ht hu =>
      subst hafter
      exact ⟨_, .refl _, ht.concat hu⟩
    | mark => exact absurd (hts (.mark ' ') (by simp)) (by simp [marks])
    | @literal ts us p q front back ht hu =>
      cases q with
      | nil => cases hafter
      | cons d q =>
        obtain ⟨rfl, rfl⟩ := List.cons.inj hafter
        refine ⟨_, .of_respace (.drop p q) ts us, ?_⟩
        simpa using ht.concat (hu.literal (p ++ ' ' :: q))
  | @part c hc a b =>
    have hbrace : isSpace c = false ∧ isAtomChar c = false ∧ c ≠ '"' := by
      rcases mem_braces.1 hc with rfl | rfl <;> exact ⟨rfl, rfl, by decide⟩
    have hstands := h.stands hts rfl (c := c) hbrace.2.1 hbrace.2.2
    generalize hafter : c :: b = after at hstands
    cases hstands with
    | gap hspace =>
      rw [hbrace.1] at hspace
      cases hspace
    | mark ht hu =>
      have hgap := (laid_gap [' '] (by simp [isSpace])).concat hu
      have hmark := hgap.cons (.mark c) [] (by simp)
      exact ⟨_, .refl _, by simpa [Token.text, ← hafter] using ht.concat hmark⟩
    | @literal ts us p q front back ht hu =>
      cases q with
      | nil => exact absurd (List.cons.inj hafter).1 hbrace.2.2
      | cons d q =>
        obtain ⟨rfl, rfl⟩ := List.cons.inj hafter
        refine ⟨_, .of_respace (.part hc p q) ts us, ?_⟩
        simpa using ht.concat (hu.literal (p ++ c :: ' ' :: c :: q))

/-! Phrases. -/

/-- The same phrase but for respaced texts and names. -/
inductive Phrase.Respaced : Phrase → Phrase → Prop
  | refl (p : Phrase) : Respaced p p
  | text {s t : List Char} (h : Text.Respaced s t) : Respaced (.value (.ofChars s)) (.value (.ofChars t))
  | list {vs ws : List Value} (h : Respaced (.items vs) (.items ws)) :
      Respaced (.value (.list vs)) (.value (.list ws))
  | map {ps qs : List (Scalar × Value)} (h : Respaced (.fields ps) (.fields qs)) :
      Respaced (.value (.map (Value.ofPairs ps))) (.value (.map (Value.ofPairs qs)))
  | item {v w : Value} {vs ws : List Value} (h : Respaced (.value v) (.value w))
      (hr : Respaced (.items vs) (.items ws)) : Respaced (.items (v :: vs)) (.items (w :: ws))
  | field {s t : List Char} {v w : Value} {ps qs : List (Scalar × Value)} (hn : Text.Respaced s t)
      (h : Respaced (.value v) (.value w)) (hr : Respaced (.fields ps) (.fields qs)) :
      Respaced (.fields ((.text (String.ofList s), v) :: ps)) (.fields ((.text (String.ofList t), w) :: qs))

theorem Phrase.Respaced.exists_value {v : Value} {q : Phrase} (h : Respaced (.value v) q) :
    ∃ w, q = .value w := by
  cases h <;> exact ⟨_, rfl⟩

theorem Phrase.Respaced.exists_items {vs : List Value} {q : Phrase} (h : Respaced (.items vs) q) :
    ∃ ws, q = .items ws := by
  cases h <;> exact ⟨_, rfl⟩

theorem Phrase.Respaced.exists_fields {ps : List (Scalar × Value)} {q : Phrase} (h : Respaced (.fields ps) q) :
    ∃ qs, q = .fields qs := by
  cases h <;> exact ⟨_, rfl⟩

/-- Tokens with respaced strings spell a phrase with respaced texts. -/
theorem Spells.respaced {p : Phrase} {ts us : List Token} (h : Spells p ts) (hu : RespacedTokens ts us) :
    ∃ q, Spells q us ∧ p.Respaced q := by
  induction h generalizing us with
  | text hraw =>
    obtain ⟨_, _, us, rfl, hraw', hs, hrest⟩ := hu.literal hraw
    obtain rfl := hrest.eq_nil
    exact ⟨_, .text hraw', .text hs⟩
  | atom ha =>
    obtain ⟨us, rfl, hrest⟩ := hu.atom
    obtain rfl := hrest.eq_nil
    exact ⟨_, .atom ha, .refl _⟩
  | noItems =>
    obtain ⟨us, rfl, hrest⟩ := hu.mark
    obtain ⟨us, rfl, hnil⟩ := hrest.mark
    obtain rfl := hnil.eq_nil
    exact ⟨_, .noItems, .refl _⟩
  | list _ ih =>
    obtain ⟨us, rfl, hrest⟩ := hu.mark
    obtain ⟨q, hq, hr⟩ := ih hrest
    obtain ⟨ws, rfl⟩ := hr.exists_items
    exact ⟨_, .list hq, .list hr⟩
  | noFields =>
    obtain ⟨us, rfl, hrest⟩ := hu.mark
    obtain ⟨us, rfl, hnil⟩ := hrest.mark
    obtain rfl := hnil.eq_nil
    exact ⟨_, .noFields, .refl _⟩
  | map _ ih =>
    obtain ⟨us, rfl, hrest⟩ := hu.mark
    obtain ⟨q, hq, hr⟩ := ih hrest
    obtain ⟨qs, rfl⟩ := hr.exists_fields
    exact ⟨_, .map hq, .map hr⟩
  | lastItem _ ih =>
    obtain ⟨us, last, rfl, hus, hlast⟩ := hu.exists_append
    obtain ⟨last, rfl, hnil⟩ := hlast.mark
    obtain rfl := hnil.eq_nil
    obtain ⟨q, hq, hr⟩ := ih hus
    obtain ⟨w, rfl⟩ := hr.exists_value
    exact ⟨_, .lastItem hq, .item hr (.refl _)⟩
  | item _ _ ih ihr =>
    obtain ⟨us, more, rfl, hus, hmore⟩ := hu.exists_append
    obtain ⟨vs, rfl, hvs⟩ := hmore.mark
    obtain ⟨q, hq, hr⟩ := ih hus
    obtain ⟨w, rfl⟩ := hr.exists_value
    obtain ⟨q', hq', hr'⟩ := ihr hvs
    obtain ⟨ws, rfl⟩ := hr'.exists_items
    exact ⟨_, .item hq hq', .item hr hr'⟩
  | lastField hn _ ih =>
    obtain ⟨_, _, us, rfl, hn', hs, hrest⟩ := hu.literal hn
    obtain ⟨us, rfl, hvalue⟩ := hrest.mark
    obtain ⟨us, last, rfl, hus, hlast⟩ := hvalue.exists_append
    obtain ⟨last, rfl, hnil⟩ := hlast.mark
    obtain rfl := hnil.eq_nil
    obtain ⟨q, hq, hr⟩ := ih hus
    obtain ⟨w, rfl⟩ := hr.exists_value
    exact ⟨_, .lastField hn' hq, .field hs hr (.refl _)⟩
  | field hn _ _ ih ihr =>
    obtain ⟨_, _, us, rfl, hn', hs, hrest⟩ := hu.literal hn
    obtain ⟨us, rfl, hvalue⟩ := hrest.mark
    obtain ⟨us, more, rfl, hus, hmore⟩ := hvalue.exists_append
    obtain ⟨vs, rfl, hvs⟩ := hmore.mark
    obtain ⟨q, hq, hr⟩ := ih hus
    obtain ⟨w, rfl⟩ := hr.exists_value
    obtain ⟨q', hq', hr'⟩ := ihr hvs
    obtain ⟨ws, rfl⟩ := hr'.exists_fields
    exact ⟨_, .field hn' hq hq', .field hs hr hr'⟩

/-- The same value but for respaced texts and names. -/
def RespacedValue (v w : Value) : Prop := (Phrase.value v).Respaced (.value w)

/-- Respaced JSON is laid out of the same tokens, but for respaced strings. -/
theorem Laid.respaced {p : Phrase} {ts : List Token} {s s' : List Char} (h : Laid ts s) (hts : Spells p ts)
    (hs : Respaced s s') : ∃ us, RespacedTokens ts us ∧ Laid us s' := by
  induction hs with
  | refl => exact ⟨ts, .refl ts, h⟩
  | tail _ hstep ih =>
    obtain ⟨us, hus, hlaid⟩ := ih
    obtain ⟨q, hq, -⟩ := hts.respaced hus
    obtain ⟨vs, hvs, hlaid'⟩ := hlaid.respace hq.sound hstep
    exact ⟨vs, hus.trans hvs, hlaid'⟩

theorem Laid.trim_self {ts : List Token} {s : List Char} (h : Laid ts s) (hts : ∀ t ∈ ts, t.Sound) (hne : ts ≠ []) :
    Laid ts (Text.trim s) := by
  obtain ⟨r, h, hr⟩ := h
  refine ⟨_, (h.trimStart hts hne).1.trimEnd hts, fun c hc => hr c ?_⟩
  exact List.mem_reverse.1 ((List.dropWhile_sublist isBlank).mem (List.mem_reverse.1 hc))

/-- What is written as JSON and becomes a body is read as the same value but for respaced texts. -/
theorem exists_read?_normalize {v : Value} (h : obstacle? v = none) :
    ∃ w, Json.read? (normalize (Json.line v)) = some w ∧ RespacedValue (reread v) w := by
  obtain ⟨⟨ts, hts, hsp⟩, hprint⟩ := written_reread v 0 h
  have hlaid : Laid ts (Json.line v) := ⟨[], hsp, by simp⟩
  have hsqueeze : Respaced (Json.line v) (squeeze (Json.line v)) :=
    respaced_squeeze fun c hc hb => eq_space (hprint c hc) hb
  obtain ⟨us, hus, hlaid⟩ := hlaid.respaced hts hsqueeze
  obtain ⟨p, hp, -⟩ := hts.respaced hus
  obtain ⟨vs, hvs, hlaid⟩ := (hlaid.trim_self hp.sound hp.ne_nil).respaced hp
    (respaced_partBraces (trim (squeeze (Json.line v))))
  obtain ⟨q, hq, hr⟩ := hts.respaced (hus.trans hvs)
  obtain ⟨w, rfl⟩ := hr.exists_value
  exact ⟨w, read?_eq_some.2 ⟨vs, hq, hlaid⟩, hr⟩

/-! Mappings. Names without spaces and braces stay as they are, and so do the places of their fields. -/

theorem RespacedValue.refl (v : Value) : RespacedValue v v := Phrase.Respaced.refl _

/-- Fields one by one of the same key, with values that are the same but for respaced texts. -/
abbrev RespacedFields : List (Scalar × Value) → List (Scalar × Value) → Prop :=
  List.Forall₂ fun e d => e.1 = d.1 ∧ RespacedValue e.2 d.2

theorem RespacedFields.refl (entries : List (Scalar × Value)) : RespacedFields entries entries :=
  List.forall₂_same.2 fun e _ => ⟨rfl, .refl e.2⟩

/-- No name in a mapping has a space or a brace. -/
def UnspacedNames (entries : List (Scalar × Value)) : Prop :=
  ∀ name, Scalar.text name ∈ entries.map (·.1) → Unspaced name.toList

theorem RespacedFields.of_phrase {ps qs : List (Scalar × Value)} (h : (Phrase.fields ps).Respaced (.fields qs))
    (hps : UnspacedNames ps) : RespacedFields ps qs := by
  generalize hp : Phrase.fields ps = p at h
  generalize hq : Phrase.fields qs = q at h
  induction h generalizing ps qs with
  | refl =>
    cases hp
    cases hq
    exact .refl ps
  | @field s t v w ps' qs' hn h hr _ ihr =>
    cases hp
    cases hq
    obtain rfl := hn.eq_of_unspaced (by simpa using hps _ List.mem_cons_self)
    exact .cons ⟨rfl, h⟩ (ihr (fun name hname => hps name (List.mem_cons_of_mem _ hname)) rfl rfl)
  | _ => cases hp

theorem RespacedFields.insert {k : Scalar} {v w : Value} (hv : RespacedValue v w)
    {ps qs : List (Scalar × Value)} (h : RespacedFields ps qs) :
    RespacedFields (Value.insert k v ps) (Value.insert k w qs) := by
  induction h with
  | nil => exact .cons ⟨rfl, hv⟩ .nil
  | @cons e d ps qs he h ih =>
    obtain ⟨l, u⟩ := e
    obtain ⟨l', u'⟩ := d
    obtain ⟨rfl, hu⟩ := he
    rw [Value.insert, Value.insert]
    split
    · exact .cons ⟨rfl, hv⟩ h
    · exact .cons ⟨rfl, hu⟩ ih

theorem ofPairs_concat (ps : List (Scalar × Value)) (e : Scalar × Value) :
    Value.ofPairs (ps ++ [e]) = Value.insert e.1 e.2 (Value.ofPairs ps) := by
  simp [Value.ofPairs]

theorem RespacedFields.ofPairs {ps qs : List (Scalar × Value)} (h : RespacedFields ps qs) :
    RespacedFields (Value.ofPairs ps) (Value.ofPairs qs) := by
  induction ps using List.reverseRecOn generalizing qs with
  | nil =>
    obtain rfl := List.forall₂_nil_left_iff.1 h
    exact .nil
  | append_singleton ps e ih =>
    obtain ⟨qs, last, rfl, hqs, hlast⟩ := exists_append_of_forall₂ h
    cases hlast with
    | @cons _ d _ _ he hnil =>
      cases hnil
      rw [ofPairs_concat, ofPairs_concat, ← he.1]
      exact (ih hqs).insert he.2

theorem RespacedFields.find? {ps qs : List (Scalar × Value)} (h : RespacedFields ps qs) (key : Scalar) :
    Option.Rel RespacedValue (Value.find? key ps) (Value.find? key qs) := by
  induction h with
  | nil => exact .none
  | @cons e d ps qs he _ ih =>
    obtain ⟨k, v⟩ := e
    obtain ⟨k', w⟩ := d
    obtain ⟨rfl, hv⟩ := he
    rw [Value.find?, Value.find?]
    split
    · exact .some hv
    · exact ih

theorem mem_keys_insert (key : Scalar) (v : Value) {k : Scalar} {entries : List (Scalar × Value)}
    (h : k ∈ entries.map (·.1)) : k ∈ (Value.insert key v entries).map (·.1) := by
  induction entries with
  | nil => cases h
  | cons e entries ih =>
    rw [Value.insert]
    split
    · exact h
    · exact (List.mem_cons.1 h).elim (fun he => he ▸ List.mem_cons_self) fun h => List.mem_cons_of_mem _ (ih h)

theorem text_mem_keys_insert (name : String) (v : Value) (entries : List (Scalar × Value)) :
    Scalar.text name ∈ (Value.insert (.text name) v entries).map (·.1) := by
  induction entries with
  | nil => exact List.mem_cons_self
  | cons e entries ih =>
    rw [Value.insert]
    split
    · next hk => exact Scalar.same_text_iff.1 hk ▸ List.mem_cons_self
    · exact List.mem_cons_of_mem _ ih

theorem text_mem_keys_ofPairs {name : String} {ps : List (Scalar × Value)}
    (h : Scalar.text name ∈ ps.map (·.1)) : Scalar.text name ∈ (Value.ofPairs ps).map (·.1) := by
  induction ps using List.reverseRecOn with
  | nil => cases h
  | append_singleton ps e ih =>
    rw [List.map_append, List.mem_append] at h
    rw [ofPairs_concat]
    rcases h with h | h
    · exact mem_keys_insert _ _ (ih h)
    · obtain hk := List.mem_singleton.1 h
      exact hk ▸ text_mem_keys_insert name e.2 (Value.ofPairs ps)

/-- A mapping whose names have no spaces and braces becomes one with the same names in the same order. -/
theorem RespacedValue.exists_map {entries : List (Scalar × Value)} {w : Value}
    (h : RespacedValue (.map entries) w) (hnames : UnspacedNames entries) :
    ∃ decoded, w = .map decoded ∧ RespacedFields entries decoded := by
  cases h with
  | refl => exact ⟨entries, rfl, .refl entries⟩
  | map h =>
    have hps := fun name hname => hnames name (text_mem_keys_ofPairs hname)
    exact ⟨_, rfl, (RespacedFields.of_phrase h hps).ofPairs⟩


end Json
end MockTree
