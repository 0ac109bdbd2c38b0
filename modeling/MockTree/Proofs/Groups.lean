import Mathlib.Data.List.Nodup
import MockTree.Pattern.Matcher

/-! The groups of a pattern. However a match is come by, nothing but groups of the pattern is marked on the way,
and a group that no way goes round has taken part at the end. -/
namespace MockTree.Pattern

deriving instance DecidableEq for Regex

/-- The numbers of the groups, in the order in which they open. -/
def Regex.groups : Regex → List Nat
  | .empty | .chars _ | .anchor _ | .sameAs .. => []
  | .seq a b | .alt a b | .choice _ a b => a.groups ++ b.groups
  | .group n r => n :: r.groups
  | .repetition r .. | .atomic r | .ahead _ r | .behind _ _ r => r.groups

/-- Whether every match goes through a group. -/
def Regex.takes (n : Nat) : Regex → Bool
  | .empty | .chars _ | .anchor _ | .sameAs .. | .ahead false _ | .behind false .. => false
  | .seq a b => a.takes n || b.takes n
  | .alt a b | .choice _ a b => a.takes n && b.takes n
  | .group m r => m == n || r.takes n
  | .repetition r low _ _ => 0 < low && r.takes n
  | .atomic r | .ahead true r | .behind true _ r => r.takes n

/-- Marks that were added to others, all of them of certain groups. -/
structure Marks.Adds (groups : List Nat) (m m' : Marks) : Prop where
  begun : ∃ b, m'.begun = b ++ m.begun ∧ ∀ x ∈ b, x.1 ∈ groups
  ended : ∃ e, m'.ended = e ++ m.ended ∧ ∀ x ∈ e, x.1 ∈ groups

namespace Marks.Adds
variable {groups : List Nat} {m m' m'' : Marks}

@[refl] theorem refl (groups : List Nat) (m : Marks) : m.Adds groups m := ⟨⟨[], rfl, by simp⟩, ⟨[], rfl, by simp⟩⟩

theorem trans (h : m.Adds groups m') (h' : m'.Adds groups m'') : m.Adds groups m'' := by
  obtain ⟨⟨b, hb, hbg⟩, ⟨e, he, heg⟩⟩ := h
  obtain ⟨⟨b', hb', hbg'⟩, ⟨e', he', heg'⟩⟩ := h'
  refine ⟨⟨b' ++ b, by rw [hb', hb, List.append_assoc], ?_⟩, ⟨e' ++ e, by rw [he', he, List.append_assoc], ?_⟩⟩
  · exact fun x hx => (List.mem_append.1 hx).elim (hbg' x) (hbg x)
  · exact fun x hx => (List.mem_append.1 hx).elim (heg' x) (heg x)

theorem mono {groups' : List Nat} (h : m.Adds groups m') (hsub : groups ⊆ groups') : m.Adds groups' m' := by
  obtain ⟨⟨b, hb, hbg⟩, ⟨e, he, heg⟩⟩ := h
  exact ⟨⟨b, hb, fun x hx => hsub (hbg x hx)⟩, ⟨e, he, fun x hx => hsub (heg x hx)⟩⟩

end Marks.Adds

/-- What matching a pattern does on the way from one state to another: it goes no place back, marks nothing but
groups of the pattern and forgets no group. -/
structure State.Leads (groups : List Nat) (s u : State) : Prop where
  place : s.place ≤ u.place
  marks : s.marks.Adds groups u.marks
  kept : ∀ n, (s.marks.find? n).isSome → (u.marks.find? n).isSome

namespace State.Leads
variable {groups groups' : List Nat} {s u v : State}

@[refl] theorem refl (groups : List Nat) (s : State) : s.Leads groups s := ⟨Nat.le_refl _, .refl _ _, fun _ h => h⟩

theorem trans (h : s.Leads groups u) (h' : u.Leads groups v) : s.Leads groups v :=
  ⟨Nat.le_trans h.place h'.place, h.marks.trans h'.marks, fun n hn => h'.kept n (h.kept n hn)⟩

theorem mono (h : s.Leads groups u) (hsub : groups ⊆ groups') : s.Leads groups' u :=
  ⟨h.place, h.marks.mono hsub, h.kept⟩

theorem of_marks_eq (hplace : s.place ≤ u.place) (hmarks : u.marks = s.marks) : s.Leads groups u :=
  ⟨hplace, hmarks ▸ .refl _ _, fun _ h => hmarks ▸ h⟩

end State.Leads

/-- Whatever a matcher finds, it finds by going on from a state that a relation allows. -/
def Matcher.Within (R : State → State → Prop) (m : Matcher) : Prop :=
  ∀ ⦃k s t⦄, m k s = some t → ∃ u, R s u ∧ k u = some t

namespace Matcher.Within
variable {R S : State → State → Prop} {m : Matcher}

theorem mono (h : m.Within R) (hRS : ∀ {s u}, R s u → S s u) : m.Within S := fun _ _ _ hm => by
  obtain ⟨u, hu, hk⟩ := h hm
  exact ⟨u, hRS hu, hk⟩

theorem once (h : m.Within R) : (Matcher.once m).Within R := by
  intro k s t hm
  obtain ⟨u, hu, hk⟩ := Option.bind_eq_some_iff.1 hm
  obtain ⟨v, hv, hvu⟩ := h hu
  cases hvu
  exact ⟨u, hv, hk⟩

theorem exactly (hrefl : ∀ s, R s s) (htrans : ∀ {s u v}, R s u → R u v → R s v) (h : m.Within R) (n : Nat) :
    (m.exactly n).Within R := by
  induction n with
  | zero => exact fun _ s _ hm => ⟨s, hrefl s, hm⟩
  | succ n ih =>
    intro k s t hm
    obtain ⟨u, hu, hk⟩ := h hm
    obtain ⟨v, hv, hk⟩ := ih hk
    exact ⟨v, htrans hu hv, hk⟩

theorem upTo (hrefl : ∀ s, R s s) (htrans : ∀ {s u v}, R s u → R u v → R s v) (h : m.Within R) (greedy : Bool)
    (n : Nat) (last : Option Nat) : (m.upTo greedy n last).Within R := by
  induction n generalizing last with
  | zero => exact fun _ s _ hm => ⟨s, hrefl s, hm⟩
  | succ n ih =>
    intro k s t hm
    have hround (hm : m (m.upTo greedy n (some s.place) k) s = some t) : ∃ u, R s u ∧ k u = some t := by
      obtain ⟨u, hu, hk⟩ := h hm
      obtain ⟨v, hv, hk⟩ := ih _ hk
      exact ⟨v, htrans hu hv, hk⟩
    rw [Matcher.upTo] at hm
    split at hm
    · split at hm
      · exact ⟨s, hrefl s, hm⟩
      · rcases Option.or_eq_some_iff.1 hm with hm | ⟨-, hm⟩
        · exact hround hm
        · exact ⟨s, hrefl s, hm⟩
    · rcases Option.or_eq_some_iff.1 hm with hm | ⟨-, hm⟩
      · exact ⟨s, hrefl s, hm⟩
      · split at hm
        · cases hm
        · exact hround hm

theorem rounds (hrefl : ∀ s, R s s) (htrans : ∀ {s u v}, R s u → R u v → R s v) (h : m.Within R) (low : Nat)
    (high : Option Nat) (greedy : Bool) : (Matcher.rounds m low high greedy).Within R := by
  intro k s t hm
  obtain ⟨u, hu, hk⟩ := exactly hrefl htrans h low hm
  obtain ⟨v, hv, hk⟩ := upTo hrefl htrans h greedy _ none hk
  exact ⟨v, htrans hu hv, hk⟩

/-- Where one round has to be made, what it comes to is left if no further round undoes it. -/
theorem rounds_of_pos (hrefl : ∀ s, R s s) (htrans : ∀ {s u v}, R s u → R u v → R s v) (h : m.Within R)
    (hS : m.Within S) (hkeep : ∀ {s u v}, S s u → R u v → S s v) {low : Nat} (hlow : 0 < low)
    (high : Option Nat) (greedy : Bool) : (Matcher.rounds m low high greedy).Within S := by
  obtain ⟨low, rfl⟩ := Nat.exists_eq_succ_of_ne_zero (Nat.ne_of_gt hlow)
  intro k s t hm
  obtain ⟨u, hu, hk⟩ := hS hm
  obtain ⟨v, hv, hk⟩ := exactly hrefl htrans h low hk
  obtain ⟨w, hw, hk⟩ := upTo hrefl htrans h greedy _ none hk
  exact ⟨w, hkeep hu (htrans hv hw), hk⟩

end Matcher.Within

namespace State
variable {s u v : State}

theorem next?_leads {c : Char} (h : s.next? = some (c, u)) (groups : List Nat) : s.Leads groups u := by
  rw [State.next?] at h
  split at h
  · cases h
  · cases h
    exact .of_marks_eq (Nat.le_succ _) rfl

theorem follow?_leads {folding : Folding} {w : List Char} (h : s.follow? folding w = some u)
    (groups : List Nat) : s.Leads groups u := by
  induction w generalizing s with
  | nil =>
    cases h
    rfl
  | cons c w ih =>
    obtain ⟨⟨d, v⟩, hnext, h⟩ := Option.bind_eq_some_iff.1 h
    dsimp only at h
    split at h
    · exact (next?_leads hnext groups).trans (ih h)
    · cases h

theorem back?_marks {n : Nat} (h : s.back? n = some u) : u.marks = s.marks := by
  induction n generalizing s with
  | zero =>
    cases h
    rfl
  | succ n ih =>
    rw [State.back?] at h
    split at h
    · cases h
    · exact (ih h).trans rfl

/-- A look around goes nowhere, and what it marks stays. -/
theorem Leads.look {groups : List Nat} (h : u.Leads groups v) (hmarks : u.marks = s.marks) :
    s.Leads groups { s with marks := v.marks } :=
  ⟨Nat.le_refl _, hmarks ▸ h.marks, hmarks ▸ h.kept⟩

end State

theorem Marks.find?_isSome_iff {m : Marks} {n : Nat} :
    (m.find? n).isSome ↔ ∃ a b, m.begun.lookup n = some a ∧ m.ended.lookup n = some b ∧ a ≤ b := by
  simp only [Marks.find?, Option.isSome_iff_exists]
  constructor
  · rintro ⟨x, hx⟩
    obtain ⟨a, ha, hx⟩ := Option.bind_eq_some_iff.1 hx
    obtain ⟨b, hb, hx⟩ := Option.bind_eq_some_iff.1 hx
    split at hx
    · exact ⟨a, b, ha, hb, ‹_›⟩
    · cases hx
  · rintro ⟨a, b, ha, hb, hab⟩
    exact ⟨(a, b), by simp [ha, hb, hab]⟩

section Group
variable {n i : Nat} {s u : State}

theorem State.find?_openGroup (h : i ≠ n) : (s.openGroup n).marks.find? i = s.marks.find? i := by
  simp only [Marks.find?, State.openGroup, List.lookup_cons, beq_eq_false_iff_ne.2 h]

theorem State.find?_closeGroup (h : i ≠ n) : (s.closeGroup n).marks.find? i = s.marks.find? i := by
  simp only [Marks.find?, State.closeGroup, List.lookup_cons, beq_eq_false_iff_ne.2 h]

/-- A group that is opened and closed has taken part, for it ends where it begins or after it. -/
theorem State.Leads.taken_closeGroup {groups : List Nat} (h : (s.openGroup n).Leads groups u) (hn : n ∉ groups) :
    ((u.closeGroup n).marks.find? n).isSome := by
  obtain ⟨b, hb, hbg⟩ := h.marks.begun
  have hnone : b.lookup n = none :=
    List.lookup_eq_none_iff.2 fun x hx => bne_iff_ne.2 fun hnx => hn (hnx ▸ hbg x hx)
  have hbegun : u.marks.begun.lookup n = some s.place := by
    rw [hb, List.lookup_append, hnone, Option.none_or]
    exact List.lookup_cons_self
  exact Marks.find?_isSome_iff.2 ⟨s.place, u.place, hbegun, List.lookup_cons_self, h.place⟩

theorem State.Leads.kept_closeGroup {groups : List Nat} (h : (s.openGroup n).Leads groups u) (hn : n ∉ groups)
    (hi : (u.marks.find? i).isSome) : ((u.closeGroup n).marks.find? i).isSome := by
  by_cases hin : i = n
  · exact hin ▸ h.taken_closeGroup hn
  · rwa [State.find?_closeGroup hin]

theorem State.Leads.group {groups : List Nat} (h : (s.openGroup n).Leads groups u) (hn : n ∉ groups) :
    s.Leads (n :: groups) (u.closeGroup n) := by
  obtain ⟨⟨b, hb, hbg⟩, ⟨e, he, heg⟩⟩ := h.marks
  refine ⟨h.place, ⟨⟨b ++ [(n, s.place)], ?_, ?_⟩, ⟨(n, u.place) :: e, ?_, ?_⟩⟩, fun i hi => ?_⟩
  · exact hb.trans (List.append_cons ..)
  · intro x hx
    rcases List.mem_append.1 hx with hx | hx
    · exact List.mem_cons_of_mem _ (hbg x hx)
    · exact List.mem_cons.2 (.inl (congrArg Prod.fst (List.mem_singleton.1 hx)))
  · exact congrArg ((n, u.place) :: ·) he
  · intro x hx
    rcases List.mem_cons.1 hx with rfl | hx
    · exact List.mem_cons_self
    · exact List.mem_cons_of_mem _ (heg x hx)
  · by_cases hin : i = n
    · exact hin ▸ h.taken_closeGroup hn
    · exact h.kept_closeGroup hn (h.kept i (by rwa [State.find?_openGroup hin]))

end Group

/-- What matching a pattern comes to: besides where it leads, the groups that it takes have taken part. -/
structure State.Passes (r : Regex) (s u : State) : Prop where
  leads : s.Leads r.groups u
  taken : ∀ n, r.takes n = true → (u.marks.find? n).isSome

namespace State.Passes
variable {r : Regex} {s u v : State}

theorem of_leads (h : s.Leads r.groups u) (htakes : ∀ n, r.takes n = false) : s.Passes r u :=
  ⟨h, fun n hn => absurd hn (by simp [htakes n])⟩

/-- What has taken part is left by what comes after. -/
theorem andThen {groups : List Nat} (h : s.Passes r u) (h' : u.Leads groups v) (n : Nat)
    (hn : r.takes n = true) : (v.marks.find? n).isSome :=
  h'.kept n (h.taken n hn)

theorem left (h : s.Passes r u) (r' : Regex) : s.Passes (.alt r r') u :=
  ⟨h.leads.mono (List.subset_append_left ..), fun n hn => h.taken n (Bool.and_eq_true_iff.1 hn).1⟩

theorem right (h : s.Passes r u) (r' : Regex) : s.Passes (.alt r' r) u :=
  ⟨h.leads.mono (List.subset_append_right ..), fun n hn => h.taken n (Bool.and_eq_true_iff.1 hn).2⟩

end State.Passes

open Matcher State in
/-- Whatever a pattern finds, it finds by passing to a state in which its groups are marked. By induction on the
pattern, for every way to go on from it; a repetition and what only counts once are put together of the ways of
the pattern that they repeat or hold. -/
theorem Regex.run_within (r : Regex) (h : r.groups.Nodup) : Matcher.Within (State.Passes r) r.run := by
  induction r with
  | empty => exact fun _ s _ hm => ⟨s, .of_leads (.refl _ _) fun _ => rfl, hm⟩
  | chars set =>
    intro k s t hm
    obtain ⟨⟨c, u⟩, hnext, hm⟩ := Option.bind_eq_some_iff.1 hm
    dsimp only at hm
    split at hm
    · exact ⟨u, .of_leads (next?_leads hnext _) fun _ => rfl, hm⟩
    · cases hm
  | anchor a =>
    intro k s t hm
    dsimp only [Regex.run] at hm
    split at hm
    · exact ⟨s, .of_leads (.refl _ _) fun _ => rfl, hm⟩
    · cases hm
  | seq a b iha ihb =>
    intro k s t hm
    obtain ⟨u, hu, hk⟩ := iha (List.nodup_append.1 h).1 hm
    obtain ⟨v, hv, hk⟩ := ihb (List.nodup_append.1 h).2.1 hk
    refine ⟨v, ⟨?_, fun n hn => ?_⟩, hk⟩
    · exact (hu.leads.mono (List.subset_append_left ..)).trans (hv.leads.mono (List.subset_append_right ..))
    · rcases Bool.or_eq_true_iff.1 hn with hn | hn
      · exact hu.andThen hv.leads n hn
      · exact hv.taken n hn
  | alt a b iha ihb =>
    intro k s t hm
    rcases Option.or_eq_some_iff.1 hm with hm | ⟨-, hm⟩
    · obtain ⟨u, hu, hk⟩ := iha (List.nodup_append.1 h).1 hm
      exact ⟨u, hu.left b, hk⟩
    · obtain ⟨u, hu, hk⟩ := ihb (List.nodup_append.1 h).2.1 hm
      exact ⟨u, hu.right a, hk⟩
  | group n r ih =>
    intro k s t hm
    obtain ⟨hn, h⟩ := List.nodup_cons.1 h
    obtain ⟨u, hu, hk⟩ := ih h hm
    refine ⟨u.closeGroup n, ⟨hu.leads.group hn, fun i hi => ?_⟩, hk⟩
    rcases Bool.or_eq_true_iff.1 hi with hi | hi
    · exact beq_iff_eq.1 hi ▸ hu.leads.taken_closeGroup hn
    · exact hu.leads.kept_closeGroup hn (hu.taken i hi)
  | repetition r low high greed ih =>
    -- every round leads on; the groups are those of the first round that has to be made
    have hleads {m : Matcher} (hm : m.Within (State.Passes r)) (greedy : Bool) :
        (Matcher.rounds m low high greedy).Within (State.Passes (.repetition r low high greed)) := by
      have hrounds : m.Within (State.Leads r.groups) := hm.mono fun hu => hu.leads
      rcases Nat.eq_zero_or_pos low with rfl | hlow
      · exact (hrounds.rounds (.refl _) .trans 0 high greedy).mono fun hu =>
          .of_leads hu fun n => by simp [Regex.takes]
      · refine (hrounds.rounds_of_pos (.refl _) .trans hm (fun hu hv => ?_) hlow high greedy).mono fun hu => ?_
        · exact ⟨hu.leads.trans hv, hu.andThen hv⟩
        · exact ⟨hu.leads, fun n hn => hu.taken n (Bool.and_eq_true_iff.1 hn).2⟩
    cases greed with
    | greedy => exact hleads (ih h) true
    | lazy => exact hleads (ih h) false
    | possessive => exact (hleads (ih h).once true).once
  | atomic r ih => exact (ih h).once.mono fun hu => ⟨hu.leads, hu.taken⟩
  | ahead holds r ih =>
    -- what a look ahead has marked stays, but it goes nowhere
    intro k s t hm
    cases holds with
    | true =>
      obtain ⟨v, hv, hk⟩ := Option.bind_eq_some_iff.1 hm
      obtain ⟨u, hu, hvu⟩ := ih h hv
      cases hvu
      exact ⟨{ s with marks := v.marks }, ⟨hu.leads.look rfl, hu.taken⟩, hk⟩
    | false =>
      dsimp only [Regex.run] at hm
      split at hm
      · cases hm
      · exact ⟨s, .of_leads (.refl _ _) fun _ => rfl, hm⟩
  | behind holds w r ih =>
    intro k s t hm
    cases holds with
    | true =>
      obtain ⟨b, hb, hm⟩ := Option.bind_eq_some_iff.1 hm
      obtain ⟨v, hv, hk⟩ := Option.bind_eq_some_iff.1 hm
      obtain ⟨u, hu, hvu⟩ := ih h hv
      cases hvu
      exact ⟨{ s with marks := v.marks }, ⟨hu.leads.look (State.back?_marks hb), hu.taken⟩, hk⟩
    | false =>
      dsimp only [Regex.run] at hm
      split at hm
      · cases hm
      · exact ⟨s, .of_leads (.refl _ _) fun _ => rfl, hm⟩
  | sameAs n folding =>
    intro k s t hm
    obtain ⟨⟨start, stop⟩, -, hm⟩ := Option.bind_eq_some_iff.1 hm
    obtain ⟨u, hu, hk⟩ := Option.bind_eq_some_iff.1 hm
    exact ⟨u, .of_leads (State.follow?_leads hu _) fun _ => rfl, hk⟩
  | choice n a b iha ihb =>
    intro k s t hm
    dsimp only [Regex.run] at hm
    split at hm
    · obtain ⟨u, hu, hk⟩ := iha (List.nodup_append.1 h).1 hm
      exact ⟨u, ⟨(hu.left b).leads, (hu.left b).taken⟩, hk⟩
    · obtain ⟨u, hu, hk⟩ := ihb (List.nodup_append.1 h).2.1 hm
      exact ⟨u, ⟨(hu.right a).leads, (hu.right a).taken⟩, hk⟩

/-- A match is come by from the place where it starts, with no group marked. -/
theorem Regex.findFrom_passes {r : Regex} (h : r.groups.Nodup) {before text : List Char} {place start : Nat}
    {u : State} (hfind : r.findFrom before place text = some (start, u)) :
    ∃ s : State, s.place = start ∧ s.marks = ⟨[], []⟩ ∧ s.Passes r u := by
  have hrun {s : State} (hm : r.run some s = some u) : s.Passes r u := by
    obtain ⟨v, hv, hvu⟩ := Regex.run_within r h hm
    cases hvu
    exact hv
  induction text generalizing before place with
  | nil =>
    obtain ⟨v, hv, hvu⟩ := Option.map_eq_some_iff.1 hfind
    cases hvu
    exact ⟨_, rfl, rfl, hrun hv⟩
  | cons c rest ih =>
    rw [Regex.findFrom] at hfind
    split at hfind
    next v hv =>
      cases hfind
      exact ⟨_, rfl, rfl, hrun hv⟩
    · exact ih hfind

section Found
variable {r : Regex} {text : List Char} {found : Found}

theorem Regex.exists_state_of_find? (hfind : r.find? text = some found) (h : r.groups.Nodup) :
    ∃ s u : State, s.marks = ⟨[], []⟩ ∧ s.Passes r u ∧
      found.hasGroups = !u.marks.ended.isEmpty ∧ ∀ n, (found.group? n).isSome = (u.marks.find? n).isSome := by
  obtain ⟨⟨start, u⟩, hfrom, hfound⟩ := Option.map_eq_some_iff.1 hfind
  obtain ⟨s, -, hmarks, hpasses⟩ := Regex.findFrom_passes h hfrom
  cases hfound
  exact ⟨s, u, hmarks, hpasses, rfl, fun n => Option.isSome_map⟩

/-- A pattern without groups marks none. -/
theorem Regex.hasGroups_eq_false (hgroups : r.groups = []) (hfind : r.find? text = some found) :
    found.hasGroups = false := by
  obtain ⟨s, u, hs, hu, hhas, -⟩ := r.exists_state_of_find? hfind (hgroups ▸ List.nodup_nil)
  obtain ⟨e, he, heg⟩ := hu.leads.marks.ended
  rw [hgroups] at heg
  have hnil : e = [] := List.eq_nil_iff_forall_not_mem.2 fun x hx => nomatch heg x hx
  rw [hhas, he, hs, hnil]
  rfl

/-- A group that no match goes round has taken part in every match. -/
theorem Regex.group?_isSome_of_takes (h : r.groups.Nodup) {n : Nat} (hn : r.takes n = true)
    (hfind : r.find? text = some found) : (found.group? n).isSome := by
  obtain ⟨s, u, -, hu, -, hgroup⟩ := r.exists_state_of_find? hfind h
  rw [hgroup]
  exact hu.taken n hn

theorem Regex.hasGroups_of_group?_eq_some {n : Nat} {w : List Char} (hfind : r.find? text = some found)
    (h : found.group? n = some w) : found.hasGroups = true := by
  obtain ⟨⟨start, u⟩, -, hfound⟩ := Option.map_eq_some_iff.1 hfind
  cases hfound
  obtain ⟨x, hx, -⟩ := Option.map_eq_some_iff.1 h
  obtain ⟨-, stop, -, hstop, -⟩ := Marks.find?_isSome_iff.1 (Option.isSome_of_eq_some hx)
  cases hended : u.marks.ended with
  | nil => simp [hended] at hstop
  | cons => simp [hended]

end Found

end MockTree.Pattern
