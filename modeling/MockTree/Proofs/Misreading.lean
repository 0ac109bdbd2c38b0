import MockTree.Yaml.Document

/-! Faults of YAML documents. Whatever keeps the nodes of a document from being a value, other than its not
being YAML, is a scalar in it whose text is none of its kind, or a mapping in the place of a scalar that has
itself for its text. -/
namespace MockTree.Yaml

/-- A node in a node: itself, or one of what it holds. -/
inductive Part (m : Node) : Node → Prop
  | self : Part m m
  | item {k : Nat} {tag : Tag} {items : List Node} {n : Node} (hn : n ∈ items) (h : Part m n) :
      Part m (.sequence k tag items)
  | key {k : Nat} {tag : Tag} {entries : List (Node × Node)} {e : Node × Node} (he : e ∈ entries)
      (h : Part m e.1) : Part m (.mapping k tag entries)
  | value {k : Nat} {tag : Tag} {entries : List (Node × Node)} {e : Node × Node} (he : e ∈ entries)
      (h : Part m e.2) : Part m (.mapping k tag entries)

/-- A scalar, or a mapping in the place of one, whose text cannot be read as a value of its kind; or a mapping
whose text is not found, since the search for it comes back to a mapping it has come to. -/
inductive Misread (known : List Node) (f : Fault) : Node → Prop
  | scalar {tag : Option Tag} {s : List Char} (h : readScalar (tag.getD (tagOf s)) s = .error f) :
      Misread known f (.scalar tag s)
  | mapping {k : Nat} {tag : Tag} {entries : List (Node × Node)} {s : List Char} {fuel : Nat}
      (hs : Node.textIn known [] fuel (.mapping k tag entries) = .ok s)
      (h : readScalar tag s = .error f ∨ tag = .timestamp ∧ f = .wrongType) :
      Misread known f (.mapping k tag entries)
  | endless {k : Nat} {tag : Tag} {entries : List (Node × Node)} {turn fuel : Nat}
      (h : Node.textIn known [] fuel (.mapping k tag entries) = .error (turn, f)) (hf : f ≠ .unreadableYaml) :
      Misread known f (.mapping k tag entries)

/-- A fault that is the document's not being YAML, or comes from what is misread in one of the nodes or of
those that have names. -/
def Blamed (known : List Node) (f : Fault) (nodes : List Node) : Prop :=
  f = .unreadableYaml ∨ ∃ n ∈ nodes ++ known, ∃ m, Part m n ∧ Misread known f m

/-- The nodes of entries. -/
def nodesOf (entries : List (Node × Node)) : List Node := entries.flatMap fun e => [e.1, e.2]

namespace Blamed
variable {known : List Node} {f : Fault} {a b : List Node}

theorem mono (h : Blamed known f a) (hs : a ⊆ b) : Blamed known f b := by
  refine h.imp_right fun ⟨n, hn, hm⟩ => ⟨n, ?_, hm⟩
  rw [List.mem_append] at hn ⊢
  exact hn.imp_left (hs ·)

/-- What is in a node that holds all of these is in that node. -/
theorem inside {n : Node} (h : Blamed known f a) (hn : ∀ c ∈ a, ∀ m, Part m c → Part m n) :
    Blamed known f [n] := by
  refine h.imp_right fun ⟨c, hc, m, hp, hm⟩ => ?_
  rcases List.mem_append.1 hc with hc | hc
  · exact ⟨n, by simp, m, hn c hc m hp, hm⟩
  · exact ⟨c, by simp [hc], m, hp, hm⟩

theorem sequence {k : Nat} {tag : Tag} {items : List Node} (h : Blamed known f items) :
    Blamed known f [.sequence k tag items] :=
  h.inside fun _ hc _ hp => .item hc hp

theorem mapping {k : Nat} {tag : Tag} {entries : List (Node × Node)} (h : Blamed known f (nodesOf entries)) :
    Blamed known f [.mapping k tag entries] := by
  refine h.inside fun c hc m hp => ?_
  obtain ⟨e, he, hc⟩ := List.mem_flatMap.1 hc
  simp only [List.mem_cons, List.not_mem_nil, or_false] at hc
  rcases hc with rfl | rfl
  · exact .key he hp
  · exact .value he hp

/-- A node that stands for a named one is to blame with it. -/
theorem of_resolved {n : Node} (h : Blamed known f [n.resolved known]) : Blamed known f [n] := by
  have hcases : n.resolved known = n ∨ n.resolved known ∈ known := by
    rw [Node.resolved.eq_def]
    split
    · next k =>
      cases hk : known.find? (·.number? == some k) with
      | none => exact .inl rfl
      | some m => exact .inr (List.mem_of_find?_eq_some hk)
    · exact .inl rfl
  rcases hcases with hn | hn
  · rwa [hn] at h
  · refine h.imp_right fun ⟨c, hc, hm⟩ => ⟨c, ?_, hm⟩
    rcases List.mem_append.1 hc with hc | hc
    · rw [List.mem_singleton.1 hc]
      exact List.mem_append_right _ hn
    · exact List.mem_append_right _ hc

theorem of_misread {n : Node} (h : Misread known f n) : Blamed known f [n] := .inr ⟨n, by simp, n, .self, h⟩

end Blamed

namespace Building
variable {α β : Type}

theorem both_eq_error {a : Building α} {b : Building β} {e : Nat × Fault} (h : both a b = .error e) :
    a = .error e ∨ b = .error e := by
  rcases a with e₁ | x <;> rcases b with e₂ | y <;> simp only [both] at h
  · split at h <;> simp_all
  · simp_all
  · simp_all
  · cases h

theorem map_eq_error {a : Building α} {g : α → β} {e : Nat × Fault} (h : a.map g = .error e) :
    a = .error e := by
  cases a with
  | error e' => simpa [Except.map] using h
  | ok x => cases h

theorem inside_eq_error {a : Building α} {e : Nat × Fault} (h : inside a = .error e) :
    ∃ turn, a = .error (turn, e.2) := by
  cases a with
  | error e' =>
    cases h
    exact ⟨e'.1, rfl⟩
  | ok x => cases h

theorem unreadable_eq_error {e : Nat × Fault} (h : (unreadable : Building α) = .error e) :
    e.2 = .unreadableYaml := by
  cases h
  rfl

theorem inside_unreadable_eq_error {e : Nat × Fault} (h : inside (unreadable : Building α) = .error e) :
    e.2 = .unreadableYaml := by
  cases h
  rfl

theorem unmerged_eq_error {e : Nat × Fault} (h : (unmerged : Building α) = .error e) :
    e.2 = .unreadableYaml := by
  cases h
  rfl

theorem asKey_eq_error {a : Building Value} {e : Nat × Fault} (h : asKey a = .error e) :
    e.2 = .unreadableYaml ∨ a = .error e := by
  rw [asKey.eq_def] at h
  split at h
  · exact .inl (unreadable_eq_error h)
  · cases h
  · exact .inl (unreadable_eq_error h)
  · split at h
    · cases h
      exact .inr rfl
    · exact .inl (unreadable_eq_error h)

theorem ofScalar_eq_error {tag : Tag} {s : List Char} {e : Nat × Fault} (h : ofScalar tag s = .error e) :
    readScalar tag s = .error e.2 := by
  rw [ofScalar] at h
  split at h
  · cases h
  · next f hf =>
    cases h
    exact hf

end Building
open Building

/-! What is built of the values of nodes, or of what they give to a merge, fails only as those do. -/
section
variable {known : List Node}

/-- A way to build something of a node that fails only through the node, or for its not being YAML. -/
def Fair {α : Type} (known : List Node) (build : Node → Building α) : Prop :=
  ∀ (n : Node) (e : Nat × Fault), build n = .error e → Blamed known e.2 [n]

variable {value : Node → Building Value} {merged : Node → Building (List (Scalar × Value))} {e : Nat × Fault}

theorem itemValues_blamed (hv : Fair known value) {ns : List Node} (h : itemValues value ns = .error e) :
    Blamed known e.2 ns := by
  induction ns with
  | nil => cases h
  | cons n r ih =>
    rcases both_eq_error (map_eq_error h) with h | h
    · exact (hv n e h).mono (by simp)
    · exact (ih h).mono (by simp)

theorem pairValues_blamed (hv : Fair known value) {ns : List Node} (h : pairValues known value ns = .error e) :
    Blamed known e.2 ns := by
  induction ns with
  | nil => cases h
  | cons n r ih =>
    rw [pairValues] at h
    split at h
    · next number tag k v hn =>
      rcases both_eq_error (map_eq_error h) with h | h
      · have hentry : Blamed known e.2 (nodesOf [(k, v)]) := by
          rcases both_eq_error h with h | h
          · exact (hv k e h).mono (by simp [nodesOf])
          · exact (hv v e h).mono (by simp [nodesOf])
        have hmapping : Blamed known e.2 [n.resolved known] := hn ▸ hentry.mapping
        exact hmapping.of_resolved.mono (by simp)
      · exact (ih h).mono (by simp)
    · exact .inl (unreadable_eq_error h)

theorem keyValue_blamed (hv : Fair known value) {k : Node} (h : keyValue value k = .error e) :
    Blamed known e.2 [k] := by
  rw [keyValue.eq_def] at h
  split at h
  · split at h
    · cases h
    · exact .inl (unreadable_eq_error h)
  · rcases asKey_eq_error h with h | h
    · exact .inl h
    · exact hv k e h

theorem ownEntries_blamed (hv : Fair known value) {es : List (Node × Node)}
    (h : ownEntries value es = .error e) : Blamed known e.2 (nodesOf es) := by
  induction es with
  | nil => cases h
  | cons entry r ih =>
    obtain ⟨k, v⟩ := entry
    rw [ownEntries] at h
    split at h
    · exact (ih h).mono (by simp [nodesOf])
    rcases both_eq_error (map_eq_error h) with h | h
    · rcases both_eq_error h with h | h
      · exact (keyValue_blamed hv h).mono (by simp [nodesOf])
      · exact (hv v e h).mono (by simp [nodesOf])
    · exact (ih h).mono (by simp [nodesOf])

theorem mergedEntries_blamed (hm : Fair known merged) {es : List (Node × Node)}
    (h : mergedEntries merged es = .error e) : Blamed known e.2 (nodesOf es) := by
  induction es with
  | nil => cases h
  | cons entry r ih =>
    obtain ⟨k, v⟩ := entry
    rw [mergedEntries] at h
    split at h
    · rcases both_eq_error (map_eq_error h) with h | h
      · exact (hm v e h).mono (by simp [nodesOf])
      · exact (ih h).mono (by simp [nodesOf])
    · exact (ih h).mono (by simp [nodesOf])

theorem mergedLists_blamed (hm : Fair known merged) {ns : List Node}
    (h : mergedLists known merged ns = .error e) : Blamed known e.2 ns := by
  induction ns with
  | nil => cases h
  | cons n r ih =>
    rw [mergedLists] at h
    split at h
    · rcases both_eq_error (map_eq_error h) with h | h
      · exact (ih h).mono (by simp)
      · exact (hm n e h).mono (by simp)
    · exact .inl (unmerged_eq_error h)

theorem mappingEntries_blamed (hv : Fair known value) (hm : Fair known merged) {es : List (Node × Node)}
    (h : mappingEntries value merged es = .error e) : Blamed known e.2 (nodesOf es) := by
  rcases both_eq_error (map_eq_error h) with h | h
  · exact mergedEntries_blamed hm h
  · exact ownEntries_blamed hv h

end

theorem scalarIn_blamed {known : List Node} {fuel k : Nat} {tag : Tag} {entries : List (Node × Node)}
    {e : Nat × Fault} (h : Node.scalarIn known fuel tag (.mapping k tag entries) = .error e) :
    Blamed known e.2 [.mapping k tag entries] := by
  rw [Node.scalarIn] at h
  split at h
  · next s hs =>
    split at h
    · next ht =>
      cases h
      exact .of_misread (.mapping hs (.inr ⟨eq_of_beq ht, rfl⟩))
    · exact .of_misread (.mapping hs (.inl (ofScalar_eq_error h)))
  · next e' hs =>
    cases h
    by_cases hf : e.2 = .unreadableYaml
    · exact .inl hf
    · exact .of_misread (.endless hs hf)

section
variable {known : List Node} {fuel : Nat} (hv : ∀ above, Fair known (Node.toValue known above fuel))
  (hm : ∀ above merging, Fair known (mergedValues known above merging fuel))
include hv hm

theorem toValue_fair_succ (above : List (Option Nat)) : Fair known (Node.toValue known above (fuel + 1)) := by
  intro n e h
  apply Blamed.of_resolved
  rw [Node.toValue.eq_def] at h
  simp only at h
  split at h
  · exact .inl (unreadable_eq_error h)
  · next tag s hn =>
    rw [hn]
    split at h
    · exact .inl (inside_unreadable_eq_error h)
    · exact .of_misread (.scalar (ofScalar_eq_error h))
  · next k tag nodes hn =>
    rw [hn]
    split at h
    · cases h
    split at h
    · obtain ⟨turn, h⟩ := inside_eq_error h
      exact (itemValues_blamed (hv _) (map_eq_error h)).sequence
    · obtain ⟨turn, h⟩ := inside_eq_error h
      exact (pairValues_blamed (hv _) (map_eq_error h)).sequence
    · obtain ⟨turn, h⟩ := inside_eq_error h
      exact (pairValues_blamed (hv _) (map_eq_error h)).sequence
    · split at h
      · exact .inl (inside_unreadable_eq_error h)
      · exact .inl (unreadable_eq_error h)
  · next k tag entries hn =>
    rw [hn]
    split at h
    · cases h
    split at h
    · obtain ⟨turn, h⟩ := inside_eq_error h
      exact (mappingEntries_blamed (hv _) (hm _ _) (map_eq_error h)).mapping
    · obtain ⟨turn, h⟩ := inside_eq_error h
      exact (mappingEntries_blamed (hv _) (hm _ _) (map_eq_error h)).mapping
    -- a mapping of any other tag stands in the place of a scalar, or is no YAML
    · split at h
      · exact .inl (inside_unreadable_eq_error h)
      · split at h
        · exact scalarIn_blamed h
        · exact .inl (unreadable_eq_error h)

theorem mergedValues_fair_succ (above : List (Option Nat)) (merging : List Nat) :
    Fair known (mergedValues known above merging (fuel + 1)) := by
  intro n e h
  apply Blamed.of_resolved
  rw [mergedValues.eq_def] at h
  simp only at h
  split at h
  · next k tag entries hn =>
    rw [hn]
    split at h
    · exact (ownEntries_blamed (hv _) h).mapping
    · exact (mappingEntries_blamed (hv _) (hm _ _) h).mapping
  · next k tag nodes hn =>
    rw [hn]
    exact (mergedLists_blamed (hm _ _) h).sequence
  · exact .inl (unmerged_eq_error h)

end

/-- Neither the values of nodes nor what they give to a merge fail through anything else, at any depth. -/
theorem toValue_mergedValues_fair (known : List Node) (fuel : Nat) :
    (∀ above, Fair known (Node.toValue known above fuel)) ∧
      ∀ above merging, Fair known (mergedValues known above merging fuel) := by
  induction fuel with
  | zero =>
    refine ⟨fun above n e h => ?_, fun above merging n e h => ?_⟩
    · rw [Node.toValue] at h
      exact .inl (unreadable_eq_error h)
    · rw [mergedValues] at h
      exact .inl (unmerged_eq_error h)
  | succ fuel ih => exact ⟨toValue_fair_succ ih.1 ih.2, mergedValues_fair_succ ih.1 ih.2⟩

theorem Document.toValue_blamed {d : Document} {e : Nat × Fault} (h : d.toValue = .error e) :
    Blamed d.named e.2 [d.root] := by
  have hfair := toValue_mergedValues_fair d.named d.fuel
  rw [Document.toValue] at h
  split at h
  · next k entries hroot =>
    obtain ⟨turn, h⟩ := inside_eq_error h
    rw [hroot]
    exact (mappingEntries_blamed (hfair.1 _) (hfair.2 _ _) (map_eq_error h)).mapping
  · exact hfair.1 _ d.root e h

/-- A text has no value if its nodes cannot be composed, or one of them is to blame. -/
theorem read_eq_error {s : List Char} {f : Fault} (h : read s = .error f) :
    compose s = .error f ∨ ∃ d, compose s = .ok (some d) ∧ Blamed d.named f [d.root] := by
  rw [read] at h
  cases hc : compose s with
  | error e =>
    rw [hc] at h
    cases h
    exact .inl rfl
  | ok d? =>
    rw [hc] at h
    cases d? with
    | none => cases h
    | some d =>
      change d.toValue.mapError (·.2) = .error f at h
      cases hv : d.toValue with
      | ok v =>
        rw [hv] at h
        cases h
      | error e =>
        rw [hv] at h
        cases h
        exact .inr ⟨d, rfl, Document.toValue_blamed hv⟩

end MockTree.Yaml
