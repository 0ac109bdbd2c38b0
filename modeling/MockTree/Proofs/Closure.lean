import MockTree.Proofs.Composing
import MockTree.Proofs.Misreading
import MockTree.Proofs.Override

/-! The builder of overrides is closed. Whatever text describes an override, it is refused with a flaw, or it
gives some of the fields that an override may have and its mark, unless something in it is misread. -/
namespace MockTree

theorem Scalar.same_text_iff {k : Scalar} {name : String} : k.same (.text name) = true ↔ k = .text name := by
  cases k <;> simp [Scalar.same, Scalar.number?]

namespace Value

theorem find?_insert {a b : String} {v : Value} {entries : List (Scalar × Value)} :
    find? (.text a) (insert (.text b) v entries) = if a = b then some v else find? (.text a) entries := by
  induction entries with
  | nil =>
    by_cases h : a = b
    · simp [insert, find?, Scalar.same_text, h]
    · simp [insert, find?, Scalar.same_text, h, Ne.symm h]
  | cons e entries ih =>
    obtain ⟨k, w⟩ := e
    rw [insert]
    split
    · next hk =>
      obtain rfl := Scalar.same_text_iff.1 hk
      by_cases h : a = b
      · simp [find?, Scalar.same_text, h]
      · simp [find?, Scalar.same_text, h, Ne.symm h]
    · next hk =>
      rw [find?, find?, ih]
      by_cases h : a = b
      · subst h
        simp [hk]
      · simp [h]

theorem nodup_insert {name : String} {v : Value} {entries : List (Scalar × Value)}
    (h : (entries.map (·.1)).Nodup) : ((insert (.text name) v entries).map (·.1)).Nodup := by
  induction entries with
  | nil => simp [insert]
  | cons e entries ih =>
    obtain ⟨hnot, hrest⟩ := List.nodup_cons.1 h
    rw [insert]
    split
    · exact h
    · next hk =>
      refine List.nodup_cons.2 ⟨fun hm => ?_, ih hrest⟩
      obtain ⟨x, hx, he⟩ := List.mem_map.1 hm
      rcases mem_insert hx with hx | hx
      · exact hk (Scalar.same_text_iff.2 (he.symm.trans hx))
      · exact hnot (he ▸ hx)

end Value

namespace Value

theorem find?_append_or (key : Scalar) (a b : List (Scalar × Value)) :
    find? key (a ++ b) = (find? key a).or (find? key b) := by
  induction a with
  | nil => rfl
  | cons e a ih =>
    rw [List.cons_append, find?, find?]
    split
    · rfl
    · exact ih

end Value

namespace Directive
open Text Definition

/-- A value that is given counts, and else the one described. -/
def chosen (given : Value) (described : Option Value) : Option Value :=
  match given with
  | .null => described
  | v => some v

/-- The fields of an override that are described or given. -/
def keptFields (found : List (Scalar × Value)) (status body : Value) : List (Scalar × Value) :=
  withArgument "body" body (withArgument "status" status
    (overrideFields.filterMap fun name => (Value.field? name found).map fun v => (Scalar.text name, v)))

theorem override_eq (source : List Char) (status body : Value) :
    override source status body = (do
      let found ← described source
      checkOthers found
      checkStatus (keptFields found status body)
      checkHeaders (keptFields found status body)
      pure (keptFields found status body ++ [(.text overrideKey, .text overrideKind)])) := rfl

theorem withArgument_of_ne {given : Value} (h : given ≠ .null) (name : String)
    (entries : List (Scalar × Value)) :
    withArgument name given entries = Value.insert (.text name) given entries := by
  rw [withArgument.eq_def]
  split
  · exact absurd rfl h
  · rfl

theorem chosen_of_ne {given : Value} (h : given ≠ .null) (v : Option Value) : chosen given v = some given := by
  rw [chosen.eq_def]
  split
  · exact absurd rfl h
  · rfl

theorem field?_withArgument {name field : String} {given : Value} {entries : List (Scalar × Value)} :
    Value.field? field (withArgument name given entries) =
      if field = name then chosen given (Value.field? field entries) else Value.field? field entries := by
  by_cases h : given = .null
  · subst h
    simp [withArgument, chosen]
  · rw [withArgument_of_ne h, chosen_of_ne h, Value.field?, Value.find?_insert]
    rfl

theorem field?_filterMap {names : List String} {found : List (Scalar × Value)} {field : String} :
    Value.field? field (names.filterMap fun name =>
      (Value.field? name found).map fun v => (Scalar.text name, v)) =
      if field ∈ names then Value.field? field found else none := by
  induction names with
  | nil => rfl
  | cons name names ih =>
    by_cases hn : field = name
    · subst hn
      cases hv : Value.field? field found with
      | none => simp [hv, ih]
      | some v =>
        have hstep (rest : List (Scalar × Value)) :
            Value.field? field ((.text field, v) :: rest) = some v := by
          simp [Value.field?, Value.find?, Scalar.same_text]
        simp [hv, hstep]
    · cases hv : Value.field? name found with
      | none => simp [hv, ih, hn]
      | some v =>
        have hstep (rest : List (Scalar × Value)) :
            Value.field? field ((.text name, v) :: rest) = Value.field? field rest := by
          simp [Value.field?, Value.find?, Scalar.same_text, Ne.symm hn]
        simp [hv, ih, hn, hstep]

theorem keptFields_spec (found : List (Scalar × Value)) (status body : Value) :
    Value.field? "status" (keptFields found status body) = chosen status (Value.field? "status" found) ∧
    Value.field? "body" (keptFields found status body) = chosen body (Value.field? "body" found) ∧
    Value.field? "headers" (keptFields found status body) = Value.field? "headers" found := by
  simp only [keptFields, field?_withArgument]
  refine ⟨?_, ?_, ?_⟩
  all_goals simp [field?_filterMap, overrideFields]

theorem nodup_withArgument {name : String} {given : Value} {entries : List (Scalar × Value)}
    (h : (entries.map (·.1)).Nodup) : ((withArgument name given entries).map (·.1)).Nodup := by
  by_cases hg : given = .null
  · rwa [hg, withArgument]
  · rw [withArgument_of_ne hg]
    exact Value.nodup_insert h

theorem keys_sublist (names : List String) (found : List (Scalar × Value)) :
    ((names.filterMap fun name => (Value.field? name found).map fun v => (Scalar.text name, v)).map
      (·.1)).Sublist (names.map Scalar.text) := by
  induction names with
  | nil => exact .slnil
  | cons name names ih =>
    cases h : Value.field? name found with
    | none => simpa [h] using ih.cons _
    | some v => simpa [h] using ih.cons_cons (.text name)

theorem exists_names {names : List String} {keys : List Scalar}
    (h : ∀ k ∈ keys, ∃ name ∈ names, Scalar.text name = k) : ∃ found : List String, keys = found.map Scalar.text := by
  induction keys with
  | nil => exact ⟨[], rfl⟩
  | cons k keys ih =>
    obtain ⟨name, -, rfl⟩ := h k List.mem_cons_self
    obtain ⟨found, rfl⟩ := ih fun k hk => h k (List.mem_cons_of_mem _ hk)
    exact ⟨name :: found, rfl⟩

theorem keptFields_keys (found : List (Scalar × Value)) (status body : Value) :
    ∃ names : List String, names.Nodup ∧ names ⊆ overrideFields ∧
      (keptFields found status body).map (·.1) = names.map Scalar.text := by
  have hnodup : ((keptFields found status body).map (·.1)).Nodup := by
    refine nodup_withArgument (nodup_withArgument ((keys_sublist _ _).nodup ?_))
    decide
  have hmem : ∀ k ∈ (keptFields found status body).map (·.1), ∃ name ∈ overrideFields, Scalar.text name = k := by
    intro k hk
    obtain ⟨e, he, rfl⟩ := List.mem_map.1 hk
    rcases mem_withArgument he with h | h
    · exact ⟨"body", by decide, h.symm⟩
    obtain ⟨e', he', heq⟩ := List.mem_map.1 h
    rcases mem_withArgument he' with h | h
    · exact ⟨"status", by decide, by rw [← heq, h]⟩
    obtain ⟨name, hname, hn⟩ := List.mem_map.1 ((keys_sublist _ _).subset (heq ▸ h))
    exact ⟨name, hname, hn⟩
  obtain ⟨names, hnames⟩ := exists_names hmem
  refine ⟨names, ?_, ?_, hnames⟩
  · rw [hnames] at hnodup
    exact hnodup.of_map _
  · intro name hname
    obtain ⟨name', hname', he⟩ := hmem (.text name) (hnames ▸ List.mem_map_of_mem hname)
    cases he
    exact hname'

/-- What an override is made of: its mark, and such of the fields status, headers and body as are given or
described, a whole number for a status and a mapping for headers. -/
structure Built (found : List (Scalar × Value)) (status body : Value) (entries : List (Scalar × Value)) :
    Prop where
  keys : ∃ names : List String, names.Nodup ∧ names ⊆ overrideFields ∧
    entries.map (·.1) = (names ++ [overrideKey]).map Scalar.text
  kind : Value.field? overrideKey entries = some (.text overrideKind)
  status : Value.field? "status" entries = chosen status (Value.field? "status" found)
  body : Value.field? "body" entries = chosen body (Value.field? "body" found)
  headers : Value.field? "headers" entries = Value.field? "headers" found
  whole : ∀ v, Value.field? "status" entries = some v → (wholeNumber? (.value v)).isSome
  mapping : ∀ v, Value.field? "headers" entries = some v → ∃ hs, v = .map hs

/-- A fault that is a flaw of an override. -/
def IsFlaw (f : Fault) : Prop := ∃ flaw, f = .failure ⟨.override flaw, none⟩

theorem flawed_iff {α : Type} {x : Except Fault α} :
    (∃ flaw, x = flawed flaw) ↔ ∃ f, x = .error f ∧ IsFlaw f := by
  constructor
  · rintro ⟨flaw, rfl⟩
    exact ⟨_, rfl, flaw, rfl⟩
  · rintro ⟨_, rfl, flaw, rfl⟩
    exact ⟨flaw, rfl⟩

/-- What keeps the text of a block from being taken up or refused: it has no value for another reason than
its not being YAML, or a number in it is too long to be named in a message. -/
inductive Unread (source : List Char) (status : Value) : Prop
  | document {f : Fault} (hs : (trim source).isEmpty = false) (h : Yaml.read source = .error f)
      (hf : f ≠ .unreadableYaml) (hflaw : ¬ IsFlaw f)
  | key {found : List (Scalar × Value)} {e : Scalar × Value} (h : described source = .ok found) (he : e ∈ found)
      (hfield : isField e.1 = false) (htext : e.1.hasText = false)
  | status {found : List (Scalar × Value)} {v : Value} (h : described source = .ok found)
      (hv : chosen status (Value.field? "status" found) = some v) (hwhole : wholeNumber? (.value v) = none)
      (htext : v.hasText = false)

/-- A text describes a mapping, is refused, or has no value for another reason. -/
theorem described_cases (source : List Char) :
    (∃ found, described source = .ok found) ∨
      ∃ f, described source = .error f ∧
        (IsFlaw f ∨ (trim source).isEmpty = false ∧ Yaml.read source = .error f ∧ f ≠ .unreadableYaml) := by
  rw [described]
  split
  · exact .inl ⟨[], rfl⟩
  next hs =>
  split
  · exact .inr ⟨_, rfl, .inl ⟨_, rfl⟩⟩
  · next f hf hread => exact .inr ⟨f, rfl, .inr ⟨by simpa using hs, hread, hf⟩⟩
  · exact .inl ⟨[], rfl⟩
  · exact .inl ⟨_, rfl⟩
  · exact .inr ⟨_, rfl, .inl ⟨_, rfl⟩⟩

theorem described_eq_error {source : List Char} {f : Fault} (hs : (trim source).isEmpty = false)
    (h : Yaml.read source = .error f) (hf : f ≠ .unreadableYaml) : described source = .error f := by
  rw [described, if_neg (by simp [hs]), h]
  simp only

/-- A status is a whole number, or it is refused: with a flaw, if it has a text. -/
theorem checkStatus_cases (entries : List (Scalar × Value)) :
    checkStatus entries = .ok () ∧
        (∀ v, Value.field? "status" entries = some v → (wholeNumber? (.value v)).isSome) ∨
      ∃ f v, checkStatus entries = .error f ∧ Value.field? "status" entries = some v ∧
        wholeNumber? (.value v) = none ∧ (IsFlaw f ∧ v.hasText = true ∨ f = .badValue ∧ v.hasText = false) := by
  rw [checkStatus]
  cases hv : Value.field? "status" entries with
  | none => exact .inl ⟨rfl, by simp⟩
  | some v =>
    by_cases hwhole : (wholeNumber? (.value v)).isSome
    · exact .inl ⟨if_pos hwhole, by rintro _ ⟨⟩; exact hwhole⟩
    · have hnone : wholeNumber? (.value v) = none := by simpa using hwhole
      by_cases ht : v.hasText
      · exact .inr ⟨_, v, by simp only [hwhole, ht, if_true]; rfl, rfl, hnone, .inl ⟨⟨_, rfl⟩, ht⟩⟩
      · exact .inr ⟨_, v, by simp only [hwhole, ht]; rfl, rfl, hnone, .inr ⟨rfl, by simpa using ht⟩⟩

theorem checkHeaders_cases (entries : List (Scalar × Value)) :
    checkHeaders entries = .ok () ∧ (∀ v, Value.field? "headers" entries = some v → ∃ hs, v = .map hs) ∨
      ∃ f, checkHeaders entries = .error f ∧ IsFlaw f := by
  rw [checkHeaders]
  split
  · next h => exact .inl ⟨rfl, by simp [h]⟩
  · next hs h => exact .inl ⟨rfl, by rintro v hv; exact ⟨hs, Option.some.inj (hv.symm.trans h)⟩⟩
  · exact .inr ⟨_, rfl, _, rfl⟩

theorem checkOthers_cases (entries : List (Scalar × Value)) :
    checkOthers entries = .ok () ∧ (∀ e ∈ entries, isField e.1 = false → e.1.hasText = true) ∨
      checkOthers entries = .error .badValue ∧ ∃ e ∈ entries, isField e.1 = false ∧ e.1.hasText = false := by
  rw [checkOthers]
  by_cases h : entries.all fun e => isField e.1 || e.1.hasText
  · refine .inl ⟨if_pos h, fun e he hf => ?_⟩
    have := List.all_eq_true.1 h e he
    simpa [hf] using this
  · obtain ⟨e, he, hn⟩ := List.all_eq_false.1 (Bool.not_eq_true _ ▸ h)
    exact .inr ⟨if_neg h, e, he, by simpa using hn⟩

theorem built_keptFields {found : List (Scalar × Value)} {status body : Value}
    (hwhole : ∀ v, Value.field? "status" (keptFields found status body) = some v →
      (wholeNumber? (.value v)).isSome)
    (hmap : ∀ v, Value.field? "headers" (keptFields found status body) = some v → ∃ hs, v = .map hs) :
    Built found status body (keptFields found status body ++ [(.text overrideKey, .text overrideKind)]) := by
  obtain ⟨names, hnodup, hsub, hkeys⟩ := keptFields_keys found status body
  obtain ⟨hs, hb, hh⟩ := keptFields_spec found status body
  have hfield {name : String} (hn : name ≠ overrideKey) :
      Value.field? name (keptFields found status body ++ [(.text overrideKey, .text overrideKind)]) =
        Value.field? name (keptFields found status body) := by
    have hmark : Value.find? (.text name) [(.text overrideKey, .text overrideKind)] = none := by
      simp [Value.find?, Scalar.same_text, Ne.symm hn]
    rw [Value.field?, Value.field?, Value.find?_append_or, hmark, Option.or_none]
  refine ⟨⟨names, hnodup, hsub, by simp [hkeys]⟩, ?_, ?_, ?_, ?_, ?_, ?_⟩
  · rw [Value.field?, Value.find?_append]
    · rfl
    · intro e he
      have hm : e.1 ∈ names.map Scalar.text := hkeys ▸ List.mem_map_of_mem he
      obtain ⟨name, hname, hk⟩ := List.mem_map.1 hm
      have hall : ∀ n ∈ overrideFields, (Scalar.text n).same (.text overrideKey) = false := by decide
      rw [← hk]
      exact hall name (hsub hname)
  · rw [hfield (by decide), hs]
  · rw [hfield (by decide), hb]
  · rw [hfield (by decide), hh]
  · rwa [hfield (by decide)]
  · rwa [hfield (by decide)]

/-- The builder gives an override of what is described and given, or refuses the text with a flaw. -/
def Closed (source : List Char) (status body : Value) : Prop :=
  (∃ found entries, described source = .ok found ∧ override source status body = .ok entries ∧
      Built found status body entries) ∨
    ∃ flaw, override source status body = flawed flaw

theorem closed_of_flaw {source : List Char} {status body : Value} {f : Fault}
    (h : override source status body = .error f) (hf : IsFlaw f) : Closed source status body :=
  .inr (flawed_iff.2 ⟨f, h, hf⟩)

theorem not_closed {source : List Char} {status body : Value} {f : Fault}
    (h : override source status body = .error f) (hf : ¬ IsFlaw f) : ¬ Closed source status body := by
  rintro (⟨found, entries, -, h', -⟩ | hflaw)
  · cases h.symm.trans h'
  · obtain ⟨g, hg, hgf⟩ := flawed_iff.1 hflaw
    cases h.symm.trans hg
    exact hf hgf

theorem not_isFlaw_badValue : ¬ IsFlaw .badValue := by
  rintro ⟨flaw, h⟩
  cases h

theorem closed_iff_of_described {source : List Char} {found : List (Scalar × Value)}
    (hfound : described source = .ok found) (status body : Value) :
    Closed source status body ↔ ¬ Unread source status := by
  have hover := override_eq source status body
  rw [hfound] at hover
  simp only [bind, Except.bind] at hover
  rcases checkOthers_cases found with ⟨ho, hothers⟩ | ⟨ho, e, he, hfield, htext⟩
  swap
  · rw [ho] at hover
    exact iff_of_false (not_closed hover not_isFlaw_badValue) (not_not.2 (.key hfound he hfield htext))
  rw [ho] at hover
  have hstatus := (keptFields_spec found status body).1
  -- what is left unread can only be the status
  have hread (h : ∀ v, Value.field? "status" (keptFields found status body) = some v →
      wholeNumber? (.value v) = none → v.hasText = true) : ¬ Unread source status := by
    rintro (⟨hs, h', hf, -⟩ | ⟨h', he, hfield, htext⟩ | ⟨h', hv, hwhole, htext⟩)
    · cases hfound.symm.trans (described_eq_error hs h' hf)
    · cases hfound.symm.trans h'
      rw [hothers _ he hfield] at htext
      cases htext
    · cases hfound.symm.trans h'
      rw [h _ (hstatus.trans hv) hwhole] at htext
      cases htext
  rcases checkStatus_cases (keptFields found status body) with ⟨hc, hwhole⟩ | ⟨f, v, hc, hv, hnone, hf | hf⟩
  · have hread := hread fun v hv hn => by
      have := hwhole v hv
      rw [hn] at this
      cases this
    rw [hc] at hover
    rcases checkHeaders_cases (keptFields found status body) with ⟨hh, hmap⟩ | ⟨f, hh, hf⟩
    · rw [hh] at hover
      exact iff_of_true (.inl ⟨found, _, hfound, hover, built_keptFields hwhole hmap⟩) hread
    · rw [hh] at hover
      exact iff_of_true (closed_of_flaw hover hf) hread
  · rw [hc] at hover
    refine iff_of_true (closed_of_flaw hover hf.1) (hread fun w hw _ => ?_)
    cases hv.symm.trans hw
    exact hf.2
  · rw [hc, hf.1] at hover
    exact iff_of_false (not_closed hover not_isFlaw_badValue)
      (not_not.2 (.status hfound (hstatus.symm.trans hv) hnone hf.2))

theorem closed_iff (source : List Char) (status body : Value) :
    Closed source status body ↔ ¬ Unread source status := by
  rcases described_cases source with ⟨found, hfound⟩ | ⟨f, hd, hf⟩
  · exact closed_iff_of_described hfound status body
  have hover : override source status body = .error f := by
    rw [override_eq, hd]
    rfl
  by_cases hflaw : IsFlaw f
  · refine iff_of_true (closed_of_flaw hover hflaw) ?_
    rintro (⟨hs, h, hf', hflaw'⟩ | ⟨h, -, -, -⟩ | ⟨h, -, -, -⟩)
    · cases hd.symm.trans (described_eq_error hs h hf')
      exact hflaw' hflaw
    all_goals cases hd.symm.trans h
  · obtain ⟨hs, h, hf'⟩ := hf.resolve_left hflaw
    exact iff_of_false (not_closed hover hflaw) (not_not.2 (.document hs h hf' hflaw))

end Directive
end MockTree
