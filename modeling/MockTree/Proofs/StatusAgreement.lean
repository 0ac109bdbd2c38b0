import MockTree.Proofs.Literals

/-! The status of an override, checked where the override is made and read again where it is applied, behind
JSON and a body between the two. Both find the same whole number, but for separators around it. -/
namespace MockTree

namespace Value

/-- Entries that have texts for keys are the fields of an object. -/
theorem exists_entriesOf {names : List String} {entries : List (Scalar × Value)}
    (h : entries.map (·.1) = names.map Scalar.text) :
    ∃ fields, entries = entriesOf fields ∧ fields.map (·.1) = names := by
  induction entries generalizing names with
  | nil => exact ⟨[], rfl, (List.map_eq_nil_iff.1 h.symm).symm⟩
  | cons e entries ih =>
    obtain ⟨k, v⟩ := e
    obtain ⟨name, names, rfl, rfl, hrest⟩ := List.map_eq_cons_iff.1 h.symm
    obtain ⟨fields, rfl, rfl⟩ := ih hrest.symm
    exact ⟨(name, v) :: fields, rfl, rfl⟩

theorem field?_entriesOf_map (f : Value → Value) (name : String) (fields : List (String × Value)) :
    field? name (entriesOf (fields.map fun e => (e.1, f e.2))) = (field? name (entriesOf fields)).map f := by
  induction fields with
  | nil => rfl
  | cons e fields ih =>
    change find? _ ((.text e.1, f e.2) :: entriesOf _) = (find? _ ((.text e.1, e.2) :: entriesOf fields)).map f
    rw [find?, find?]
    split
    · rfl
    · exact ih

end Value

namespace Json
open Text

theorem RespacedValue.eq_int {n : ℤ} {w : Value} (h : RespacedValue (.int n) w) : w = .int n := by
  cases h
  rfl

theorem RespacedValue.exists_text {s : List Char} {w : Value} (h : RespacedValue (.ofChars s) w) :
    ∃ t, w = .ofChars t ∧ Respaced s t := by
  rw [RespacedValue] at h
  generalize hp : Phrase.value (.ofChars s) = p at h
  cases h with
  | refl =>
    cases hp
    exact ⟨s, rfl, .refl⟩
  | @text s' t h =>
    obtain rfl : s = s' := String.ofList_injective (by simpa [Value.ofChars] using hp)
    exact ⟨t, rfl, h⟩
  | list | map => cases hp

end Json

namespace Double
open Text

/-- A double is written with a character that no whole number has. -/
theorem exists_mem_text (x : Double) : ∃ c ∈ x.text, isBlank c = false ∧ ¬ Decimal.Numeral c := by
  have hletter (c : Char) (h : c = 'n' ∨ c = 'i' ∨ c = '.' ∨ c = 'e') :
      isBlank c = false ∧ ¬ Decimal.Numeral c := by
    rcases h with rfl | rfl | rfl | rfl <;> exact ⟨rfl, by decide⟩
  suffices h : ∃ c, (c = 'n' ∨ c = 'i' ∨ c = '.' ∨ c = 'e') ∧ c ∈ x.text by
    obtain ⟨c, hc, hmem⟩ := h
    exact ⟨c, hmem, hletter c hc⟩
  have hlayout (ds : List Char) (leading : ℤ) : '.' ∈ layout ds leading ∨ 'e' ∈ layout ds leading := by
    rw [layout]
    split
    · split
      · simp
      · simp only
        split <;> simp
    · simp
  rcases x with _ | negative | ⟨negative, m, e⟩
  case nan => exact ⟨'n', by simp, by decide⟩
  case infinite => exact ⟨'i', by simp, by cases negative <;> decide⟩
  case finite =>
    rw [text]
    by_cases hm : m = 0
    · rw [if_pos (by simp [hm])]
      exact ⟨'.', by simp, List.mem_append_right _ (by decide)⟩
    · rw [if_neg (by simpa using hm)]
      rcases hlayout (Nat.toDigits 10 (shortest m e).1)
        ((shortest m e).2 + (Nat.toDigits 10 (shortest m e).1).length - 1) with h | h
      · exact ⟨'.', by simp, List.mem_append_right _ h⟩
      · exact ⟨'e', by simp, List.mem_append_right _ h⟩

end Double

namespace Directive
open Text Definition Decimal

theorem built_of_override {source : List Char} {status body : Value} {entries : List (Scalar × Value)}
    (h : override source status body = .ok entries) :
    ∃ found, described source = .ok found ∧ Built found status body entries := by
  rw [override_eq] at h
  cases hd : described source with
  | error f => rw [hd] at h; cases h
  | ok found =>
    rw [hd] at h
    simp only [bind, Except.bind] at h
    rcases checkOthers_cases found with ⟨ho, -⟩ | ⟨ho, -⟩ <;> rw [ho] at h
    · rcases checkStatus_cases (keptFields found status body) with ⟨hs, hwhole⟩ | ⟨f, -, hs, -⟩ <;> rw [hs] at h
      · rcases checkHeaders_cases (keptFields found status body) with ⟨hh, hmap⟩ | ⟨f, hh, -⟩ <;> rw [hh] at h
        · cases h
          exact ⟨found, rfl, built_keptFields hwhole hmap⟩
        · cases h
      · cases h
    · cases h

/-- An override, written as JSON and taken as a body, gives a head this status. -/
def GivesStatus (entries : List (Scalar × Value)) (status : Response → ℤ) : Prop :=
  ∀ head : Response, ∃ decoded r, overrideOf? (normalize (Json.line (.map entries))) = some decoded ∧
    applyOverride head decoded = .ok r ∧ r.status = status head

theorem GivesStatus.eq {entries : List (Scalar × Value)} {f g : Response → ℤ} (hf : GivesStatus entries f)
    (hg : GivesStatus entries g) (head : Response) : f head = g head := by
  obtain ⟨decoded, r, hd, hr, hs⟩ := hf head
  obtain ⟨decoded', r', hd', hr', hs'⟩ := hg head
  cases hd.symm.trans hd'
  cases hr.symm.trans hr'
  exact hs.symm.trans hs'

theorem readInt?_trim_eq_none {s : List Char} (h : ∃ c ∈ s, isBlank c = false ∧ ¬ Numeral c) :
    readInt? (trim s) = none := by
  obtain ⟨c, hc, hb, hn⟩ := h
  exact readInt?_eq_none (mem_strip (mem_strip hc hb) (by rw [isMargin, hb, Bool.false_and])) hn

/-- A value that stands for a whole number is one, or it is written as a string. -/
theorem wholeNumber?_cases {v : Value} {n : ℤ} (h : wholeNumber? (.value v) = some n) :
    readInt? (trim v.plain) = some n ∧ ((∃ k, v = .int k) ∨ Json.reread v = .ofChars v.plain) := by
  have hnot {s : List Char} (hs : ∃ c ∈ s, isBlank c = false ∧ ¬ Numeral c) : readInt? (trim s) ≠ some n := by
    rw [readInt?_trim_eq_none hs]
    simp
  rcases v with (_ | b | k | x | t | bs | d | t | k) | items | entries | members
  case scalar.null => cases h
  case scalar.bool => cases h
  case scalar.int => exact ⟨h, .inl ⟨k, rfl⟩⟩
  case scalar.real => exact absurd h (hnot x.exists_mem_text)
  case list => exact absurd h (hnot ⟨'[', List.mem_cons_self, by decide⟩)
  case map => exact absurd h (hnot ⟨'\x7b', List.mem_cons_self, by decide⟩)
  all_goals exact ⟨h, .inr rfl⟩

theorem givenStatus?_text (t : List Char) : givenStatus? (.ofChars t) = .ok (readInt? t) := by
  cases t with
  | nil => rfl
  | cons c t =>
    have htrue : (Value.ofChars (c :: t)).isTrue = true := by simp [Value.ofChars, Value.isTrue]
    have hgiven : givenStatus? (.ofChars (c :: t)) = if !(Value.ofChars (c :: t)).isTrue then .ok none
        else .ok (readInt? (String.ofList (c :: t)).toList) := rfl
    rw [hgiven, htrue, String.toList_ofList]
    rfl

/-- What is found in a status when it is read again. -/
theorem givenStatus?_of_respaced {v w : Value} {n : ℤ} (hwhole : wholeNumber? (.value v) = some n)
    (hjson : Json.obstacle? v = none) (hzero : v ≠ .int 0) (h : Json.RespacedValue (Json.reread v) w) :
    givenStatus? w = .ok (if v.plain.any isSeparator then none else some n) := by
  obtain ⟨hread, ⟨k, rfl⟩ | hv⟩ := wholeNumber?_cases hwhole
  · have hlen : (Nat.toDigits 10 k.natAbs).length ≤ maxDigits := by
      simpa [Json.obstacle?, Json.isWritable, Scalar.hasText] using hjson
    obtain rfl := h.eq_int
    have hk : k ≠ 0 := fun hk => hzero (by rw [hk])
    rw [← readInt?_of_trim hread]
    exact (by simp [givenStatus?, Value.isTrue, hk] : givenStatus? (.int k) = .ok (some k)).trans
      (congrArg Except.ok (Decimal.Literal.readInt?_intText hlen).symm)
  · rw [hv] at h
    obtain ⟨t, rfl, hs⟩ := h.exists_text
    rw [givenStatus?_text, ← readInt?_respaced hs, readInt?_of_trim hread]

/-- An override that is written as JSON and becomes a body is read again, with the same fields but for
respaced texts. -/
theorem exists_overrideOf? {source : List Char} {status body : Value} {entries : List (Scalar × Value)}
    (haccept : override source status body = .ok entries) (hjson : Json.obstacle? (.map entries) = none) :
    ∃ decoded, overrideOf? (normalize (Json.line (.map entries))) = some decoded ∧
      ∀ name, Option.Rel Json.RespacedValue ((Value.field? name entries).map Json.reread)
        (Value.field? name decoded) := by
  obtain ⟨found, -, hbuilt⟩ := built_of_override haccept
  obtain ⟨names, hnodup, hsub, hkeys⟩ := hbuilt.keys
  obtain ⟨fields, rfl, hnames⟩ := Value.exists_entriesOf hkeys
  have hdistinct : (fields.map (·.1)).Nodup := by
    rw [hnames, ← List.concat_eq_append]
    exact List.Nodup.concat (fun hm => absurd (hsub hm) (by decide)) hnodup
  obtain ⟨w, hread, hw⟩ := Json.exists_read?_normalize hjson
  rw [Json.reread_entriesOf hdistinct] at hw
  have hunspaced : Json.UnspacedNames (Value.entriesOf (fields.map fun f => (f.1, Json.reread f.2))) := by
    intro name hname
    have hmem : name ∈ names ++ [overrideKey] := by
      rw [← hnames]
      simpa [Value.entriesOf] using hname
    have hall : ∀ n ∈ overrideFields ++ [overrideKey], Unspaced n.toList := by decide
    refine hall name (List.mem_append.2 ?_)
    exact (List.mem_append.1 hmem).imp_left fun hm => hsub hm
  obtain ⟨decoded, rfl, hfields⟩ := hw.exists_map hunspaced
  have hrel (name : String) : Option.Rel Json.RespacedValue
      ((Value.field? name (Value.entriesOf fields)).map Json.reread) (Value.field? name decoded) := by
    rw [← Value.field?_entriesOf_map]
    exact hfields.find? (.text name)
  refine ⟨decoded, (overrideOf?_eq_some hread).2 ⟨rfl, ?_⟩, hrel⟩
  have hkind := hrel overrideKey
  rw [hbuilt.kind] at hkind
  generalize Value.field? overrideKey decoded = kind at hkind ⊢
  cases hkind with
  | some h =>
    obtain ⟨t, rfl, hs⟩ := h.exists_text
    obtain rfl := hs.eq_of_unspaced (by decide)
    rfl

/-- The status of an accepted override other than the number zero is the whole number that was found in it
when it is applied, just when no separator stands around it; else it is left out. -/
theorem status_agrees_iff {source : List Char} {status body : Value} {entries : List (Scalar × Value)}
    (haccept : override source status body = .ok entries) (hjson : Json.obstacle? (.map entries) = none)
    {v : Value} (hv : Value.field? "status" entries = some v) (hzero : v ≠ .int 0) :
    ∃ n, wholeNumber? (.value v) = some n ∧
      (GivesStatus entries (fun _ => n) ↔ v.plain.any isSeparator = false) ∧
      (v.plain.any isSeparator = true → GivesStatus entries Response.status) := by
  obtain ⟨found, -, hbuilt⟩ := built_of_override haccept
  obtain ⟨n, hn⟩ := Option.isSome_iff_exists.1 (hbuilt.whole v hv)
  obtain ⟨decoded, hdecoded, hfields⟩ := exists_overrideOf? haccept hjson
  have hobstacle : Json.obstacle? v = none := by
    obtain ⟨e, he, rfl⟩ := Value.mem_of_find? hv
    exact (Json.entriesObstacle?_eq_none.1 hjson e he).2
  have hgiven : givenStatus? ((Value.field? "status" decoded).getD .null) =
      .ok (if v.plain.any isSeparator then none else some n) := by
    have hrel := hfields "status"
    rw [hv] at hrel
    generalize Value.field? "status" decoded = w at hrel ⊢
    cases hrel with
    | some h => exact givenStatus?_of_respaced hn hobstacle hzero h
  have hgives : GivesStatus entries fun head =>
      (if v.plain.any isSeparator then none else some n).getD head.status := by
    intro head
    have happly := applyOverride_eq head decoded
    rw [hgiven] at happly
    exact ⟨decoded, _, hdecoded, happly, rfl⟩
  refine ⟨n, hn, ?_⟩
  cases hsep : v.plain.any isSeparator with
  | false =>
    rw [hsep] at hgives
    exact ⟨iff_of_true hgives rfl, by simp⟩
  | true =>
    rw [hsep] at hgives
    refine ⟨iff_of_false (fun h => ?_) (by simp), fun _ => hgives⟩
    have hstatus := h.eq hgives { Response.empty with status := n + 1 }
    exact absurd hstatus (by simp)

/-- A status of two digits on one side of an underscore and one on the other, with blanks around it. -/
theorem status_agrees_underscore :
    let source := "status: \"\\u3000 +2_01 \"\nbody: \"a  b \x7b\x7b\x7b\"".toList
    let entries := Value.entriesOf [("status", .text "\u3000 +2_01 "), ("body", .text "a  b \x7b\x7b\x7b"),
      (overrideKey, .text overrideKind)]
    override source .null .null = .ok entries ∧ Json.obstacle? (.map entries) = none ∧
    Value.field? "status" entries = some (.text "\u3000 +2_01 ") ∧ Value.text "\u3000 +2_01 " ≠ .int 0 ∧
    GivesStatus entries fun _ => 201 := by
  intro source entries
  have haccept : override source .null .null = .ok entries := by decide +kernel
  have hjson : Json.obstacle? (.map entries) = none := by decide +kernel
  have hv : Value.field? "status" entries = some (.text "\u3000 +2_01 ") := by decide +kernel
  have hzero : Value.text "\u3000 +2_01 " ≠ .int 0 := by simp
  obtain ⟨n, hn, hgives, -⟩ := status_agrees_iff haccept hjson hv hzero
  obtain rfl : 201 = n := by
    have hread : wholeNumber? (.value (.text "\u3000 +2_01 ")) = some 201 := by decide +kernel
    exact Option.some.inj (hread.symm.trans hn)
  exact ⟨haccept, hjson, hv, hzero, hgives.2 (by decide +kernel)⟩

/-- A status with a separator before it is accepted, and left out when the override is applied. -/
theorem status_separated :
    let v := Value.text "\x1c201"
    let entries := Value.entriesOf [("status", v), (overrideKey, .text overrideKind)]
    override "status: \"\\x1c201\"".toList .null .null = .ok entries ∧ Json.obstacle? (.map entries) = none ∧
    Value.field? "status" entries = some v ∧ v ≠ .int 0 ∧ wholeNumber? (.value v) = some 201 ∧
    ¬ GivesStatus entries fun _ => 201 := by
  intro v entries
  refine ⟨by decide +kernel, by decide +kernel, by decide +kernel, by simp [v], by decide +kernel, fun h => ?_⟩
  obtain ⟨decoded, r, hd, hr, hs⟩ := h { Response.empty with status := 200 }
  have hall : (overrideOf? (normalize (Json.line (.map entries)))).all (fun decoded =>
      (applyOverride { Response.empty with status := 200 } decoded).toOption.all (·.status != 201)) = true := by
    decide +kernel
  rw [hd] at hall
  simp [hr, hs, Except.toOption] at hall

end Directive
end MockTree
