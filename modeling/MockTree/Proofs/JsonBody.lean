import MockTree.Proofs.Grammar
import MockTree.Proofs.JsonSpacing
import MockTree.Proofs.Mapping
import MockTree.Proofs.PlainText

/-! Bodies of JSON. What a body goes through before it is served leaves its value alone: lines are joined,
blanks squeezed and triple braces parted between the tokens only, and no template finds a tag in it. -/
namespace MockTree
namespace Json
open Text

/-- From here on strings hold no brace, and no blanks but single spaces. -/
def PlainFrom : Place → List Char → Prop
  | _, [] => True
  | p, c :: r =>
    (p ≠ .outside → c ≠ '\x7b' ∧ c ≠ '\x7d' ∧ (isBlank c = true → c = ' ' ∧ r.head? ≠ some ' ')) ∧
      PlainFrom (p.next c) r

instance decidablePlainFrom : (p : Place) → (s : List Char) → Decidable (PlainFrom p s)
  | _, [] => inferInstanceAs (Decidable True)
  | p, c :: r =>
    have := decidablePlainFrom (p.next c) r
    inferInstanceAs (Decidable (_ ∧ PlainFrom (p.next c) r))

theorem PlainFrom.of_append {p : Place} {a b : List Char} {c : Char} (h : PlainFrom p (a ++ c :: b))
    (ha : a.foldl Place.next p ≠ .outside) :
    c ≠ '\x7b' ∧ c ≠ '\x7d' ∧ (isBlank c = true → c = ' ' ∧ b.head? ≠ some ' ') := by
  induction a generalizing p with
  | nil => exact h.1 ha
  | cons d a ih => exact ih h.2 ha

/-- Strings of a plain text are squeezed and hold no brace. -/
theorem PlainFrom.literal {ts : List Token} {t : List Char} (hplain : PlainFrom .outside t)
    (ht : Laid ts t) (hts : ∀ t ∈ ts, t.Sound) {raw : List Char} (hraw : .literal raw ∈ ts) :
    Squeezed raw ∧ '\x7b' ∉ raw ∧ '\x7d' ∉ raw := by
  obtain ⟨r, hsp, -⟩ := ht
  have hat : ∀ {p q : List Char} {c : Char}, raw = p ++ c :: q → c ≠ '\x7b' ∧ c ≠ '\x7d' ∧
      (isBlank c = true → c = ' ' ∧ ∀ d ∈ q.head?, d ≠ ' ') := by
    rintro p q c rfl
    obtain ⟨front, back, rfl, hin⟩ := hsp.exists_quoted hts hraw
    obtain ⟨h1, h2, h3⟩ := hplain.of_append hin
    refine ⟨h1, h2, fun hc => ⟨(h3 hc).1, ?_⟩⟩
    rintro d hd rfl
    cases q with
    | nil => cases hd
    | cons e q =>
      cases hd
      exact (h3 hc).2 rfl
  refine ⟨?_, ?_, ?_⟩
  · rintro p c q rfl hc
    obtain ⟨-, -, h⟩ := hat rfl
    refine ⟨(h hc).1, fun d hd => ?_⟩
    cases q with
    | nil => cases hd
    | cons e q =>
      cases hd
      rw [← Bool.not_eq_true]
      intro hb
      obtain ⟨-, -, h'⟩ := hat (p := p ++ [c]) (c := d) (q := q) (by simp)
      exact (h hc).2 d rfl (h' hb).1
  · intro hmem
    obtain ⟨p, q, rfl⟩ := List.append_of_mem hmem
    exact (hat rfl).1 rfl
  · intro hmem
    obtain ⟨p, q, rfl⟩ := List.append_of_mem hmem
    exact (hat rfl).2.1 rfl

section
variable {ts : List Token} {s : List Char} (h : Laid ts s) (hts : ∀ t ∈ ts, t.Sound)
include h hts

/-- No text of tokens ends in a character that is neither gap nor quote nor part of a word or mark. -/
theorem Laid.not_concat {a : List Char} {c : Char} (hs : s = a ++ [c]) (hspace : isSpace c = false)
    (hatom : isAtomChar c = false) (hq : c ≠ '"') (hmark : c ∉ marks) : False := by
  obtain ⟨r, hsp, hr⟩ := h
  rcases hsp.split hts hr hs hspace hatom hq with ⟨us, vs, rfl, -⟩ | ⟨-, p, q, front, back, -, -, he⟩
  · exact hmark (hts (.mark c) (by simp))
  · simp at he

theorem Laid.tagless (hchain : ts.IsChain Apart)
    (hbraces : ∀ raw, .literal raw ∈ ts → '\x7b' ∉ raw ∧ '\x7d' ∉ raw) :
    Template.Grammar.Tagless s := by
  obtain ⟨r, hsp, hr⟩ := h
  constructor
  · rintro ⟨a, b, hs⟩
    obtain ⟨-, p, q, front, back, hmem, -⟩ := hsp.quoted_of_double hts hr hchain (a := a) (b := b)
      (by rw [← hs]; simp [Template.openBraces])
    exact (hbraces _ hmem).1 (by simp)
  · rintro ⟨a, b, hs⟩
    have hs : s = (a ++ ['~']) ++ '\x7d' :: '\x7d' :: b := by rw [← hs]; simp [Template.closeBraces]
    rcases hsp.split hts hr hs (by decide) (by decide) (by decide) with
      ⟨us, vs, rfl, hu, -⟩ | ⟨-, p, q, front, back, hmem, -⟩
    · exact hu.not_concat (fun t ht => hts t (by simp [ht])) rfl (by decide) (by decide) (by decide)
        (by decide)
    · exact (hbraces _ hmem).2 (by simp)

/-- A word in a text of tokens that is no JSON stands in one of its strings. -/
theorem Laid.exists_literal {w v : List Char} {c : Char} (hspace : isSpace c = false)
    (hatom : isAtomChar c = false) (hmark : c ∉ marks) (hw : '"' ∉ w ++ c :: v)
    (hs : w ++ c :: v <:+: s) : ∃ raw, .literal raw ∈ ts ∧ w ++ c :: v <:+: raw := by
  simp only [List.mem_append, List.mem_cons, not_or] at hw
  obtain ⟨r, hsp, hr⟩ := h
  obtain ⟨a, b, hs⟩ := hs
  have hs : s = (a ++ w) ++ c :: (v ++ b) := by rw [← hs]; simp
  rcases hsp.split hts hr hs hspace hatom (Ne.symm hw.2.1) with
    ⟨us, vs, rfl, -⟩ | ⟨-, p, q, front, back, hmem, hp, hq⟩
  · exact absurd (hts (.mark c) (by simp)) hmark
  · refine ⟨_, hmem, ?_⟩
    rcases append_eq_append_cons hp with ⟨m, -, hm⟩ | ⟨m, -, rfl⟩
    · exact absurd (by simp [hm]) hw.1
    · rcases append_eq_append_cons hq with ⟨m', rfl, -⟩ | ⟨m', hm', -⟩
      · exact ⟨m, m', by simp⟩
      · exact absurd (by simp [hm']) hw.2.2

theorem Laid.literal_infix {raw : List Char} (hmem : .literal raw ∈ ts) : raw <:+: s := by
  obtain ⟨r, hsp, -⟩ := h
  cases raw with
  | nil => exact List.nil_infix
  | cons c raw =>
    obtain ⟨front, back, rfl, -⟩ := hsp.exists_quoted hts (p := []) hmem
    exact ⟨front ++ ['"'], '"' :: back, by simp⟩

end

/-- Taking a text for the body of a definition leaves its tokens as they are, if its strings are plain. -/
theorem PlainFrom.normalize {ts : List Token} {t : List Char} (hplain : PlainFrom .outside t)
    (ht : Laid ts t) (hts : ∀ t ∈ ts, t.Sound) (hchain : ts.IsChain Apart) (hne : ts ≠ []) :
    Laid ts (Definition.normalize (lines t).flatten) := by
  have hliteral : ∀ raw, .literal raw ∈ ts → _ := fun _ => hplain.literal ht hts
  have htrim := ht.trim hts hne fun raw hraw => (hliteral raw hraw).1
  rw [flatten_lines, Definition.normalize]
  refine htrim.partBraces hts ?_ ?_
  · intro hi
    have htagless := htrim.tagless hts hchain fun raw hraw => (hliteral raw hraw).2
    exact htagless.opening (List.IsInfix.trans ⟨[], ['\x7b'], rfl⟩ hi)
  · rintro a b - ⟨-, p, q, front, back, hmem, -⟩
    exact (hliteral _ hmem).2.2 (by simp)

end Json

namespace Definition
open Text Json Directive

theorem head?_normalize {c : Char} {s : List Char} (h : c ∈ (normalize s).head?) : isBlank c = false := by
  rw [normalize, partBraces, head?_replaceFirst (c := '\x7d') rfl rfl,
    head?_replaceFirst (c := '\x7b') rfl rfl] at h
  exact head?_trim h

theorem markedPath?_eq_none {s : List Char} (h : ¬ attachmentMark <:+: s) : markedPath? s = none := by
  induction s with
  | nil => rfl
  | cons c r ih =>
    have hn : after? attachmentMark (c :: r) = none := by
      rw [Option.eq_none_iff_forall_ne_some]
      intro t ht
      exact h ⟨[], t, by simp [after?_eq_some.1 ht]⟩
    rw [markedPath?, hn]
    exact ih fun hi => h (hi.trans (List.suffix_cons c r).isInfix)

/-- A value that is an override, and its entries. -/
def IsOverride (v : Value) (entries : List (Scalar × Value)) : Prop :=
  v = .map entries ∧ Value.field? overrideKey entries = some (.text overrideKind)

theorem overrideOf?_eq_some {body : List Char} {v : Value} (h : Json.read? body = some v)
    {entries : List (Scalar × Value)} : overrideOf? body = some entries ↔ IsOverride v entries := by
  rw [overrideOf?, h]
  constructor
  · intro ho
    split at ho
    · next es he =>
      split at ho
      · next kind hk =>
        split at ho
        · next hkind =>
          cases ho
          exact ⟨Option.some.inj he, by rw [hk, eq_of_beq hkind]⟩
        · cases ho
      · cases ho
    · cases ho
  · rintro ⟨rfl, hk⟩
    simp [hk]

theorem exists_scalar_of_readAtom {s r : List Char} {v : Value} (h : readAtom s = some (v, r)) :
    ∃ x, v = .scalar x := by
  have hnumber : ∀ {negative t}, readNumber negative t = some (v, r) → ∃ x, v = .scalar x := by
    intro negative t hn
    rw [readNumber, Option.bind_eq_bind, Option.bind_eq_some_iff] at hn
    obtain ⟨⟨ds, m⟩, -, hn⟩ := hn
    simp only at hn
    split at hn
    · split at hn <;> cases hn <;> exact ⟨_, rfl⟩
    · cases hn
      exact ⟨_, rfl⟩
    · split at hn <;> cases hn
      exact ⟨_, rfl⟩
  rw [readAtom.eq_def] at h
  split at h
  · next a ha =>
    cases h
    obtain ⟨⟨w, u⟩, hmem, hw⟩ := List.exists_of_findSome?_eq_some ha
    obtain ⟨t, -, he⟩ := Option.map_eq_some_iff.1 hw
    cases he
    have hall : ∀ k ∈ keywords, ∃ x, k.2 = .scalar x := by simp [keywords]
    exact hall _ hmem
  · split at h <;> exact hnumber h

/-- An override names its fields, so it holds quotes. -/
theorem overrideOf?_eq_none {body : List Char} (h : '"' ∉ body) : overrideOf? body = none := by
  rw [Option.eq_none_iff_forall_ne_some]
  intro entries ho
  rw [overrideOf?] at ho
  split at ho
  · next es he =>
    suffices hes : es = [] by
      rw [hes] at ho
      cases ho
    rw [read?] at he
    split at he
    · next v r hv =>
      split at he
      · cases he
        have hquote : '"' ∉ skipSpace body := fun hm => h ((List.dropWhile_sublist _).mem hm)
        rcases readValue_cases hv with ⟨t, ht⟩ | ⟨t, ht⟩ | ⟨t, ht⟩ | ha
        · exact absurd (by simp [ht]) hquote
        · rw [ht, readValue_list] at hv
          simp at hv
        · rw [ht, readValue_map] at hv
          rcases hv with ⟨-, hv⟩ | ⟨-, ps, hps, -⟩
          · exact Value.map.inj hv
          · obtain ⟨_, _, _, _, _, _, hs, -⟩ := readFields_eq_some.1 hps
            have hmem : '"' ∈ skipSpace t := by simp [hs]
            exact absurd (by simp [ht, (List.dropWhile_sublist _).mem hmem]) hquote
        · obtain ⟨x, hx⟩ := exists_scalar_of_readAtom ha
          cases hx
      · cases he
    · cases he
  · cases ho

end Definition

open Text Definition Json Directive

/-- A body is served with its value, if it is no override. -/
inductive Served (v : Value) : Except Fault Response → Prop
  | override {entries : List (Scalar × Value)} {r : Response} (h : IsOverride v entries)
      (ho : r.origin = .code) : Served v (.ok r)
  | template {r : Response} (h : ∀ entries, ¬ IsOverride v entries) (ho : r.origin = .template)
      (hb : Json.read? r.body.toList = some v) : Served v (.ok r)

theorem not_served_error {v : Value} {f : Fault} : ¬ Served v (.error f) := by
  rintro ⟨⟩

/-- The definition with nothing but a status and a body. -/
def bareDefinition (t : List Char) : List Char := "HTTP/1.1 200\n\n".toList ++ t

theorem settle_bareDefinition (registry : Registry) (s : Setting) (t : List Char) (σ : Session) :
    (settle registry s (String.ofList (bareDefinition t))).runIn σ =
      (finish registry s { Response.empty with status := 200 } (normalize (lines t).flatten)).runIn σ := by
  have hlines : lines (bareDefinition t) = "HTTP/1.1 200".toList :: [] :: lines t := rfl
  rw [settle_runIn, String.toList_ofList, Definition.bodyText, hlines]
  rfl

/-- A body of JSON without tags and marks is served with its value, just when it has no status without end. -/
theorem finish_served (registry : Registry) (s : Setting) {σ : Session} (hσ : σ.Sound) (r : Response)
    {body : List Char} {v : Value} (hread : Json.read? body = some v)
    (htagless : Template.Grammar.Tagless body) (hmark : ¬ attachmentMark <:+: body) {c : Char}
    (hc : c ∈ body.head?) (hb : isBlank c = false) :
    let outcome := ((finish registry s r body).runIn σ).1
    let endless := ∃ entries, IsOverride v entries ∧ EndlessStatus entries
    (Served v outcome ↔ ¬ endless) ∧ (endless → outcome = .error .overflow) := by
  intro outcome endless
  have hout : outcome = ((finish registry s r body).runIn σ).1 := rfl
  rw [finish, Content.of] at hout
  cases ho : overrideOf? body with
  | some entries =>
    have hov := (overrideOf?_eq_some hread).1 ho
    have hend : endless ↔ EndlessStatus entries := by
      constructor
      · rintro ⟨es, hes, he⟩
        cases hov.1.symm.trans hes.1
        exact he
      · exact fun he => ⟨entries, hov, he⟩
    simp only [ho, Work.runIn_ofExcept] at hout
    rw [hend, hout]
    rcases applyOverride_cases r entries with ⟨r', ha, -, he⟩ | ⟨ha, he⟩
    · rw [ha]
      exact ⟨iff_of_true (.override hov (applyOverride_origin ha)) he, fun h => absurd h he⟩
    · rw [ha]
      exact ⟨iff_of_false not_served_error (not_not_intro he), fun _ => rfl⟩
  | none =>
    have hno : ∀ entries, ¬ IsOverride v entries := fun entries h => by
      rw [(overrideOf?_eq_some hread).2 h] at ho
      cases ho
    have hend : ¬ endless := by
      rintro ⟨entries, h, -⟩
      exact hno entries h
    obtain ⟨τ, -, hrender⟩ := render_of_tagless registry s hσ htagless hc hb
    simp only [ho, markedPath?_eq_none hmark, Work.runIn_bind_ok hrender] at hout
    rw [hout]
    exact ⟨iff_of_true (.template hno rfl (by simpa using hread)) hend, fun h => absurd h hend⟩

theorem Template.Grammar.Tagless.append {s : List Char} (h : Template.Grammar.Tagless s) {front : List Char}
    (hopen : '\x7b' ∉ front) (htilde : '~' ∉ front) : Template.Grammar.Tagless (front ++ s) := by
  constructor
  · rintro ⟨a, b, hs⟩
    have hs : front ++ s = a ++ '\x7b' :: ('\x7b' :: b) := by rw [← hs]; simp [Template.openBraces]
    rcases append_eq_append_cons hs with ⟨m, -, hm⟩ | ⟨m, hm, -⟩
    · exact h.opening ⟨m, b, by rw [hm]; simp [Template.openBraces]⟩
    · exact hopen (by simp [hm])
  · rintro ⟨a, b, hs⟩
    have hs : front ++ s = a ++ '~' :: ('\x7d' :: '\x7d' :: b) := by rw [← hs]; simp [Template.closeBraces]
    rcases append_eq_append_cons hs with ⟨m, -, hm⟩ | ⟨m, hm, -⟩
    · exact h.tilde ⟨m, b, by rw [hm]; simp [Template.closeBraces]⟩
    · exact htilde (by simp [hm])

/-- A definition with a status and a body of JSON, whose strings are plain and hold no mark of a file, is
served with the value of its body, just when the body is no override with a status without end. Such a
body overflows. -/
theorem compile_json_iff (registry : Registry) (s : Setting) {σ : Session} (hσ : σ.Sound) {t : List Char}
    {v : Value} (hread : Json.read? t = some v) (hplain : PlainFrom .outside t)
    (hmark : ¬ attachmentMark <:+: t) :
    let outcome := ((compile registry s (String.ofList (bareDefinition t))).runIn σ).1
    let endless := ∃ entries, IsOverride v entries ∧ EndlessStatus entries
    (Served v outcome ↔ ¬ endless) ∧ (endless → outcome = .error .overflow) := by
  intro outcome endless
  obtain ⟨ts, hspells, hlaid⟩ := Json.read?_eq_some.1 hread
  have hts := hspells.sound
  have hliteral : ∀ raw, .literal raw ∈ ts → _ := fun _ => hplain.literal hlaid hts
  have htagless := hlaid.tagless hts hspells.isChain fun raw hraw => (hliteral raw hraw).2
  -- The first rendering leaves the definition as it is.
  have hbare : Template.Grammar.Tagless (bareDefinition t) := htagless.append (by decide) (by decide)
  obtain ⟨τ, hτ, hrender⟩ := render_of_tagless registry s hσ hbare (c := 'H') rfl (by decide)
  have hout : outcome = ((finish registry s { Response.empty with status := 200 }
      (normalize (lines t).flatten)).runIn τ).1 := by
    rw [← settle_bareDefinition registry s t τ]
    exact congrArg Prod.fst (Work.runIn_bind_ok hrender)
  -- The body is laid out of the same tokens.
  have hbody := hplain.normalize hlaid hts hspells.isChain hspells.ne_nil
  have hbread : Json.read? (normalize (lines t).flatten) = some v :=
    Json.read?_eq_some.2 ⟨ts, hspells, hbody⟩
  have hbtagless := hbody.tagless hts hspells.isChain fun raw hraw => (hliteral raw hraw).2
  have hbmark : ¬ attachmentMark <:+: normalize (lines t).flatten := fun hi => by
    obtain ⟨raw, hraw, hi⟩ := hbody.exists_literal hts (w := "camouflage".toList) (c := '_')
      (v := "file_helper;".toList) (by decide) (by decide) (by decide) (by decide) hi
    exact hmark (hi.trans (hlaid.literal_infix hts hraw))
  obtain ⟨c, hc⟩ : ∃ c, c ∈ (normalize (lines t).flatten).head? := by
    cases hb : normalize (lines t).flatten with
    | nil => exact absurd ((hb ▸ hbody).eq_nil hts) hspells.ne_nil
    | cons c b => exact ⟨c, rfl⟩
  rw [hout]
  exact finish_served registry s hτ _ hbread hbtagless hbmark hc (head?_normalize hc)

/-- A body of nested objects, with line ends and other blanks between its tokens. -/
def nestedBody : List Char :=
  "\x7b\"a\": \x7b\"b\": \x7b\"c\": \x7b\x7d\x7d\x7d,\n \"d\":\t[1, 20,\r\n \"x y\"]\x7d".toList

theorem compile_json_iff_nested :
    let s := Setting.still ⟨.directory [], ⟨true, []⟩⟩ (.simple "GET" "/")
    let v := Value.map [(.text "a", .map [(.text "b", .map [(.text "c", .map [])])]),
      (.text "d", .list [.int 1, .int 20, .text "x y"])]
    Json.read? nestedBody = some v ∧ PlainFrom .outside nestedBody ∧ ¬ attachmentMark <:+: nestedBody ∧
    Served v ((compile [] s (String.ofList (bareDefinition nestedBody))).runIn (.fresh true 1000 0)).1 := by
  intro s v
  have hread : Json.read? nestedBody = some v := by decide +kernel
  have hplain : PlainFrom .outside nestedBody := by decide +kernel
  have hmark : ¬ attachmentMark <:+: nestedBody := by decide +kernel
  refine ⟨hread, hplain, hmark, ?_⟩
  refine (compile_json_iff [] s (Session.sound_fresh true 1000 0) hread hplain hmark).1.2 ?_
  rintro ⟨entries, h, -⟩
  have hnone : (overrideOf? nestedBody).isNone = true := by decide +kernel
  rw [(overrideOf?_eq_some hread).2 h] at hnone
  cases hnone

/-- An override with a status without end. -/
def endlessBody : List Char := "\x7b\"CamouflageResponseType\": \"code\", \"status\": 1e999\x7d".toList

theorem compile_json_endless :
    let s := Setting.still ⟨.directory [], ⟨true, []⟩⟩ (.simple "GET" "/")
    let v := Value.map [(.text "CamouflageResponseType", .text "code"),
      (.text "status", .real (.infinite false))]
    let outcome := ((compile [] s (String.ofList (bareDefinition endlessBody))).runIn (.fresh true 1000 0)).1
    Json.read? endlessBody = some v ∧ PlainFrom .outside endlessBody ∧ ¬ attachmentMark <:+: endlessBody ∧
    outcome = .error .overflow ∧ ¬ Served v outcome := by
  intro s v outcome
  have hout : outcome = .error .overflow := by decide +kernel
  refine ⟨by decide +kernel, by decide +kernel, by decide +kernel, hout, ?_⟩
  rw [hout]
  exact not_served_error

end MockTree
