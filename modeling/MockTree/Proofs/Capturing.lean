import MockTree.Proofs.Directives
import MockTree.Proofs.Groups

/-! What a search in a request captures. The directive infers from a match whether the pattern has groups. So
it gives what a pattern asks for, except where the first group of a pattern takes no part in the match: then
it gives the whole match, or nothing if another group took part. -/
namespace MockTree.Directive
open Text Pattern

/-- The search that the arguments of a call ask for: for a pattern, in the path or in the body as text. -/
inductive Searches (request : Request) (arg : String → Datum) (pattern : String) : List Char → Prop
  | path (hsource : arg "source" = .value (.text "path")) (hregex : arg "regex" = .value (.text pattern)) :
    Searches request arg pattern request.path.toList
  | body (hsource : arg "source" = .value (.text "body")) (husing : arg "using" = .value (.text "regex"))
    (hselector : arg "selector" = .value (.text pattern)) :
    Searches request arg pattern (bodyText request.body)

/-- What a pattern is to capture of a match: the first group if it took part, the whole match if there are no
groups. Where the first of the groups took no part, the whole match does not stand in for it. -/
structure FirstGroup (r : Regex) (found : Pattern.Found) (t : List Char) : Prop where
  whole : r.groups = [] → t = found.whole
  group : ∀ g, found.group? 1 = some g → t = g
  absent : r.groups ≠ [] → found.group? 1 = none → t ≠ found.whole

/-- What a pattern is to capture in a text. -/
def Captures (r : Regex) (text t : List Char) : Prop :=
  match r.find? text with
  | none => t = noMatch
  | some found => FirstGroup r found t

/-- What the directive takes from a match. -/
def taken (found : Pattern.Found) : Datum :=
  if found.hasGroups then ((found.group? 1).map Datum.text).getD .null else .text found.whole

variable {s : Setting} {call : Call} {pattern : String} {text : List Char} {r : Regex}

theorem searchText_eq (hread : Regex.read pattern.toList = .ok r) :
    searchText pattern text = .ok (((r.find? text).map taken).getD (.text noMatch)) := by
  simp only [searchText, hread]
  cases r.find? text with
  | none => rfl
  | some found =>
    cases hgroup : found.group? 1 <;> simp only [Option.map_some, Option.getD_some, taken, hgroup]
    · split <;> rfl
    · split <;> rfl

theorem capture_runAt_of_searches
    (hsearch : Searches s.request (fun field => captureSignature.get field call.named) pattern text) (n : ℕ) :
    (capture s call).runAt n = (searchText pattern text, n) := by
  rw [capture, Render.runAt_ofExcept]
  cases hsearch with
  | path hsource hregex => simp [captured, hsource, hregex, isText, isNull, search]
  | body hsource husing hselector =>
    simp [captured, captureBody, hsource, husing, hselector, isText, isNull, search]

theorem text_injective : Function.Injective Datum.text := fun _ _ h =>
  String.ofList_injective (by simpa [Datum.text, Value.ofChars] using h)

/-- The directive takes the first group, just where it took part in the match if there are groups. -/
theorem taken_firstGroup_iff {found : Pattern.Found} (hfind : r.find? text = some found) :
    (∃ t, taken found = .text t ∧ FirstGroup r found t) ↔ (r.groups ≠ [] → (found.group? 1).isSome) := by
  constructor
  · rintro ⟨t, ht, hfirst⟩ hgroups
    by_contra habsent
    rw [Option.not_isSome_iff_eq_none] at habsent
    rw [taken, habsent] at ht
    split at ht
    · cases ht
    · exact hfirst.absent hgroups habsent (text_injective ht).symm
  · intro hgroup
    cases hg : found.group? 1 with
    | some g =>
      have hhas : found.hasGroups = true := r.hasGroups_of_group?_eq_some hfind hg
      refine ⟨g, ?_, fun hnil => ?_, fun g' hg' => Option.some.inj (hg.symm.trans hg'),
        fun _ hnone => nomatch hg.symm.trans hnone⟩
      · rw [taken, if_pos hhas, hg]
        rfl
      · rw [Regex.hasGroups_eq_false hnil hfind] at hhas
        cases hhas
    | none =>
      have hnil : r.groups = [] := by
        by_contra hne
        exact absurd (hgroup hne) (by simp [hg])
      refine ⟨found.whole, ?_, fun _ => rfl, by simp [hg], fun hne => absurd hnil hne⟩
      rw [taken, Regex.hasGroups_eq_false hnil hfind]
      rfl

theorem searchText_firstGroup_iff (hread : Regex.read pattern.toList = .ok r) :
    (∃ t, searchText pattern text = .ok (.text t) ∧ Captures r text t) ↔
      ∀ found, r.find? text = some found → r.groups ≠ [] → (found.group? 1).isSome := by
  simp only [searchText_eq hread, Except.ok.injEq]
  cases hfind : r.find? text with
  | none => simp [Captures, hfind]
  | some found => simpa [Captures, hfind] using taken_firstGroup_iff hfind

/-- For every call that asks for a search, and every pattern that can be read: the directive gives a text, the
one that the pattern is to capture, just when the first group takes part in the match, if there is one and the
pattern has groups. -/
theorem capture_firstGroup_iff (hread : Regex.read pattern.toList = .ok r)
    (hsearch : Searches s.request (fun field => captureSignature.get field call.named) pattern text) (n : ℕ) :
    (∃ t, (capture s call).runAt n = (.ok (.text t), n) ∧ Captures r text t) ↔
      ∀ found, r.find? text = some found → r.groups ≠ [] → (found.group? 1).isSome := by
  simp only [capture_runAt_of_searches hsearch, Prod.mk.injEq, and_true]
  exact searchText_firstGroup_iff hread

/-- The number at the end of a path. -/
theorem capture_firstGroup_iff_number :
    let s := Setting.still ⟨.empty, .ofString "/"⟩ (.simple "GET" "/42")
    let call := Call.given ⟨.null, none, [], []⟩ [("from", "path"), ("regex", "/(\\d+)")]
    let r : Regex := .seq (.chars ⟨false, [.one 47], .exact⟩)
      (.group 1 (.repetition (.chars ⟨false, [.category .digit true false], .exact⟩) 1 none .greedy))
    Regex.read "/(\\d+)".toList = .ok r ∧
      Searches s.request (fun field => captureSignature.get field call.named) "/(\\d+)" "/42".toList ∧
      (capture s call).runAt 0 = (.ok (.text "42".toList), 0) ∧ Captures r "/42".toList "42".toList := by
  intro s call r
  have hread : Regex.read "/(\\d+)".toList = .ok r := by decide +kernel
  have hsearch : Searches s.request (fun field => captureSignature.get field call.named) "/(\\d+)" "/42".toList :=
    .path rfl rfl
  have hfind : (r.find? "/42".toList).map (fun found => found.group? 1) = some (some "42".toList) := by
    decide +kernel
  obtain ⟨found, hfound, hgroup⟩ := Option.map_eq_some_iff.1 hfind
  obtain ⟨t, hrun, hcaptures⟩ := (capture_firstGroup_iff hread hsearch 0).2 fun _ hfound _ =>
    r.group?_isSome_of_takes (by decide) (by decide) hfound
  obtain rfl : t = "42".toList := by
    rw [Captures, hfound] at hcaptures
    exact hcaptures.group _ hgroup
  exact ⟨hread, hsearch, hrun, hcaptures⟩

/-- A first group that is left out gives way to the whole match. -/
theorem capture_leftOut :
    let s := Setting.still ⟨.empty, .ofString "/"⟩ (.simple "GET" "/b")
    let call := Call.given ⟨.null, none, [], []⟩ [("from", "path"), ("regex", "(a)?b")]
    let r : Regex := .seq (.repetition (.group 1 (.chars ⟨false, [.one 97], .exact⟩)) 0 (some 1) .greedy)
      (.chars ⟨false, [.one 98], .exact⟩)
    Regex.read "(a)?b".toList = .ok r ∧ (capture s call).runAt 0 = (.ok (.text "b".toList), 0) ∧
      ¬ Captures r "/b".toList "b".toList := by
  intro s call r
  have hread : Regex.read "(a)?b".toList = .ok r := by decide +kernel
  have hsearch : Searches s.request (fun field => captureSignature.get field call.named) "(a)?b" "/b".toList :=
    .path rfl rfl
  have hfind : (r.find? "/b".toList).map (fun found => (found.whole, found.hasGroups, found.group? 1)) =
      some ("b".toList, false, none) := by
    decide +kernel
  obtain ⟨found, hfound, hparts⟩ := Option.map_eq_some_iff.1 hfind
  obtain ⟨hwhole, hhas, hgroup⟩ : found.whole = "b".toList ∧ found.hasGroups = false ∧ found.group? 1 = none := by
    simpa using hparts
  refine ⟨hread, ?_, fun hcaptures => ?_⟩
  · rw [capture_runAt_of_searches hsearch, searchText_eq hread, hfound]
    simp [taken, hwhole, hhas]
  · rw [Captures, hfound] at hcaptures
    exact hcaptures.absent (by decide) hgroup hwhole.symm

end MockTree.Directive
