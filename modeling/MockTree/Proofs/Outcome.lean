import MockTree.Proofs.Head
import MockTree.Proofs.PathLength

/-! How requests end. Rendering turns whatever goes wrong into a failure, and a failure is reported with
the file of the definition; but the rendered text is read outside of it, where a delay or a status
without end is no failure. -/
namespace MockTree
namespace Definition
open Text

/-- The status of an override has no end. -/
def EndlessStatus (entries : List (Scalar × Value)) : Prop :=
  ∃ negative, Value.field? "status" entries = some (.real (.infinite negative))

/-- A rendered definition has a delay or a status without end, and nothing fails before it. -/
def Overflows (rendered : List Char) : Prop :=
  Stalls (headOf (lines rendered)) ∨
  ((∀ l ∈ headOf (lines rendered), ¬ LacksStatus l ∧ ¬ Endless l) ∧
    ∃ entries, overrideOf? (bodyText rendered) = some entries ∧ EndlessStatus entries)

theorem givenStatus?_cases (v : Value) :
    (∃ n, givenStatus? v = .ok n ∧ ∀ b, v ≠ .real (.infinite b)) ∨
    (givenStatus? v = .error .overflow ∧ ∃ b, v = .real (.infinite b)) := by
  by_cases h : ∃ b, v = .real (.infinite b)
  · obtain ⟨b, rfl⟩ := h
    exact .inr ⟨rfl, b, rfl⟩
  · have hn : ∀ b, v ≠ .real (.infinite b) := fun b e => h ⟨b, e⟩
    refine .inl ?_
    by_cases ht : v.isTrue = true
    · rw [givenStatus?.eq_def, if_neg (by simp [ht])]
      rcases v with (_ | b | n | (_ | b | ⟨b, m, e⟩) | t | bs | d | t | k) | items | entries | members
      case scalar.real.infinite => exact absurd rfl (hn b)
      case scalar.real.finite =>
        obtain ⟨n, hx⟩ := truncate?_finite b m e
        exact ⟨some n, by simp only [hx], hn⟩
      all_goals exact ⟨_, rfl, hn⟩
    · exact ⟨none, by simp [givenStatus?, ht], hn⟩

theorem foldl_setHeader_delay (hs : List (Scalar × Value)) (r : Response) :
    (hs.foldl (fun (r : Response) (h : Scalar × Value) =>
      r.setHeader (String.ofList h.1.plain) (String.ofList h.2.plain)) r).delay = r.delay := by
  induction hs generalizing r with
  | nil => rfl
  | cons h hs ih => exact ih _

/-- An override leaves the delay as it is, unless its status has no end. -/
theorem applyOverride_cases (r : Response) (entries : List (Scalar × Value)) :
    (∃ r', applyOverride r entries = .ok r' ∧ r'.delay = r.delay ∧ ¬ EndlessStatus entries) ∨
    (applyOverride r entries = .error .overflow ∧ EndlessStatus entries) := by
  rcases givenStatus?_cases ((Value.field? "status" entries).getD .null) with ⟨n, hn, hv⟩ | ⟨he, b, hb⟩
  · have hs : ¬ EndlessStatus entries := by
      rintro ⟨b, hb⟩
      exact hv b (by rw [hb]; rfl)
    refine .inl ⟨_, by rw [applyOverride, hn]; rfl, ?_, hs⟩
    simp only
    split
    · exact foldl_setHeader_delay _ _
    · rfl
  · refine .inr ⟨by rw [applyOverride, he]; rfl, b, ?_⟩
    cases hf : Value.field? "status" entries with
    | none => rw [hf] at hb; cases hb
    | some v => rw [hf] at hb; exact congrArg some hb

end Definition

/-- The response to a request that is due no earlier than it was asked for, or a failure. -/
inductive Tame : Except Fault Response → Prop
  | response {r : Response} (h : 0 ≤ r.delay) : Tame (.ok r)
  | failure (f : Failure) : Tame (.error (.failure f))

theorem Fault.ofTemplate_eq (f : Fault) : ∃ g, f.ofTemplate = .failure g := by
  cases f <;> exact ⟨_, rfl⟩

/-- Rendering fails in no other way than by a failure. -/
theorem render_cases (registry : Registry) (s : Setting) (source : String) (σ : Session) :
    (∃ text τ, (render registry s source).runIn σ = (.ok text, τ)) ∨
    ∃ f τ, (render registry s source).runIn σ = (.error (.failure f), τ) := by
  rw [render, Work.runIn_tryCatch]
  split
  · next text τ _ => exact .inl ⟨text, τ, rfl⟩
  · next f τ _ =>
    obtain ⟨g, hg⟩ := f.ofTemplate_eq
    exact .inr ⟨g, τ, by rw [Work.runIn_raise, hg]⟩

section
open Definition Text

/-- The response of a definition whose head has been read. -/
def finish (registry : Registry) (s : Setting) (r : Response) (body : List Char) : Work Response :=
  match Content.of body with
  | .override entries => ofExcept (applyOverride r entries)
  | .file path => pure { r with file := some path, origin := .file }
  | .template text => do
    pure { r with body := (← render registry s (String.ofList text)), origin := .template }

theorem settle_runIn (registry : Registry) (s : Setting) (rendered : String) (σ : Session) :
    (settle registry s rendered).runIn σ =
      match readLines .empty (headOf (lines rendered.toList)) with
      | .ok r => (finish registry s r (bodyText rendered.toList)).runIn σ
      | .error f => (.error f, σ) := by
  rw [settle, Work.runIn_bind, Work.runIn_ofExcept, split_eq]
  cases readLines .empty (headOf (lines rendered.toList)) with
  | error f => rw [Except.map]
  | ok r =>
    cases hc : Content.of (bodyText rendered.toList) <;> simp only [Except.map, finish, hc]

/-- Everything that can come of a body. -/
theorem finish_cases {r : Response} (hr : 0 ≤ r.delay) (registry : Registry) (s : Setting)
    (body : List Char) (σ : Session) :
    (Tame ((finish registry s r body).runIn σ).1 ∧
      ∀ entries, overrideOf? body = some entries → ¬ EndlessStatus entries) ∨
    ((finish registry s r body).runIn σ = (.error .overflow, σ) ∧
      ∃ entries, overrideOf? body = some entries ∧ EndlessStatus entries) := by
  rw [finish, Content.of]
  cases ho : overrideOf? body with
  | some entries =>
    simp only [Work.runIn_ofExcept, Option.some.injEq, forall_eq', exists_eq_left']
    rcases applyOverride_cases r entries with ⟨r', ha, hd, he⟩ | ⟨ha, he⟩
    · rw [ha]
      exact .inl ⟨.response (hd ▸ hr), he⟩
    · rw [ha]
      exact .inr ⟨rfl, he⟩
  | none =>
    refine .inl ⟨?_, by simp⟩
    cases markedPath? body with
    | some path => exact .response hr
    | none =>
      rcases render_cases registry s (String.ofList body) σ with ⟨text, τ, hb⟩ | ⟨f, τ, hb⟩
      · simp only [Work.runIn_bind_ok hb]
        exact .response hr
      · simp only [Work.runIn_bind_error hb]
        exact .failure f

/-- Reading a rendered definition overflows just when a delay or a status in it has no end. -/
theorem settle_cases (registry : Registry) (s : Setting) (rendered : String) (σ : Session) :
    (Tame ((settle registry s rendered).runIn σ).1 ∧ ¬ Overflows rendered.toList) ∨
    ((settle registry s rendered).runIn σ = (.error .overflow, σ) ∧ Overflows rendered.toList) := by
  rw [settle_runIn]
  rcases readLines_cases (r := .empty) (by decide) (headOf (lines rendered.toList)) with
    ⟨r, hr, h0, hn⟩ | ⟨cause, hr, hs, l, hl, hb⟩ | ⟨hr, hs⟩
  · rw [hr]
    have hst : ¬ Stalls (headOf (lines rendered.toList)) := by
      rintro ⟨before, l, after, h, he, -⟩
      exact (hn l (by simp [h])).2 he
    rcases finish_cases h0 registry s (bodyText rendered.toList) σ with ⟨ht, he⟩ | ⟨hf, he⟩
    · refine .inl ⟨ht, ?_⟩
      rintro (h | ⟨-, entries, ho, h⟩)
      · exact hst h
      · exact he entries ho h
    · exact .inr ⟨hf, .inr ⟨hn, he⟩⟩
  · rw [hr]
    refine .inl ⟨.failure _, ?_⟩
    rintro (h | ⟨h, -⟩)
    · exact hs h
    · exact (h l hl).1 hb
  · rw [hr]
    exact .inr ⟨rfl, .inl hs⟩

end

/-- What the text of a definition renders to has a delay or a status without end. -/
def Overflowing (registry : Registry) (s : Setting) (source : List Char) (σ : Session) : Prop :=
  ∃ rendered, ((render registry s (String.ofList source)).runIn σ).1 = .ok rendered ∧
    Definition.Overflows rendered.toList

theorem compile_cases (registry : Registry) (s : Setting) (source : List Char) (σ : Session) :
    let outcome := ((compile registry s (String.ofList source)).runIn σ).1
    (Tame outcome ∧ ¬ Overflowing registry s source σ) ∨
    (outcome = .error .overflow ∧ Overflowing registry s source σ) := by
  simp only [compile, Overflowing]
  rcases render_cases registry s (String.ofList source) σ with ⟨rendered, τ, hr⟩ | ⟨f, τ, hr⟩
  · rw [Work.runIn_bind_ok hr, hr]
    simp only [Except.ok.injEq, exists_eq_left']
    rcases settle_cases registry s rendered τ with h | ⟨h, ho⟩
    · exact .inl h
    · exact .inr ⟨congrArg Prod.fst h, ho⟩
  · rw [Work.runIn_bind_error hr, hr]
    exact .inl ⟨.failure f, by simp⟩

/-- The ways in which a request may end: with a response that is due no earlier than it was asked for,
or with a failure that names the file of the definition. -/
inductive Disciplined (file? : Option Path) : Except Fault Response → Prop
  | response {r : Response} (h : 0 ≤ r.delay) : Disciplined file? (.ok r)
  | failure {f : Path} (h : file? = some f) (cause : Cause) :
      Disciplined file? (.error (.failure ⟨cause, some f.text⟩))

theorem not_disciplined_overflow (file? : Option Path) : ¬ Disciplined file? (.error .overflow) :=
  fun h => nomatch h

theorem compileFile_cases {s : Setting} {f : Path} {source : List Char}
    (hread : s.files.readText f = .ok source) (registry : Registry) (σ : Session) :
    let outcome := ((compileFile registry s f).runIn σ).1
    (Disciplined (some f) outcome ∧ ¬ Overflowing registry s source σ) ∨
    (outcome = .error .overflow ∧ Overflowing registry s source σ) := by
  simp only [compileFile, hread, Work.runIn_bind, Work.runIn_ofExcept, Work.runIn_tryCatch]
  rcases compile_cases registry s source σ with ⟨ht, hn⟩ | ⟨he, ho⟩
  · refine .inl ⟨?_, hn⟩
    rcases hc : (compile registry s (String.ofList source)).runIn σ with ⟨x | r, τ⟩
    · rw [hc] at ht
      cases ht with
      | failure g => exact .failure rfl g.cause
    · rw [hc] at ht
      cases ht with
      | response h => exact .response h
  · refine .inr ⟨?_, ho⟩
    rcases hc : (compile registry s (String.ofList source)).runIn σ with ⟨x | r, τ⟩
    · rw [hc] at he
      cases he
      rfl
    · rw [hc] at he
      cases he

/-- A path whose last name is that of a definition. -/
def Path.IsMock (p : Path) : Prop := ∃ before stem, p.names = before ++ [stem ++ ".mock"]

/-- Every file with the name of a definition holds text. -/
def FileTree.MocksDecode (t : FileTree) : Prop :=
  ∀ p content, p.IsMock → t.find p = .node (.file content) → Text.ofUtf8? content ≠ none

theorem Path.join_isMock (d : Path) (stem : String) : (d.join (stem ++ ".mock")).IsMock := by
  have hslash : '/' ∉ ".mock".toList := by decide
  obtain ⟨init, p, hs⟩ := Text.splitAt_append_of_not_mem hslash stem.toList
  have hk : isKept (p ++ ".mock".toList) = true := by
    cases p with
    | nil => rfl
    | cons c r => cases r <;> simp [isKept]
  have hn : namesOf (stem ++ ".mock") =
      (init.filter isKept).map String.ofList ++ [String.ofList p ++ ".mock"] := by
    have hl : String.ofList (p ++ ".mock".toList) = String.ofList p ++ ".mock" := by simp
    rw [namesOf, String.toList_append, hs, List.filter_append, List.map_append, List.filter_cons,
      if_pos hk, ← hl]
    rfl
  rw [join, ofString]
  split
  · exact ⟨_, _, hn⟩
  · exact ⟨d.names ++ (init.filter isKept).map String.ofList, String.ofList p, by simp [hn]⟩

namespace Engine
open Resolution

theorem isMock_of_definition? {t : FileTree} {root f : Path} {path method : String}
    (h : definition? t root path method = .ok (some f)) : f.IsMock := by
  obtain ⟨-, hf | rfl⟩ := definition?_eq_some h
  · obtain ⟨d, -, rfl⟩ := definitionFile_eq_ok hf
    exact Path.join_isMock d _
  · exact Path.join_isMock (root.join wildcardName) "GET"

/-- The definition of a request is text. -/
theorem readText_of_definition? {t : FileTree} (hd : t.MocksDecode) {root f : Path}
    {path method : String} (h : definition? t root path method = .ok (some f)) :
    ∃ source, t.readText f = .ok source := by
  obtain ⟨content, hc⟩ := isFile_eq_true (definition?_eq_some h).1
  obtain ⟨source, hs⟩ := Option.ne_none_iff_exists'.1 (hd f content (isMock_of_definition? h) hc)
  exact ⟨Text.unifyNewlines source, by simp [FileTree.readText, FileTree.read, hc, hs, bind, Except.bind]⟩

/-- A request overflows: its definition renders to a text with a delay or a status without end. -/
def Overflows (registry : Registry) (root : Path) (s : Setting) (σ : Session) : Prop :=
  ∃ f source, definition? s.files root s.request.path s.request.method = .ok (some f) ∧
    s.files.readText f = .ok source ∧ Overflowing registry s source σ

/-- A tree with nothing in it but a definition. -/
def loneTree (definition : String) : FileTree :=
  ⟨.directory [("GET.mock", .file definition.toUTF8.toList)], ⟨true, []⟩⟩

theorem find_loneTree {definition : String} {p : Path} {content : List UInt8}
    (h : (loneTree definition).find p = .node (.file content)) :
    content = definition.toUTF8.toList := by
  have hnode : ∀ {names x above}, FileTree.Descent (loneTree definition).root names x above →
      x = (loneTree definition).root ∨ x = .file definition.toUTF8.toList := by
    intro names x above hd
    induction hd with
    | top => exact .inl rfl
    | @down _ entries _ n x _ _ _ hx ih =>
      rcases ih with ih | ih
      · cases ih
        simp only [FileNode.child?] at hx
        split at hx
        · exact .inr (Option.some.inj hx).symm
        · cases hx
      · cases ih
  obtain ⟨above, hd⟩ := FileTree.Descent.of_walk .top (FileTree.walk_of_find h)
  rcases hnode hd with hc | hc
  · cases hc
  · exact FileNode.file.inj hc

end Engine
end MockTree
