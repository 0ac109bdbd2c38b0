import MockTree.Engine
import MockTree.Proofs.Work

/-! An engine answers as if it had no history. What it keeps of earlier requests are templates, each the
one that its text reads as, so a computation comes to the same end with them as without them. -/
namespace MockTree
open Template

theorem Template.Cache.mem_of_find? {source : String} {nodes : List Node}
    {entries : List (String × List Node)} (h : Cache.find? source entries = some nodes) :
    (source, nodes) ∈ entries := by
  induction entries with
  | nil => cases h
  | cons e r ih =>
    rw [Cache.find?] at h
    split at h
    · next he =>
      cases h
      simp [← eq_of_beq he]
    · exact List.mem_cons_of_mem _ (ih h)

theorem Template.Cache.mem_of_mem_store {source : String} {nodes : List Node} {limit : Int} {c : Cache}
    {e : String × List Node} (h : e ∈ (c.store source nodes limit).entries) :
    e ∈ c.entries ∨ e = (source, nodes) := by
  rw [Cache.store] at h
  split at h
  · exact .inl h
  · rcases List.mem_append.1 h with h | h
    · split at h
      · exact .inl (List.mem_of_mem_tail h)
      · exact .inl h
    · exact .inr (List.mem_singleton.1 h)

/-- Every template that is kept is the one its text reads as; the limit is a number. -/
structure Session.Sound (σ : Session) : Prop where
  limit : ∃ n, σ.cache.limit = some n
  entries : ∀ source nodes, (source, nodes) ∈ σ.cache.entries →
    Grammar.read source.toList = .ok nodes

theorem Session.sound_fresh (enabled : Bool) (limit : Int) (draws : Nat) :
    (Session.fresh enabled limit draws).Sound :=
  ⟨⟨limit, rfl⟩, fun _ _ h => nomatch h⟩

/-- A sound session, and one that keeps nothing and is at the same draw. -/
structure Matches (σ τ : Session) : Prop where
  sound : σ.Sound
  disabled : τ.cache.enabled = false
  draws : σ.draws = τ.draws

/-- A computation that comes to the same end whether templates are kept or not. -/
def Transparent {α : Type} (w : Work α) : Prop :=
  ∀ σ τ, Matches σ τ → (w.runIn σ).1 = (w.runIn τ).1 ∧ Matches (w.runIn σ).2 (w.runIn τ).2

namespace Transparent
variable {α β : Type}

theorem pure (a : α) : Transparent (Pure.pure a : Work α) := fun _ _ h => ⟨rfl, h⟩

theorem raise (f : Fault) : Transparent (Work.raise f : Work α) := fun _ _ h => ⟨rfl, h⟩

theorem ofExcept (x : Except Fault α) : Transparent (MonadExcept.ofExcept x : Work α) := by
  intro σ τ h
  simpa using h

theorem ofRender (r : Render α) : Transparent (Work.ofRender r) := by
  intro σ τ h
  rw [Work.runIn_ofRender, Work.runIn_ofRender, h.draws]
  exact ⟨rfl, ⟨h.sound.limit, h.sound.entries⟩, h.disabled, rfl⟩

theorem bind {w : Work α} {k : α → Work β} (hw : Transparent w) (hk : ∀ a, Transparent (k a)) :
    Transparent (w >>= k) := by
  intro σ τ h
  obtain ⟨he, hm⟩ := hw σ τ h
  rw [Work.runIn_bind, Work.runIn_bind]
  generalize w.runIn σ = p at he hm ⊢
  generalize w.runIn τ = q at he hm ⊢
  rcases p with ⟨x | a, σ'⟩ <;> rcases q with ⟨y | b, τ'⟩ <;> cases he
  · exact ⟨rfl, hm⟩
  · exact hk a σ' τ' hm

theorem tryCatch {w : Work α} {k : Fault → Work α} (hw : Transparent w)
    (hk : ∀ f, Transparent (k f)) : Transparent (MonadExcept.tryCatch w k) := by
  intro σ τ h
  obtain ⟨he, hm⟩ := hw σ τ h
  rw [Work.runIn_tryCatch, Work.runIn_tryCatch]
  generalize w.runIn σ = p at he hm ⊢
  generalize w.runIn τ = q at he hm ⊢
  rcases p with ⟨x | a, σ'⟩ <;> rcases q with ⟨y | b, τ'⟩ <;> cases he
  · exact hk x σ' τ' hm
  · exact ⟨rfl, hm⟩

end Transparent

theorem readTemplate_runIn (source : String) (σ : Session) :
    (readTemplate source).runIn σ =
      match Grammar.read source.toList with
      | .ok nodes => (.ok nodes, σ)
      | .error flaw => (.error (reportOf flaw), σ) := by
  rw [readTemplate]
  cases Grammar.read source.toList <;> rfl

/-- A template is what its text reads as, whether it was kept or not, and what is kept stays sound. -/
theorem templateOf_runIn {σ : Session} (h : σ.Sound) (source : String) :
    ((templateOf source).runIn σ).1 = ((readTemplate source).runIn σ).1 ∧
    ((templateOf source).runIn σ).2.Sound ∧
    ((templateOf source).runIn σ).2.draws = σ.draws := by
  obtain ⟨⟨limit, hl⟩, hent⟩ := h
  rw [templateOf, Work.runIn_bind_ok (Work.runIn_get σ), readTemplate_runIn]
  by_cases he : σ.cache.enabled = true
  · rw [if_neg (by simp [he])]
    cases hf : Cache.find? source σ.cache.entries with
    | some nodes =>
      have hread := hent source nodes (Cache.mem_of_find? hf)
      rw [hread]
      exact ⟨rfl, ⟨⟨limit, hl⟩, hent⟩, rfl⟩
    | none =>
      simp only [Work.runIn_bind, Work.runIn_modifyCache, readTemplate_runIn, hl]
      cases hread : Grammar.read source.toList with
      | error flaw => exact ⟨rfl, ⟨⟨limit, hl⟩, hent⟩, rfl⟩
      | ok nodes =>
        refine ⟨rfl, ⟨⟨limit, ?_⟩, ?_⟩, rfl⟩
        · simp only [Work.runIn_pure, Cache.store, Cache.countMiss]
          split <;> exact hl
        · intro text kept hk
          rcases Cache.mem_of_mem_store hk with hk | hk
          · exact hent text kept hk
          · cases hk
            exact hread
  · rw [if_pos (by simp [he]), readTemplate_runIn]
    cases Grammar.read source.toList <;> exact ⟨rfl, ⟨⟨limit, hl⟩, hent⟩, rfl⟩

theorem templateOf_transparent (source : String) : Transparent (templateOf source) := by
  intro σ τ h
  have hplain : (templateOf source).runIn τ = (readTemplate source).runIn τ := by
    rw [templateOf, Work.runIn_bind_ok (Work.runIn_get τ), if_pos (by simp [h.disabled])]
  obtain ⟨he, hs, hd⟩ := templateOf_runIn h.sound source
  rw [hplain, he]
  rw [readTemplate_runIn, readTemplate_runIn]
  cases Grammar.read source.toList with
  | ok nodes => exact ⟨rfl, hs, h.disabled, hd.trans h.draws⟩
  | error flaw => exact ⟨rfl, hs, h.disabled, hd.trans h.draws⟩

theorem render_transparent (registry : Registry) (s : Setting) (source : String) :
    Transparent (render registry s source) := by
  refine .tryCatch ?_ fun f => .raise _
  refine .bind (templateOf_transparent source) fun nodes => ?_
  exact .bind (.ofRender _) fun text => .pure _

/-- A text that reads as nodes renders to what they print. -/
theorem render_of_read {registry : Registry} {s : Setting} {source text : List Char} {nodes : List Node}
    (hread : Grammar.read source = .ok nodes) (hprint : Template.print registry s nodes = pure text)
    {σ : Session} (hσ : σ.Sound) :
    ∃ τ, τ.Sound ∧ (render registry s (String.ofList source)).runIn σ = (.ok (String.ofList text), τ) := by
  obtain ⟨ht, hτ, -⟩ := templateOf_runIn hσ (String.ofList source)
  rw [readTemplate_runIn, String.toList_ofList, hread] at ht
  rcases hrun : (templateOf (String.ofList source)).runIn σ with ⟨x, τ⟩
  rw [hrun] at ht hτ
  cases ht
  rw [render, Work.runIn_tryCatch, Work.runIn_bind_ok hrun, hprint, Work.runIn_bind, Work.runIn_ofRender]
  exact ⟨_, hτ, rfl⟩

theorem settle_transparent (registry : Registry) (s : Setting) (rendered : String) :
    Transparent (settle registry s rendered) := by
  refine .bind (.ofExcept _) fun (r, body) => ?_
  simp only
  cases Definition.Content.of body with
  | override entries => exact .ofExcept _
  | file path => exact .pure _
  | template text => exact .bind (render_transparent registry s _) fun body => .pure _

theorem compile_transparent (registry : Registry) (s : Setting) (source : String) :
    Transparent (compile registry s source) :=
  .bind (render_transparent registry s source) (settle_transparent registry s)

theorem compileFile_transparent (registry : Registry) (s : Setting) (file : Path) :
    Transparent (compileFile registry s file) := by
  refine .bind (.ofExcept _) fun source => ?_
  exact .tryCatch (compile_transparent registry s _) fun f => .raise _

namespace Engine

theorem fallback_transparent (registry : Registry) (root : Path) (s : Setting) :
    Transparent (fallback registry root s) := by
  refine .bind (.ofExcept _) fun there => ?_
  cases there with
  | true => exact compileFile_transparent registry s _
  | false => exact .pure _

theorem respond_transparent (registry : Registry) (root : Path) (s : Setting) :
    Transparent (respond registry root s) := by
  refine .bind (.ofExcept _) fun file => .bind (.ofExcept _) fun there => ?_
  cases there with
  | true => exact compileFile_transparent registry s file
  | false => exact fallback_transparent registry root s

end Engine

/-- What can happen to an engine: the files change, the templates are dropped, or a request comes in
at some moment. -/
inductive Event
  | write (p : Path) (content : List UInt8)
  | remove (p : Path)
  | clear
  | ask (request : Request) (now : Calendar.Moment) (uuid : String)

/-- What stays the same while an engine runs: the directory of definitions and the directives, where
messages go, the random draws, and whether and how many templates are kept. -/
structure Host where
  registry : Registry
  root : Path
  sink : Sink
  draws : Nat → Nat
  enabled : Bool
  limit : Int

namespace Host

/-- How a request is answered from the files as they stand. -/
def answer (h : Host) (files : FileTree) (request : Request) (now : Calendar.Moment) (uuid : String) :
    Work Response :=
  Engine.respond h.registry h.root ⟨request, h.sink, now, uuid, h.draws, files⟩

/-- The outcomes of the requests among events, answered by one engine after another in one session. -/
def run (h : Host) : FileTree → Session → List Event → List (Except Fault Response)
  | _, _, [] => []
  | files, σ, .write p content :: r => h.run (files.write p content) σ r
  | files, σ, .remove p :: r => h.run (files.remove p) σ r
  | files, σ, .clear :: r => h.run files (clearTemplates.runIn σ).2 r
  | files, σ, .ask request now uuid :: r =>
    let (outcome, τ) := (h.answer files request now uuid).runIn σ
    outcome :: h.run files τ r

/-- The outcomes of the same requests, each answered by an engine of its own that keeps nothing. -/
def runAfresh (h : Host) : FileTree → Nat → List Event → List (Except Fault Response)
  | _, _, [] => []
  | files, n, .write p content :: r => h.runAfresh (files.write p content) n r
  | files, n, .remove p :: r => h.runAfresh (files.remove p) n r
  | files, n, .clear :: r => h.runAfresh files n r
  | files, n, .ask request now uuid :: r =>
    let (outcome, τ) := (h.answer files request now uuid).runIn (.fresh false h.limit n)
    outcome :: h.runAfresh files τ.draws r

theorem clearTemplates_sound {σ : Session} (h : σ.Sound) :
    (clearTemplates.runIn σ).2.Sound ∧ (clearTemplates.runIn σ).2.draws = σ.draws :=
  ⟨⟨h.limit, fun _ _ hm => nomatch hm⟩, rfl⟩

/-- From a sound session every run goes as if each request were the first. -/
theorem run_of_sound (h : Host) (events : List Event) (files : FileTree) {σ : Session} (hs : σ.Sound) :
    h.run files σ events = h.runAfresh files σ.draws events := by
  induction events generalizing files σ with
  | nil => rfl
  | cons e r ih =>
    cases e with
    | write p content => exact ih _ hs
    | remove p => exact ih _ hs
    | clear =>
      obtain ⟨hc, hd⟩ := clearTemplates_sound hs
      rw [run, runAfresh, ih files hc, hd]
    | ask request now uuid =>
      have hm : Matches σ (.fresh false h.limit σ.draws) := ⟨hs, rfl, rfl⟩
      obtain ⟨ho, hn⟩ := Engine.respond_transparent h.registry h.root
        ⟨request, h.sink, now, uuid, h.draws, files⟩ σ _ hm
      simp only [run, runAfresh, answer]
      rw [ho, ih files hn.sound, hn.draws]

/-- Whatever is written, removed, cleared and asked before it, a request comes to the same end as with
a fresh engine that keeps nothing, on the files as they stand and at the same draw. -/
theorem run_eq_runAfresh (h : Host) (files : FileTree) (draws : Nat) (events : List Event) :
    h.run files (.fresh h.enabled h.limit draws) events = h.runAfresh files draws events :=
  h.run_of_sound events files (Session.sound_fresh h.enabled h.limit draws)

end Host
end MockTree
