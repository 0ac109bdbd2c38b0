import Mathlib.Data.List.DropRight
import MockTree.Proofs.Grammar
import MockTree.Proofs.History

/-! The templates that are kept while definitions are worked out. Each look-up of a text finds its template,
or reads it and keeps it, so after any run the texts kept are the latest of those that were read since the
templates were last dropped. -/
namespace MockTree

section
variable {α : Type}

theorem length_rtake (xs : List α) (n : Nat) : (xs.rtake n).length = min n xs.length := by
  rw [List.rtake, List.length_drop]
  omega

/-- One more item: the oldest of the latest goes if there are as many as are kept. -/
theorem rtake_concat {n : Nat} (hn : 0 < n) (xs : List α) (x : α) :
    (xs ++ [x]).rtake n = (if n ≤ (xs.rtake n).length then (xs.rtake n).tail else xs.rtake n) ++ [x] := by
  obtain ⟨m, rfl⟩ := Nat.exists_eq_succ_of_ne_zero hn.ne'
  rw [Nat.succ_eq_add_one, List.rtake_concat_succ, length_rtake]
  split
  · next h =>
    have hdrop : xs.length - m = xs.length - (m + 1) + 1 := by omega
    rw [List.rtake, List.rtake, List.tail_drop, hdrop]
  · next h =>
    have hall : xs.length - m = 0 ∧ xs.length - (m + 1) = 0 := by omega
    rw [List.rtake, List.rtake, hall.1, hall.2]

end

open Template

namespace Template.Cache

theorem find?_eq_none {source : String} {entries : List (String × List Node)} :
    find? source entries = none ↔ source ∉ entries.map (·.1) := by
  induction entries with
  | nil => simp [find?]
  | cons e r ih =>
    rw [find?, List.map_cons, List.mem_cons, not_or, ← ih]
    by_cases h : e.1 = source
    · simp [h]
    · simp [h, Ne.symm h]

/-- A cache that keeps something keeps a new text last, and drops the first if it is full. -/
theorem keys_store {limit : Int} (hpos : 0 < limit) (source : String) (nodes : List Node) (c : Cache) :
    (c.store source nodes limit).keys =
      (if limit ≤ c.keys.length then c.keys.tail else c.keys) ++ [source] := by
  rw [store, if_neg (by omega), keys, keys, List.length_map, List.map_append]
  split
  · rw [List.map_tail]
    rfl
  · rfl

theorem store_of_nonpos {limit : Int} (h : limit ≤ 0) (source : String) (nodes : List Node) (c : Cache) :
    c.store source nodes limit = c :=
  if_pos h

/-- Keeping a template changes nothing but the entries. -/
theorem store_eq (source : String) (nodes : List Node) (limit : Int) (c : Cache) :
    ∃ entries, c.store source nodes limit = { c with entries := entries } := by
  rw [store]
  split
  · exact ⟨c.entries, rfl⟩
  · exact ⟨_, rfl⟩

end Template.Cache

/-- A text whose template is asked for, and the session it is asked in. -/
structure Lookup where
  session : Session
  source : String

/-- A text that reads as a template and has none kept yet. -/
def Lookup.isNew (l : Lookup) : Bool :=
  !l.session.cache.keys.contains l.source && (Grammar.read l.source.toList).isOk

/-- The texts whose templates are read and kept, in the order of their look-ups. -/
def insertions (ls : List Lookup) : List String := (ls.filter Lookup.isNew).map (·.source)

theorem insertions_concat (ls : List Lookup) (l : Lookup) :
    insertions (ls ++ [l]) = if l.isNew then insertions ls ++ [l.source] else insertions ls := by
  rw [insertions, List.filter_append, List.map_append]
  by_cases h : l.isNew = true
  · simp [insertions, h]
  · simp [insertions, h]

/-- Everything a look-up can do to the templates that are kept. -/
theorem templateOf_cases {σ : Session} {limit : Int} (hl : σ.cache.limit = some limit) (source : String) :
    let c := σ.cache
    let c' := ((templateOf source).runIn σ).2.cache
    (c.enabled = false ∧ c' = c) ∨
    (c.enabled = true ∧ source ∈ c.keys ∧ c' = c.countHit) ∨
    (c.enabled = true ∧ source ∉ c.keys ∧ (∃ flaw, Grammar.read source.toList = .error flaw) ∧
      c' = c.countMiss) ∨
    (c.enabled = true ∧ source ∉ c.keys ∧ ∃ nodes, Grammar.read source.toList = .ok nodes ∧
      c' = c.countMiss.store source nodes limit) := by
  intro c c'
  have hc' : c' = ((templateOf source).runIn σ).2.cache := rfl
  rw [templateOf, Work.runIn_bind_ok (Work.runIn_get σ)] at hc'
  by_cases he : σ.cache.enabled = true
  · rw [if_neg (by simp [he])] at hc'
    cases hf : Cache.find? source σ.cache.entries with
    | some nodes =>
      simp only [hf, Work.runIn_bind, Work.runIn_modifyCache, Work.runIn_pure] at hc'
      refine .inr (.inl ⟨he, ?_, hc'⟩)
      exact List.mem_map.2 ⟨_, Cache.mem_of_find? hf, rfl⟩
    | none =>
      have hn : source ∉ c.keys := Cache.find?_eq_none.1 hf
      simp only [hf, Work.runIn_bind, Work.runIn_modifyCache, readTemplate_runIn, hl] at hc'
      cases hr : Grammar.read source.toList with
      | error flaw =>
        rw [hr] at hc'
        exact .inr (.inr (.inl ⟨he, hn, ⟨flaw, rfl⟩, hc'⟩))
      | ok nodes =>
        rw [hr] at hc'
        exact .inr (.inr (.inr ⟨he, hn, nodes, rfl, hc'⟩))
  · rw [if_pos (by simp [he]), readTemplate_runIn] at hc'
    refine .inl ⟨by simpa using he, ?_⟩
    rw [hc']
    cases Grammar.read source.toList <;> rfl

/-- What is kept after look-ups in a row, where every text was dropped before the first: each template is the
one of its text, the texts are the latest that were read, and all look-ups were counted. -/
structure Template.Cache.Holds (keeps : Bool) (most : Int) (ls : List Lookup) (c : Cache) : Prop where
  enabled : c.enabled = keeps
  limit : c.limit = some most
  sound : ∀ source nodes, (source, nodes) ∈ c.entries → Grammar.read source.toList = .ok nodes
  nodup : c.keys.Nodup
  keys : c.keys = if keeps then (insertions ls).rtake most.toNat else []
  counts : c.hits + c.misses = if keeps then ls.length else 0

namespace Template.Cache.Holds
variable {keeps : Bool} {most : Int} {ls : List Lookup} {c c' : Cache} {l : Lookup}

theorem empty : Cache.Holds keeps most [] (.make keeps (some most)) := by
  refine ⟨rfl, rfl, ?_, List.nodup_nil, ?_, ?_⟩
  · intro source nodes hm
    cases hm
  · simp [Cache.make, Cache.keys, insertions]
  · simp [Cache.make]

theorem counts_concat (h : Cache.Holds true most ls c) (l : Lookup) :
    c.hits + c.misses + 1 = (ls ++ [l]).length := by
  rw [h.counts, if_pos rfl, List.length_append, List.length_singleton]

/-- A look-up that keeps no new text is counted, and that is all. -/
theorem counted (h : Cache.Holds true most ls c) (hold : l.isNew = false)
    (hc : c' = c.countHit ∨ c' = c.countMiss) : Cache.Holds true most (ls ++ [l]) c' := by
  have hkeys : c.keys = if true then (insertions (ls ++ [l])).rtake most.toNat else [] := by
    rw [insertions_concat, hold, if_neg Bool.false_ne_true]
    exact h.keys
  have hcounts := h.counts_concat l
  obtain rfl | rfl := hc
  · refine ⟨h.enabled, h.limit, h.sound, h.nodup, hkeys, ?_⟩
    rw [if_pos rfl, ← hcounts]
    show c.hits + 1 + c.misses = c.hits + c.misses + 1
    omega
  · refine ⟨h.enabled, h.limit, h.sound, h.nodup, hkeys, ?_⟩
    rw [if_pos rfl, ← hcounts]
    rfl

/-- A text that is new goes in behind the others. -/
theorem stored (h : Cache.Holds true most ls c) (hn : l.source ∉ c.keys) {nodes : List Node}
    (hr : Grammar.read l.source.toList = .ok nodes) (hnew : l.isNew = true) :
    Cache.Holds true most (ls ++ [l]) (c.countMiss.store l.source nodes most) := by
  obtain ⟨entries, hstore⟩ := Cache.store_eq l.source nodes most c.countMiss
  have hkeys : c.keys = (insertions ls).rtake most.toNat := by rw [h.keys, if_pos rfl]
  refine ⟨?_, ?_, ?_, ?_, ?_, ?_⟩
  · rw [hstore]
    exact h.enabled
  · rw [hstore]
    exact h.limit
  · intro source kept hk
    rcases Cache.mem_of_mem_store hk with hk | hk
    · exact h.sound source kept hk
    · cases hk
      exact hr
  · by_cases hpos : 0 < most
    · rw [Cache.keys_store hpos]
      have hsub : (if most ≤ c.keys.length then c.keys.tail else c.keys).Sublist c.keys := by
        split
        · exact List.tail_sublist _
        · exact List.Sublist.refl _
      apply List.nodup_append.2
      refine ⟨h.nodup.sublist hsub, by simp, ?_⟩
      intro a ha b hb he
      rw [List.mem_singleton.1 hb] at he
      exact hn (hsub.mem (he ▸ ha))
    · rw [Cache.store_of_nonpos (by omega)]
      exact h.nodup
  · rw [if_pos rfl, insertions_concat, if_pos hnew]
    by_cases hpos : 0 < most
    · have hfull : most ≤ c.keys.length ↔ most.toNat ≤ c.keys.length := by omega
      rw [rtake_concat (by omega), ← hkeys, Cache.keys_store hpos]
      simp only [← hfull]
      rfl
    · have hzero : most.toNat = 0 := by omega
      rw [hzero, List.rtake_zero] at hkeys ⊢
      rw [Cache.store_of_nonpos (by omega)]
      exact hkeys
  · rw [if_pos rfl, ← h.counts_concat l, hstore]
    rfl

/-- One more look-up. -/
theorem lookup {σ : Session} (h : Cache.Holds keeps most ls σ.cache) (source : String) :
    Cache.Holds keeps most (ls ++ [⟨σ, source⟩]) ((templateOf source).runIn σ).2.cache := by
  rcases templateOf_cases h.limit source with ⟨he, hc⟩ | ⟨he, hm, hc⟩ | ⟨he, hm, ⟨flaw, hr⟩, hc⟩ |
    ⟨he, hm, nodes, hr, hc⟩
  all_goals obtain rfl := he.symm.trans h.enabled
  case inl =>
    rw [hc]
    exact ⟨h.enabled, h.limit, h.sound, h.nodup, h.keys, h.counts⟩
  case inr.inl =>
    exact h.counted (by simp [Lookup.isNew, hm]) (.inl hc)
  case inr.inr.inl =>
    exact h.counted (by simp [Lookup.isNew, hr, Except.isOk, Except.toBool]) (.inr hc)
  case inr.inr.inr =>
    rw [hc]
    exact h.stored (l := ⟨σ, source⟩) hm hr (by simp [Lookup.isNew, hm, hr, Except.isOk, Except.toBool])

end Template.Cache.Holds

section
open Definition

/-- A rendering leaves what is kept as the look-up of its template did. -/
theorem render_cache (registry : Registry) (s : Setting) (source : String) (σ : Session) :
    ((render registry s source).runIn σ).2.cache = ((templateOf source).runIn σ).2.cache := by
  rw [render, Work.runIn_tryCatch, Work.runIn_bind]
  rcases (templateOf source).runIn σ with ⟨flaw | nodes, τ⟩
  · rfl
  · simp only [Work.runIn_bind, Work.runIn_ofRender]
    cases ((print registry s nodes).runAt τ.draws).1 <;> rfl

theorem clearTemplates_cache (σ : Session) : (clearTemplates.runIn σ).2.cache = σ.cache.clear := rfl

/-- The text of the body that is rendered once more, if the work on a definition comes to that. -/
def renderedBody? (registry : Registry) (s : Setting) (source : String) (σ : Session) : Option String :=
  match ((render registry s source).runIn σ).1 with
  | .error _ => none
  | .ok rendered =>
    match split rendered.toList with
    | .error _ => none
    | .ok (_, body) =>
      match Content.of body with
      | .template text => some (String.ofList text)
      | _ => none

/-- Working out a definition renders it, and then the body if there is one to render. -/
theorem compile_runs (registry : Registry) (s : Setting) (source : String) (σ : Session) :
    let outcome := (compile registry s source).runIn σ
    let τ := ((render registry s source).runIn σ).2
    (∃ (text : String) (head : Response), renderedBody? registry s source σ = some text ∧
      outcome = match (render registry s text).runIn τ with
        | (.ok body, υ) => (.ok { head with body := body, origin := .template }, υ)
        | (.error f, υ) => (.error f, υ)) ∨
    (renderedBody? registry s source σ = none ∧ outcome.2 = τ ∧
      ∀ r, outcome.1 = .ok r → r.origin ≠ .template) := by
  simp only [compile, Work.runIn_bind, renderedBody?]
  rcases (render registry s source).runIn σ with ⟨f | rendered, τ⟩
  · exact .inr ⟨rfl, rfl, by simp⟩
  · simp only [settle, Work.runIn_bind, Work.runIn_ofExcept]
    rcases split rendered.toList with f | ⟨head, body⟩
    · exact .inr ⟨rfl, rfl, by simp⟩
    · simp only
      cases Content.of body with
      | override entries =>
        refine .inr ⟨rfl, by simp only [Work.runIn_ofExcept], ?_⟩
        intro r hr
        rw [Work.runIn_ofExcept] at hr
        simp [applyOverride_origin hr]
      | file path =>
        refine .inr ⟨rfl, rfl, ?_⟩
        intro r hr
        cases hr
        simp
      | template text =>
        refine .inl ⟨_, head, rfl, ?_⟩
        simp only [Work.runIn_bind]
        rcases (render registry s (String.ofList text)).runIn τ with ⟨f | t, υ⟩ <;> rfl

theorem compile_session (registry : Registry) (s : Setting) (source : String) (σ : Session) :
    ((compile registry s source).runIn σ).2 =
      match renderedBody? registry s source σ with
      | some text => ((render registry s text).runIn ((render registry s source).runIn σ).2).2
      | none => ((render registry s source).runIn σ).2 := by
  rcases compile_runs registry s source σ with ⟨text, head, hb, hc⟩ | ⟨hb, hc, -⟩
  · rw [hb, hc]
    simp only
    rcases (render registry s text).runIn ((render registry s source).runIn σ).2 with ⟨f | t, υ⟩ <;> rfl
  · rw [hb, hc]

/-- A response comes of a body that was rendered once more just when it is the response of a template. -/
theorem renderedBody?_isSome {registry : Registry} {s : Setting} {source : String} {σ : Session} {r : Response}
    (h : ((compile registry s source).runIn σ).1 = .ok r) :
    (renderedBody? registry s source σ).isSome = true ↔ r.origin = .template := by
  rcases compile_runs registry s source σ with ⟨text, head, hb, hc⟩ | ⟨hb, -, hn⟩
  · rw [hc] at h
    rw [hb]
    refine iff_of_true rfl ?_
    rcases hr : (render registry s text).runIn ((render registry s source).runIn σ).2 with ⟨f | t, υ⟩
    · rw [hr] at h
      cases h
    · rw [hr] at h
      cases h
      rfl
  · rw [hb]
    exact iff_of_false (by simp) (hn r h)

/-- The look-ups of the work on a definition. -/
def compileLookups (registry : Registry) (s : Setting) (source : String) (σ : Session) : List Lookup :=
  ⟨σ, source⟩ :: ((renderedBody? registry s source σ).map fun text =>
    ⟨((render registry s source).runIn σ).2, text⟩).toList

end

/-- What a session can be asked for: to render a text, to work out a definition or that of a file, or to drop
its templates. -/
inductive Job
  | render (source : String)
  | compile (source : String)
  | compileFile (file : Path)
  | clear

namespace Job

/-- The session after a job, whether it failed or not. -/
def after (registry : Registry) (s : Setting) (σ : Session) : Job → Session
  | .render source => ((MockTree.render registry s source).runIn σ).2
  | .compile source => ((MockTree.compile registry s source).runIn σ).2
  | .compileFile file => ((MockTree.compileFile registry s file).runIn σ).2
  | .clear => (clearTemplates.runIn σ).2

/-- The templates a job asks for, in order. -/
def lookups (registry : Registry) (s : Setting) (σ : Session) : Job → List Lookup
  | .render source => [⟨σ, source⟩]
  | .compile source => compileLookups registry s source σ
  | .compileFile file =>
    match s.files.readText file with
    | .ok source => compileLookups registry s (String.ofList source) σ
    | .error _ => []
  | .clear => []

/-- A session and the look-ups since its templates were last dropped, after one more job. -/
def step (registry : Registry) (state : Session × List Lookup) (job : Setting × Job) : Session × List Lookup :=
  (job.2.after registry job.1 state.1,
    match job.2 with
    | .clear => []
    | j => state.2 ++ j.lookups registry job.1 state.1)

/-- A fresh session after jobs in a row, each in its own setting, and the look-ups since its templates were
last dropped. -/
def run (registry : Registry) (keeps : Bool) (most : Int) (draws : Nat) (jobs : List (Setting × Job)) :
    Session × List Lookup :=
  jobs.foldl (step registry) (.fresh keeps most draws, [])

end Job

namespace Template.Cache.Holds
variable {keeps : Bool} {most : Int} {ls : List Lookup} {σ : Session}

theorem render (h : Cache.Holds keeps most ls σ.cache) (registry : Registry) (s : Setting) (source : String) :
    Cache.Holds keeps most (ls ++ [⟨σ, source⟩]) ((MockTree.render registry s source).runIn σ).2.cache := by
  rw [render_cache]
  exact h.lookup source

theorem compile (h : Cache.Holds keeps most ls σ.cache) (registry : Registry) (s : Setting) (source : String) :
    Cache.Holds keeps most (ls ++ compileLookups registry s source σ)
      ((MockTree.compile registry s source).runIn σ).2.cache := by
  have hfirst := h.render registry s source
  rw [compile_session, compileLookups]
  cases renderedBody? registry s source σ with
  | none => exact hfirst
  | some text =>
    have hsecond := hfirst.render registry s text
    rw [List.append_assoc] at hsecond
    exact hsecond

/-- One more job. -/
theorem step (h : Cache.Holds keeps most ls σ.cache) (registry : Registry) (job : Setting × Job) :
    Cache.Holds keeps most (Job.step registry (σ, ls) job).2 (Job.step registry (σ, ls) job).1.cache := by
  obtain ⟨s, job⟩ := job
  cases job with
  | render source => exact h.render registry s source
  | compile source => exact h.compile registry s source
  | compileFile file =>
    simp only [Job.step, Job.after, Job.lookups, compileFile, Work.runIn_bind, Work.runIn_ofExcept]
    cases s.files.readText file with
    | error f => simpa using h
    | ok source =>
      have hc := h.compile registry s (String.ofList source)
      simp only [Work.runIn_tryCatch]
      generalize (MockTree.compile registry s (String.ofList source)).runIn σ = p at hc ⊢
      rcases p with ⟨f | r, τ⟩ <;> exact hc
  | clear =>
    rw [Job.step, Job.after, clearTemplates_cache, Cache.clear, h.enabled, h.limit]
    exact empty

theorem run (registry : Registry) (keeps : Bool) (most : Int) (draws : Nat) (jobs : List (Setting × Job)) :
    Cache.Holds keeps most (Job.run registry keeps most draws jobs).2
      (Job.run registry keeps most draws jobs).1.cache := by
  induction jobs using List.reverseRecOn with
  | nil => exact empty
  | append_singleton jobs job ih =>
    rw [Job.run, List.foldl_append]
    exact ih.step registry job

end Template.Cache.Holds

/-- After any jobs, those that failed included, every text kept is there once with the template it reads as. If
templates are kept, the texts are the latest that were read since all were dropped, as many as the limit allows,
and each look-up since then was counted; else there is nothing. Working out a definition takes a second look-up
just when its body is rendered once more. -/
theorem templates_after_jobs (registry : Registry) (keeps : Bool) (most : Int) (draws : Nat)
    (jobs : List (Setting × Job)) :
    let c := (Job.run registry keeps most draws jobs).1.cache
    let ls := (Job.run registry keeps most draws jobs).2
    c.keys.Nodup ∧ (c.keys.length : Int) ≤ max most 0 ∧
    (∀ source nodes, (source, nodes) ∈ c.entries → Grammar.read source.toList = .ok nodes) ∧
    (keeps = true → c.keys = (insertions ls).rtake most.toNat ∧ c.hits + c.misses = ls.length) ∧
    (keeps = false → c.entries = [] ∧ c.hits + c.misses = 0) ∧
    ∀ s source σ,
      let n := (compileLookups registry s source σ).length
      n = (if (renderedBody? registry s source σ).isSome then 2 else 1) ∧
      ∀ r, ((compile registry s source).runIn σ).1 = .ok r → (n = 2 ↔ r.origin = .template) := by
  intro c ls
  have h : c.Holds keeps most ls := .run registry keeps most draws jobs
  have hkeys := h.keys
  have hcounts := h.counts
  refine ⟨h.nodup, ?_, h.sound, ?_, ?_, ?_⟩
  · rw [hkeys]
    split
    · rw [length_rtake]
      omega
    · rw [List.length_nil]
      omega
  · rintro rfl
    exact ⟨hkeys, hcounts⟩
  · rintro rfl
    exact ⟨List.map_eq_nil_iff.1 hkeys, hcounts⟩
  · intro s source σ n
    have hn : n = if (renderedBody? registry s source σ).isSome then 2 else 1 := by
      show (compileLookups registry s source σ).length = _
      rw [compileLookups]
      cases renderedBody? registry s source σ <;> rfl
    refine ⟨hn, fun r hr => ?_⟩
    rw [← renderedBody?_isSome hr, hn]
    split <;> simp_all

end MockTree
