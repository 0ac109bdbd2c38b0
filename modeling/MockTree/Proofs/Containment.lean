import Mathlib.Data.List.Basic
import MockTree.Engine
import MockTree.Server.Route
import MockTree.Proofs.Path
import MockTree.Proofs.Work

/-! Where the definition of a request lies. The walk along the segments of a request goes down one
name at a time and can end on a double dot only where it stops, so a definition leaves the tree of
definitions in one case alone: the request opens with a double dot that no wildcard directory takes. -/
namespace MockTree
namespace Resolution

/-- Everything a step can do. -/
theorem step_cases {t : FileTree} {current : Path} {s : String} {st : Step}
    (h : step t current s = .ok st) :
    (isDots s = false ∧ st = .onward (current.join s)) ∨
    (t.hasPath (current.join wildcardName) = .ok true ∧ st = .onward (current.join wildcardName)) ∨
    (t.hasPath (current.join wildcardName) = .ok false ∧ st = .stop (current.join s)) := by
  have hw : ∀ {st}, (do
      if ← t.hasPath (current.join wildcardName) then pure (.onward (current.join wildcardName))
      else pure (.stop (current.join s)) : Except Fault Step) = .ok st →
      (t.hasPath (current.join wildcardName) = .ok true ∧ st = .onward (current.join wildcardName)) ∨
      (t.hasPath (current.join wildcardName) = .ok false ∧ st = .stop (current.join s)) := by
    intro st h
    cases hp : t.hasPath (current.join wildcardName) with
    | error f => rw [hp] at h; cases h
    | ok b =>
      rw [hp] at h
      cases b <;> cases h <;> simp
  rw [step] at h
  cases hd : t.isDirectory (current.join s) with
  | error f => rw [hd] at h; cases h
  | ok b =>
    rw [hd] at h
    cases hs : isDots s with
    | true => rw [hs] at h; exact .inr (hw h)
    | false =>
      rw [hs] at h
      cases b with
      | true => cases h; exact .inl ⟨rfl, rfl⟩
      | false => exact .inr (hw h)

attribute [local irreducible] step in
theorem follow_cons (t : FileTree) (current : Path) (s : String) (r : List String) :
    follow t current (s :: r) =
      match step t current s with
      | .ok (.onward p) => follow t p r
      | .ok (.stop p) => .ok p
      | .error f => .error f := rfl

/-- What a walk from a directory comes to: names below it, none of them a double dot, and perhaps a
double dot at the very end; only at the very start, so turning, can that one leave the directory. -/
structure Trail (current d : Path) (turning : Prop) : Prop where
  absolute : d.absolute = current.absolute
  names : ∃ more, ".." ∉ more ∧ (d.names = current.names ++ more ∨
    d.names = current.names ++ more ++ [".."] ∧ (more = [] → turning))

/-- A walk that has gone down a name no longer turns at the start. -/
theorem Trail.up {current d : Path} {n : String} {turning : Prop} (hn : n ≠ "..")
    (h : Trail ⟨current.absolute, current.names ++ [n]⟩ d turning) (turning' : Prop) :
    Trail current d turning' := by
  obtain ⟨habs, more, hm, hd⟩ := h
  refine ⟨habs, n :: more, by simp [hm, Ne.symm hn], ?_⟩
  rcases hd with hd | ⟨hd, -⟩
  · exact .inl (by simpa using hd)
  · exact .inr ⟨by simpa using hd, by simp⟩

/-- The walk opens with a double dot that no wildcard directory takes. -/
def Turns (t : FileTree) (current : Path) (segs : List String) : Prop :=
  segs.head? = some ".." ∧ t.hasPath (current.join wildcardName) = .ok false

theorem follow_trail {t : FileTree} {current d : Path} {segs : List String}
    (hs : ∀ s ∈ segs, IsName s) (h : follow t current segs = .ok d) :
    Trail current d (Turns t current segs) := by
  induction segs generalizing current with
  | nil => cases h; exact ⟨rfl, [], by simp, .inl (by simp)⟩
  | cons s r ih =>
    have hname := hs s (by simp)
    have hr : ∀ x ∈ r, IsName x := fun x hx => hs x (by simp [hx])
    cases hst : step t current s with
    | error f => rw [follow_cons, hst] at h; cases h
    | ok st =>
      rw [follow_cons, hst] at h
      rcases step_cases hst with ⟨hdots, rfl⟩ | ⟨-, rfl⟩ | ⟨hw, rfl⟩
      · simp only [isDots, Bool.or_eq_false_iff, beq_eq_false_iff_ne] at hdots
        have ht := ih hr h
        rw [Path.join_name hname hdots.1] at ht
        exact ht.up hdots.2 _
      · have ht := ih hr h
        rw [Path.join_name isName_wildcardName (by decide)] at ht
        exact ht.up (by decide) _
      · cases h
        rw [Path.join_of_isName hname]
        refine ⟨rfl, ?_⟩
        by_cases hdot : s = "."
        · exact ⟨[], by simp, .inl (by simp [hdot])⟩
        · by_cases hdots : s = ".."
          · exact ⟨[], by simp, .inr ⟨by simp [hdots], fun _ => ⟨by simp [hdots], hw⟩⟩⟩
          · exact ⟨[s], by simp [Ne.symm hdots], .inl (by simp [hdot])⟩

/-- A walk comes out above the directory it set out from just when it turns at the start. -/
theorem follow_turns_iff {t : FileTree} {current d : Path} {segs : List String}
    (hs : ∀ s ∈ segs, IsName s) (h : follow t current segs = .ok d) :
    d.names = current.names ++ [".."] ↔ Turns t current segs := by
  constructor
  · intro hd
    obtain ⟨-, more, hm, hd' | ⟨hd', ht⟩⟩ := follow_trail hs h
    · have he : more = [".."] := List.append_cancel_left (hd'.symm.trans hd)
      exact absurd (by simp [he]) hm
    · rw [hd, List.append_assoc] at hd'
      have he := List.append_cancel_left hd'
      exact ht (by simpa using he)
  · rintro ⟨hhead, hw⟩
    obtain ⟨r, rfl⟩ : ∃ r, segs = ".." :: r := by
      cases segs with
      | nil => cases hhead
      | cons s r => exact ⟨r, by simpa using hhead⟩
    cases hst : step t current ".." with
    | error f => rw [follow_cons, hst] at h; cases h
    | ok st =>
      rw [follow_cons, hst] at h
      rcases step_cases hst with ⟨hdots, rfl⟩ | ⟨hw', rfl⟩ | ⟨-, rfl⟩
      · exact absurd hdots (by decide)
      · rw [hw] at hw'; cases hw'
      · cases h
        rw [Path.join_of_isName (hs ".." (by simp))]
        simp

end Resolution

/-- A file in the directory a walk comes to is below the directory it set out from, unless the walk
came out above it. -/
theorem Resolution.Trail.below_iff {root d : Path} {turning : Prop} (h : Trail root d turning)
    (ha : root.absolute = true) (hr : ".." ∉ root.names) {m : String} (hm : IsName m) (h1 : m ≠ ".")
    (h2 : m ≠ "..") (w : Path) :
    root.Below ((d.join m).resolve w) ↔ ¬ (root.names ≠ [] ∧ d.names = root.names ++ [".."]) := by
  obtain ⟨habs, more, hmore, hd⟩ := h
  have hj : d.join m = ⟨true, d.names ++ [m]⟩ := by rw [Path.join_name hm h1, habs, ha]
  have hrm : ".." ∉ root.names ++ more := by simp [hr, hmore]
  rcases hd with hd | ⟨hd, -⟩
  · have hres : ((d.join m).resolve w).names = root.names ++ (more ++ [m]) := by
      rw [hj, hd, ← List.append_assoc]
      exact Path.resolve_of_no_dots rfl (by simp [hr, hmore, Ne.symm h2]) w
    obtain ⟨x, y, hxy⟩ := List.exists_cons_of_ne_nil (show more ++ [m] ≠ [] by simp)
    refine iff_of_true (Path.below_of_names (hxy ▸ hres)) ?_
    rintro ⟨-, e⟩
    rw [hd] at e
    exact hmore (by simp [List.append_cancel_left e])
  · have hres : ((d.join m).resolve w).names = (root.names ++ more).dropLast ++ [m] := by
      rw [hj, hd]
      exact Path.resolve_up rfl hrm (by simpa using Ne.symm h2) (by simp) w
    cases more with
    | nil =>
      rw [List.append_nil] at hres
      cases hn : root.names with
      | nil => exact iff_of_true (Path.below_of_names (by rw [hres, hn]; rfl)) (by simp)
      | cons a l =>
        refine iff_of_false ?_ (by simp [hd, hn])
        rintro ⟨-, hlen⟩
        rw [hres] at hlen
        simp [hn] at hlen
    | cons n r =>
      rw [List.dropLast_append_of_ne_nil (by simp), List.append_assoc] at hres
      obtain ⟨x, y, hxy⟩ := List.exists_cons_of_ne_nil
        (show (n :: r).dropLast ++ [m] ≠ [] by simp)
      refine iff_of_true (Path.below_of_names (hxy ▸ hres)) ?_
      rintro ⟨-, e⟩
      rw [hd] at e
      simpa using congrArg List.length e

namespace Engine
open Resolution

/-- The request leaves the tree of definitions: it opens with a double dot that no wildcard directory
takes. The root of all files cannot be left. -/
def Escapes (t : FileTree) (root : Path) (path : String) : Prop :=
  root.names ≠ [] ∧ Turns t root (segments path)

/-- The definition that is worked out for a request, if there is one. -/
def definition? (t : FileTree) (root : Path) (path method : String) : Except Fault (Option Path) := do
  let file ← definitionFile t root path method
  if ← t.isFile file then pure (some file)
  else if ← t.isFile (fallbackFile root) then pure (some (fallbackFile root))
  else pure none

theorem definition?_eq (t : FileTree) (root : Path) (path method : String) :
    definition? t root path method =
      match definitionFile t root path method with
      | .error e => .error e
      | .ok file =>
        match t.isFile file with
        | .error e => .error e
        | .ok true => .ok (some file)
        | .ok false =>
          (t.isFile (fallbackFile root)).map fun b => if b then some (fallbackFile root) else none := by
  rw [definition?]
  cases definitionFile t root path method with
  | error e => rfl
  | ok file =>
    simp only [bind, Except.bind, pure, Except.pure]
    rcases t.isFile file with e | _ | _
    · rfl
    · rcases t.isFile (fallbackFile root) with e | _ | _ <;> rfl
    · rfl

theorem fallback_runIn (registry : Registry) (root : Path) (s : Setting) (σ : Session) :
    (fallback registry root s).runIn σ =
      match s.files.isFile (fallbackFile root) with
      | .ok true => (compileFile registry s (fallbackFile root)).runIn σ
      | .ok false => (.ok .notFound, σ)
      | .error e => (.error e, σ) := by
  rw [fallback, Work.runIn_bind, Work.runIn_ofExcept]
  rcases s.files.isFile (fallbackFile root) with e | _ | _ <;> rfl

/-- A request is answered by the definition found for it, without one by the fixed response. -/
theorem respond_runIn (registry : Registry) (root : Path) (s : Setting) (σ : Session) :
    (respond registry root s).runIn σ =
      match definition? s.files root s.request.path s.request.method with
      | .ok (some f) => (compileFile registry s f).runIn σ
      | .ok none => (.ok .notFound, σ)
      | .error e => (.error e, σ) := by
  rw [respond, definition?_eq, Work.runIn_bind, Work.runIn_ofExcept]
  cases definitionFile s.files root s.request.path s.request.method with
  | error e => rfl
  | ok file =>
    simp only [Work.runIn_bind, Work.runIn_ofExcept]
    rcases s.files.isFile file with e | _ | _
    · rfl
    · change (fallback registry root s).runIn σ = _
      rw [fallback_runIn]
      rcases s.files.isFile (fallbackFile root) with e | _ | _ <;> rfl
    · rfl

/-- The file of a definition is named by one name, which is no dots. -/
theorem definitionName_of_method {method : String} (h : method ∈ Route.methods) :
    IsName (definitionName method) ∧ definitionName method ≠ "." ∧ definitionName method ≠ ".." := by
  have hall : ∀ m ∈ Route.methods,
      IsName (definitionName m) ∧ definitionName m ≠ "." ∧ definitionName m ≠ ".." := by decide +kernel
  exact hall method h

/-- The directory of a request, and its definition as a file in it. -/
theorem definitionFile_eq_ok {t : FileTree} {root f : Path} {path method : String}
    (h : definitionFile t root path method = .ok f) :
    ∃ d, follow t root (segments path) = .ok d ∧ f = d.join (definitionName method) := by
  rw [definitionFile, directory] at h
  cases hd : follow t root (segments path) with
  | error e => simp [hd, Except.map] at h
  | ok d => exact ⟨d, rfl, by simpa [hd, Except.map] using h.symm⟩

theorem definitionFile_below_iff {t : FileTree} {root f : Path} {path method : String}
    (ha : root.absolute = true) (hr : ".." ∉ root.names) (hm : method ∈ Route.methods)
    (h : definitionFile t root path method = .ok f) :
    root.Below (t.resolve f) ↔ ¬ Escapes t root path := by
  obtain ⟨hname, h1, h2⟩ := definitionName_of_method hm
  have hs : ∀ s ∈ segments path, IsName s := fun s => isName_of_mem_segments
  obtain ⟨d, hd, rfl⟩ := definitionFile_eq_ok h
  rw [FileTree.resolve, (follow_trail hs hd).below_iff ha hr hname h1 h2, Escapes,
    follow_turns_iff hs hd]

theorem definitionFile_absolute {t : FileTree} {root f : Path} {path method : String}
    (ha : root.absolute = true) (hm : method ∈ Route.methods)
    (h : definitionFile t root path method = .ok f) : f.absolute = true := by
  obtain ⟨hname, h1, -⟩ := definitionName_of_method hm
  obtain ⟨d, hd, rfl⟩ := definitionFile_eq_ok h
  rw [Path.join_name hname h1]
  exact (follow_trail (fun s => isName_of_mem_segments) hd).absolute.trans ha

theorem fallbackFile_eq {root : Path} (ha : root.absolute = true) :
    fallbackFile root = ⟨true, root.names ++ [wildcardName, "GET.mock"]⟩ := by
  rw [fallbackFile, Path.join_name isName_wildcardName (by decide),
    Path.join_name (by decide) (by decide), ha]
  simp

theorem fallbackFile_below {t : FileTree} {root : Path} (ha : root.absolute = true)
    (hr : ".." ∉ root.names) : root.Below (t.resolve (fallbackFile root)) := by
  have hw : wildcardName = "__" := rfl
  rw [FileTree.resolve, fallbackFile_eq ha]
  exact Path.below_of_names (Path.resolve_of_no_dots rfl (by simp [hr, hw]) _)

/-- The definition that is worked out is a file that is there: the request's own or the fallback. -/
theorem definition?_eq_some {t : FileTree} {root f : Path} {path method : String}
    (h : definition? t root path method = .ok (some f)) :
    t.isFile f = .ok true ∧
      (definitionFile t root path method = .ok f ∨ f = fallbackFile root) := by
  rw [definition?_eq] at h
  cases hd : definitionFile t root path method with
  | error e => rw [hd] at h; cases h
  | ok g =>
    simp only [hd] at h
    rcases hg : t.isFile g with e | _ | _
    · rw [hg] at h; cases h
    · rw [hg] at h
      rcases hb : t.isFile (fallbackFile root) with e | _ | _
      · rw [hb] at h; cases h
      · rw [hb] at h; cases h
      · rw [hb] at h
        cases h
        exact ⟨hb, .inr rfl⟩
    · rw [hg] at h
      cases h
      exact ⟨hg, .inl rfl⟩

theorem isFile_eq_true {t : FileTree} {f : Path} (h : t.isFile f = .ok true) :
    ∃ content, t.find f = .node (.file content) := by
  rw [FileTree.isFile] at h
  rcases hf : t.find f with (⟨content⟩ | _) | _ | _ | _ | _ <;> simp [hf, FileTree.Found.isFile] at h ⊢

/-- A definition beside the directory of definitions. -/
def besideTree : FileTree :=
  ⟨.directory [("m", .directory [("a", .directory [])]),
    ("GET.mock", .file "HTTP/1.1 200\n\nsecret".toUTF8.toList)], ⟨true, []⟩⟩

/-- For every tree, directory of definitions, path and method of the catch-all route: the file of the
definition is below that directory just when the request does not escape. So is what is worked out for
a request: a file that is there, found at its resolved form; and nothing else is worked out. -/
theorem definition_below_iff (registry : Registry) (s : Setting) (dir : Path)
    (hm : s.request.method ∈ Route.methods) :
    let root := s.files.resolve dir
    let path := s.request.path
    let method := s.request.method
    (∀ f, definitionFile s.files root path method = .ok f →
      (root.Below (s.files.resolve f) ↔ ¬ Escapes s.files root path)) ∧
    (∀ f, definitionFile s.files root path method = .ok f → s.files.isFile f = .ok true →
      definition? s.files root path method = .ok (some f)) ∧
    (∀ f, definition? s.files root path method = .ok (some f) →
      (¬ Escapes s.files root path → root.Below (s.files.resolve f)) ∧
      ∃ content, FileTree.walk s.files.root [] (s.files.resolve f).names = .node (.file content)) ∧
    ∀ σ, (respond registry root s).runIn σ =
      match definition? s.files root path method with
      | .ok (some f) => (compileFile registry s f).runIn σ
      | .ok none => (.ok .notFound, σ)
      | .error e => (.error e, σ) := by
  intro root path method
  have ha : root.absolute = true := rfl
  have hr : ".." ∉ root.names := Path.resolve_no_dots dir s.files.working
  refine ⟨fun f hf => definitionFile_below_iff ha hr hm hf, ?_, ?_,
    fun σ => respond_runIn registry root s σ⟩
  · intro f hf hthere
    rw [definition?_eq, hf]
    simp only [hthere]
  · intro f hf
    obtain ⟨hthere, hf⟩ := definition?_eq_some hf
    obtain ⟨content, hc⟩ := isFile_eq_true hthere
    rcases hf with hf | rfl
    · exact ⟨(definitionFile_below_iff ha hr hm hf).2, content,
        FileTree.walk_resolve (definitionFile_absolute ha hm hf) hc⟩
    · refine ⟨fun _ => fallbackFile_below ha hr, content, FileTree.walk_resolve ?_ hc⟩
      rw [fallbackFile_eq ha]

theorem definition_below_iff_down :
    let s := Setting.still besideTree (.simple "GET" "/a/../b")
    s.request.method ∈ Route.methods ∧
    definitionFile s.files ⟨true, ["m"]⟩ "/a/../b" "GET" = .ok ⟨true, ["m", "a", "..", "GET.mock"]⟩ ∧
    (⟨true, ["m"]⟩ : Path).Below (s.files.resolve ⟨true, ["m", "a", "..", "GET.mock"]⟩) := by
  intro s
  have hm : s.request.method ∈ Route.methods := by decide +kernel
  have hf : definitionFile s.files ⟨true, ["m"]⟩ "/a/../b" "GET" =
      .ok ⟨true, ["m", "a", "..", "GET.mock"]⟩ := by decide +kernel
  have h := (definition_below_iff [] s ⟨true, ["m"]⟩ hm).1
  refine ⟨hm, hf, (h _ hf).2 ?_⟩
  rintro ⟨-, hhead, -⟩
  exact absurd hhead (by decide +kernel)

/-- A request for the directory above gets the definition there. -/
theorem definition_outside :
    let s := Setting.still besideTree (.simple "GET" "/..")
    definitionFile s.files ⟨true, ["m"]⟩ "/.." "GET" = .ok ⟨true, ["m", "..", "GET.mock"]⟩ ∧
    ¬ (⟨true, ["m"]⟩ : Path).Below (s.files.resolve ⟨true, ["m", "..", "GET.mock"]⟩) ∧
    ((respond [] ⟨true, ["m"]⟩ s).runIn (.fresh true 1000 0)).1 =
      .ok ⟨200, [], "secret", none, 0, .template⟩ := by
  decide +kernel

end Engine
end MockTree
