import MockTree.Proofs.Accounts
import MockTree.Proofs.Containment
import MockTree.Proofs.QueryLength

/-! What definitions see of the target of a request. The decoded path and the query are joined to an address and
read a second time. So a request is dealt with as it was asked just when nothing of its target is a mark or
dropped in the address. -/
namespace MockTree

namespace Target
open Text

/-- What is left of a text in an address. -/
def kept (s : List Char) : List Char := (s.filter fun c => !isDropped c).takeWhile (· != '#')

/-- A target that an address holds as it is. -/
structure Plain (t : Target) : Prop where
  path : ∀ c ∈ t.path, isPlain c = true
  query : ∀ c ∈ t.query, isDropped c = false ∧ c ≠ '#'

theorem isPlain_iff {c : Char} : isPlain c = true ↔ (isDropped c = false ∧ c ≠ '#') ∧ c ≠ '?' := by
  simp [isPlain]

theorem idle_of_isDropped {c : Char} (h : isDropped c = true) : Query.Idle c := by
  simp only [isDropped, Bool.or_eq_true, beq_iff_eq] at h
  rcases h with (rfl | rfl) | rfl <;> exact ⟨⟨by decide, by decide, by decide⟩, by decide, by decide, by decide⟩

theorem idle_mark : Query.Idle '#' := ⟨⟨by decide, by decide, by decide⟩, by decide, by decide, by decide⟩

/-- What is not kept of a query is missed when it is read. -/
theorem kept_eq_or_size_lt (s : List Char) : kept s = s ∨ Query.size (kept s) < Query.size s := by
  by_cases hdropped : ∃ c ∈ s, isDropped c = true
  · obtain ⟨c, hc, hdrop⟩ := hdropped
    obtain ⟨a, b, rfl⟩ := List.append_of_mem hc
    have hkept : kept (a ++ c :: b) = kept (a ++ b) := by simp [kept, hdrop]
    have hlt := (Query.size_idle (idle_of_isDropped hdrop) a b).1
    rw [hkept]
    rcases kept_eq_or_size_lt (a ++ b) with h | h
    · exact .inr (h.symm ▸ hlt)
    · exact .inr (Nat.lt_trans h hlt)
  · have hfilter : s.filter (fun c => !isDropped c) = s := by simpa using hdropped
    rw [kept, hfilter]
    by_cases hmark : '#' ∈ s
    · obtain ⟨a, b, rfl, ha⟩ := List.eq_append_cons_of_mem hmark
      have htake : (a ++ '#' :: b).takeWhile (· != '#') = a := by
        rw [List.takeWhile_append_of_pos (by simpa using fun c hc => ne_of_mem_of_not_mem hc ha)]
        simp
      rw [htake]
      exact .inr (Query.size_idle idle_mark a b).2
    · exact .inl (List.takeWhile_eq_self_iff.2 (by simpa using fun c hc => ne_of_mem_of_not_mem hc hmark))
termination_by s.length

theorem mem_kept {c : Char} {s : List Char} (h : c ∈ kept s) : isDropped c = false ∧ c ≠ '#' :=
  ⟨by simpa using (List.mem_filter.1 ((List.takeWhile_sublist _).subset h)).2, by simpa using List.mem_takeWhile_imp h⟩

theorem kept_append {a : List Char} (h : ∀ c ∈ a, isDropped c = false ∧ c ≠ '#') (s : List Char) :
    kept (a ++ s) = a ++ kept s := by
  have hfilter : a.filter (fun c => !isDropped c) = a :=
    List.filter_eq_self.2 fun c hc => by simp [(h c hc).1]
  rw [kept, List.filter_append, hfilter, List.takeWhile_append_of_pos fun c hc => by simp [(h c hc).2], kept]

theorem kept_eq_iff {s : List Char} : kept s = s ↔ ∀ c ∈ s, isDropped c = false ∧ c ≠ '#' := by
  constructor
  · intro h c hc
    exact mem_kept (h.symm ▸ hc)
  · intro h
    simpa [kept] using kept_append h []

/-- A query is read as it was written just when all of it is kept. -/
theorem read_kept_eq_iff {s : List Char} :
    Query.read (kept s) = Query.read s ↔ ∀ c ∈ s, isDropped c = false ∧ c ≠ '#' := by
  rw [← kept_eq_iff]
  refine ⟨fun h => ?_, fun h => by rw [h]⟩
  exact (kept_eq_or_size_lt s).resolve_right (Nat.lt_irrefl _ <| Query.size_eq_of_read_eq h ▸ ·)

theorem isPlain_of_mem_split {t : Target} {c : Char} (h : c ∈ t.split.path) : isPlain c = true :=
  isPlain_iff.2 ⟨mem_kept ((List.takeWhile_sublist _).subset h), by simpa using List.mem_takeWhile_imp h⟩

/-- A plain path is taken apart from what is kept of the query behind it. -/
theorem split_eq {t : Target} (h : ∀ c ∈ t.path, isPlain c = true) : t.split = ⟨t.path, kept t.query⟩ := by
  have haddress : t.address = t.path ++ kept (if t.query.isEmpty then [] else '?' :: t.query) :=
    kept_append (fun c hc => (isPlain_iff.1 (h c hc)).1) _
  have hmark : ∀ c ∈ t.path, (c != '?') = true := fun c hc => by simpa using (isPlain_iff.1 (h c hc)).2
  rw [split, haddress, List.takeWhile_append_of_pos hmark, List.dropWhile_append_of_pos hmark]
  cases t.query with
  | nil => simp [kept]
  | cons c q =>
    have hquery : kept ('?' :: c :: q) = '?' :: kept (c :: q) :=
      kept_append (a := ['?']) (by simp [isDropped]) (c :: q)
    simp [hquery]

end Target

namespace Incoming

/-- Characters of the names and numbers of hosts and of their ports. -/
def isHostChar (c : Char) : Bool := c.isAlphanum || "-._:[]".toList.contains c

/-- The request names a host. -/
def NamesHost (r : Incoming) : Prop := r.host.toList ≠ [] ∧ ∀ c ∈ r.host.toList, isHostChar c = true

end Incoming

namespace Framework
variable {F : Framework} {r : Incoming} {q : Request}

/-- Where a host is named, a path in which nothing has a meaning in an address is written as it is. -/
def WritesPlain (F : Framework) : Prop :=
  ∀ r : Incoming, r.NamesHost → (∀ c ∈ r.target.path, Target.isPlain c = true) → F.written r = r.target.path

/-- The request can be taken up. -/
structure Accepts (F : Framework) (r : Incoming) : Prop where
  address : F.refusal? r = none
  body : Body.isTooDeep F.levels Body.maxBytes r.body = false

theorem usual_writesPlain : usual.WritesPlain := by
  intro r _ h
  change r.target.path.flatMap writeMark = _
  generalize r.target.path = path at h
  induction path with
  | nil => rfl
  | cons c path ih =>
    obtain ⟨⟨-, hnumber⟩, hmark⟩ := Target.isPlain_iff.1 (h c List.mem_cons_self)
    rw [List.flatMap_cons, ih fun c hc => h c (List.mem_cons_of_mem _ hc)]
    simp [writeMark, hnumber, hmark]

theorem request?_eq_ok (h : F.Accepts r) : F.request? r = .ok (F.taken r) := by
  rw [request?, h.address]
  simp [h.body]

theorem accepts_of_request? (h : F.request? r = .ok q) : F.Accepts r := by
  rw [request?] at h
  split at h
  · cases h
  · next haddress =>
    split at h
    · cases h
    · next hbody => exact ⟨haddress, by simpa using hbody⟩

theorem eq_taken (h : F.request? r = .ok q) : q = F.taken r := by
  rw [request?_eq_ok (accepts_of_request? h)] at h
  cases h
  rfl

/-- The path of a request is taken from an address, where nothing in it has a meaning. -/
theorem isPlain_of_mem_path {c : Char} (hc : c ∈ (F.taken r).path.toList) : Target.isPlain c = true := by
  rw [taken, Request.make] at hc
  split at hc
  · rw [String.toList_ofList] at hc
    exact Target.isPlain_of_mem_split hc
  · rw [String.toList_append] at hc
    rcases List.mem_append.1 hc with hc | hc
    · rw [List.mem_singleton.1 hc]
      decide
    · rw [String.toList_ofList] at hc
      exact Target.isPlain_of_mem_split hc

/-- A plain path from a slash on is seen as it is, with what is kept of the query. -/
theorem taken_of_plain (hwrites : F.WritesPlain) (hhost : r.NamesHost) (hslash : r.target.path.head? = some '/')
    (hpath : ∀ c ∈ r.target.path, Target.isPlain c = true) :
    (F.taken r).path = String.ofList r.target.path ∧
      (F.taken r).query = Query.read (Target.kept r.target.query) := by
  have hseen : F.seen r = ⟨r.target.path, Target.kept r.target.query⟩ := by
    rw [seen, hwrites r hhost hpath]
    exact Target.split_eq hpath
  rw [taken, hseen]
  exact ⟨by simp [Request.make, hslash], rfl⟩

end Framework

namespace Server
open Engine Resolution

/-- What a server makes of a definition that was found, or was not, for a setting. -/
def workedOut (registry : Registry) (s : Setting) (server : Server) : Except Fault (Option Path) → Except Fault Response
  | .ok (some f) => ((compileFile registry s f).runIn server.session).1
  | .ok none => .ok .notFound
  | .error e => .error e

theorem engineOutcome_eq (registry : Registry) (s : Setting) (server : Server) :
    server.engineOutcome registry s =
      server.workedOut registry s (definition? s.files server.root s.request.path s.request.method) := by
  rw [engineOutcome, respond_runIn]
  rcases definition? s.files server.root s.request.path s.request.method with e | _ | f <;> rfl

/-- A request made of one that came in is as it was asked: it has the path and the query of the target, and what
is worked out for it is the definition for that path. -/
structure AsAsked (s : Setting) (r : Incoming) (q : Request) (server : Server) : Prop where
  path : q.path = String.ofList r.target.path
  query : q.query = Query.read r.target.query
  definition : ∀ registry, server.engineOutcome registry (server.settingFor s q) =
    server.workedOut registry (server.settingFor s q)
      (definition? s.files server.root (String.ofList r.target.path) q.method)

/-- In no framework a request is as it was asked if anything in its path has a meaning in an address. -/
theorem AsAsked.plain {s : Setting} {r : Incoming} {server : Server} {F : Framework}
    (h : AsAsked s r (F.taken r) server) : ∀ c ∈ r.target.path, Target.isPlain c = true := by
  intro c hc
  apply Framework.isPlain_of_mem_path (F := F) (r := r)
  rwa [h.path, String.toList_ofList]

/-- In a framework that writes plain paths as they are, for every request for a path from a slash on that names a
host: a request is made of it, as it was asked, just when it can be taken up and its target is plain. -/
theorem asAsked_iff (s : Setting) (r : Incoming) (server : Server) (hwrites : server.framework.WritesPlain)
    (hhost : r.NamesHost) (hslash : r.target.path.head? = some '/') :
    (∃ q, server.framework.request? r = .ok q ∧ AsAsked s r q server) ↔
      server.framework.Accepts r ∧ r.target.Plain := by
  constructor
  · rintro ⟨q, hq, h⟩
    obtain rfl := Framework.eq_taken hq
    have hpath := h.plain
    have hquery := (Framework.taken_of_plain hwrites hhost hslash hpath).2
    exact ⟨Framework.accepts_of_request? hq, hpath, Target.read_kept_eq_iff.1 (hquery.symm.trans h.query)⟩
  · rintro ⟨haccepts, hplain⟩
    obtain ⟨hpath, hquery⟩ := Framework.taken_of_plain hwrites hhost hslash hplain.path
    refine ⟨_, Framework.request?_eq_ok haccepts, hpath, ?_, fun registry => ?_⟩
    · rw [hquery, Target.read_kept_eq_iff.2 hplain.query]
    · rw [← hpath]
      exact engineOutcome_eq registry _ server

/-- Definitions for two paths, one of which starts like the other. -/
def twinTree : FileTree :=
  ⟨.directory [("a", .directory [("GET.mock", .file "HTTP/1.1 200\n\nwrong".toUTF8.toList)]),
    ("a?b", .directory [("GET.mock", .file "HTTP/1.1 200\n\nright".toUTF8.toList)])], ⟨true, []⟩⟩

theorem asAsked_iff_cafe :
    let s := Setting.still twinTree (.simple "GET" "/")
    let r := (knock "GET" "/caf%C3%A9%3B%20x?a=%23").2
    r.target = ⟨"/café; x".toList, "a=%23".toList⟩ ∧ newServer.framework.WritesPlain ∧ r.NamesHost ∧
      r.target.path.head? = some '/' ∧ ∃ q, newServer.framework.request? r = .ok q ∧ AsAsked s r q newServer := by
  intro s r
  have htarget : r.target = ⟨"/café; x".toList, "a=%23".toList⟩ := by decide +kernel
  have hwrites : newServer.framework.WritesPlain := Framework.usual_writesPlain
  have hhost : r.NamesHost := ⟨by decide, List.all_eq_true.1 (by decide +kernel)⟩
  have hslash : r.target.path.head? = some '/' := htarget ▸ rfl
  have haccepts : newServer.framework.Accepts r := by
    constructor <;> decide +kernel
  refine ⟨htarget, hwrites, hhost, hslash, (asAsked_iff s r newServer hwrites hhost hslash).2 ⟨haccepts, ?_⟩⟩
  rw [htarget]
  exact ⟨List.all_eq_true.1 (by decide), by simp [Target.isDropped]⟩

/-- A question mark that the client encoded is not one that definitions see, in whatever framework. -/
theorem not_asAsked_mark :
    let s := Setting.still twinTree (.simple "GET" "/")
    let r := (knock "GET" "/a%3Fb").2
    r.target = ⟨"/a?b".toList, []⟩ ∧
      definition? s.files newServer.root "/a?b" "GET" = .ok (some ⟨true, ["a?b", "GET.mock"]⟩) ∧
      (∃ q, newServer.framework.request? r = .ok q ∧ q.path = "/a%3Fb" ∧
        newServer.engineOutcome [] (newServer.settingFor s q) = .ok .notFound) ∧
      ∀ (F : Framework) (q : Request), F.request? r = .ok q → ¬ AsAsked s r q newServer := by
  intro s r
  have htarget : r.target = ⟨"/a?b".toList, []⟩ := by decide +kernel
  have haccepts : newServer.framework.Accepts r := by
    constructor <;> decide +kernel
  refine ⟨htarget, by decide +kernel, ⟨_, Framework.request?_eq_ok haccepts, ?_, ?_⟩, fun F q hq h => ?_⟩
  · decide +kernel
  · decide +kernel
  · obtain rfl := Framework.eq_taken hq
    have hplain := h.plain '?' (by rw [htarget]; decide)
    cases hplain

end Server
end MockTree
