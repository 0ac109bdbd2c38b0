import Mathlib.Data.List.Induction
import MockTree.Directive.Standard
import MockTree.Proofs.Outcome
import MockTree.Proofs.Templates
import MockTree.Server.Handle

/-! The books of a server. Every request is an entry, and what a server tells of its requests is read off the
entries: the numbers count those since the last reset, the visits are the latest of all. -/
namespace MockTree

/-- How a request for the definitions ends, as far as the engine takes it: with a definition, with the
fallback, with a failure, or with a fault that nothing was prepared for, as when it cannot be taken up. -/
inductive Fate
  | served
  | fallback
  | failed
  | raised
  deriving DecidableEq, Repr

def Fate.of : Except Fault Response → Fate
  | .ok r => if r.origin = .default then .fallback else .served
  | .error (.failure _) => .failed
  | .error _ => .raised

/-- The visit of a request that an answer is made for: the report of a failure can always be made, a response
only if its headers can be sent. -/
def Visit.of? (r : Request) : Except Fault Response → Option Visit
  | .ok response =>
    match Reply.Draft.of response with
    | .ok _ => some ⟨r.method, r.path, response.origin.name, response.status⟩
    | .error _ => none
  | .error (.failure _) => some ⟨r.method, r.path, "error", 500⟩
  | .error _ => none

/-- One more request of a fate. -/
def Tally.count (t : Tally) : Fate → Tally
  | .served => { t with total := t.total + 1, served := t.served + 1 }
  | .fallback => { t with total := t.total + 1, fallback := t.fallback + 1 }
  | .failed => { t with total := t.total + 1, failed := t.failed + 1 }
  | .raised => { t with total := t.total + 1 }

namespace Server

/-- What a request is in the books. -/
inductive Entry
  | asked (fate : Fate) (seen : Option Visit)
  | reset
  | other
  deriving DecidableEq, Repr

namespace Entry

def isReset : Entry → Bool
  | .reset => true
  | _ => false

def fate? : Entry → Option Fate
  | .asked fate _ => some fate
  | _ => none

def visit? : Entry → Option Visit
  | .asked _ v => v
  | _ => none

/-- The fates of the requests for the definitions since the last reset. -/
def fates (es : List Entry) : List Fate := (es.rtakeWhile (!·.isReset)).filterMap fate?

/-- All visits, oldest first. -/
def visits (es : List Entry) : List Visit := es.filterMap visit?

theorem fates_concat_asked (es : List Entry) (fate : Fate) (v : Option Visit) :
    fates (es ++ [.asked fate v]) = fates es ++ [fate] := by
  rw [fates, List.rtakeWhile_concat_pos _ _ _ (by rfl), List.filterMap_append]
  rfl

theorem fates_concat_other (es : List Entry) : fates (es ++ [.other]) = fates es := by
  rw [fates, List.rtakeWhile_concat_pos _ _ _ (by rfl), List.filterMap_append]
  exact List.append_nil _

theorem fates_concat_reset (es : List Entry) : fates (es ++ [.reset]) = [] := by
  rw [fates, List.rtakeWhile_concat_neg _ _ _ (by decide)]
  rfl

theorem visits_concat (es : List Entry) (e : Entry) : visits (es ++ [e]) = visits es ++ e.visit?.toList := by
  rw [visits, List.filterMap_append]
  cases he : e.visit? <;> simp [visits, he]

end Entry

/-- What the engine of a server comes to for a setting. -/
def engineOutcome (registry : Registry) (s : Setting) (server : Server) : Except Fault Response :=
  ((Engine.respond registry server.root s).runIn server.session).1

/-- The setting that a server gives to the engine for a request. -/
def settingFor (s : Setting) (r : Request) (server : Server) : Setting :=
  { s with request := r, sink := server.sink }

def entry (registry : Registry) (s : Setting) (r : Incoming) (server : Server) : Entry :=
  match Route.find server.config r.method r.target.path with
  | .definitions =>
    match server.framework.request? r with
    | .ok request =>
      let outcome := server.engineOutcome registry (server.settingFor s request)
      .asked (.of outcome) (Visit.of? request outcome)
    | .error _ => .asked .raised none
  | .admin .reset => .reset
  | _ => .other

/-- A server and its books after one more request. -/
def serve (registry : Registry) (state : Server × List Entry) (x : Setting × Incoming) : Server × List Entry :=
  ((state.1.handle registry x.1 x.2).2, state.2 ++ [state.1.entry registry x.1 x.2])

/-- A server and its books after requests one after another, each with the surroundings of its moment. -/
def run (registry : Registry) (server : Server) (requests : List (Setting × Incoming)) :
    Server × List Entry :=
  requests.foldl (serve registry) (server, [])

/-- The visits with one more, if there is one; the oldest makes room if there are as many as the limit. -/
def pushed (limit : Int) (recent : List Visit) : Option Visit → List Visit
  | none => recent
  | some v => (if limit ≤ recent.length then recent.tail else recent) ++ [v]

/-- Where at least one visit is kept, another can always be. -/
theorem record_eq {s : Server} (h : 1 ≤ s.recentLimit) (v : Visit) :
    s.record v = .ok { s with recent := pushed s.recentLimit s.recent (some v) } := by
  rw [record, pushed]
  by_cases hfull : s.recentLimit ≤ s.recent.length
  · have hne : s.recent.isEmpty = false := by
      cases hr : s.recent with
      | nil =>
        rw [hr, List.length_nil] at hfull
        omega
      | cons _ _ => rfl
    rw [if_neg (by omega), hne, if_neg Bool.false_ne_true, if_pos hfull]
  · rw [if_pos (by omega), if_neg hfull]

theorem finish_server {s : Server} (h : 1 ≤ s.recentLimit) (files : FileTree) (r : Request) (kind : String)
    (status : Int) (waits : List Double) (draft : Reply.Draft) :
    (finish files r kind status waits draft s).2 =
      { s with recent := pushed s.recentLimit s.recent (some ⟨r.method, r.path, kind, status⟩) } := by
  rw [finish, record_eq h]
  simp only
  cases Reply.send files (r.method == "HEAD") draft <;> rfl

theorem countResponse_countRequest (r : Response) (s : Server) :
    countResponse r.origin s.countRequest = { s with tally := s.tally.count (.of (.ok r)) } := by
  cases h : r.origin <;> simp [Fate.of, h, countResponse, countRequest, Tally.count]

/-- An answer adds one to the numbers and, if it can be made, a visit to those that are kept. -/
theorem answer_server {server : Server} (h : 1 ≤ server.recentLimit) (registry : Registry) (s : Setting) :
    (server.countRequest.answer registry s).2 =
      { server with
        session := ((Engine.respond registry server.root s).runIn server.session).2
        tally := server.tally.count (.of (server.engineOutcome registry s))
        recent := pushed server.recentLimit server.recent
          (Visit.of? s.request (server.engineOutcome registry s)) } := by
  have hrun : StateT.run (ExceptT.run (Engine.respond registry server.countRequest.root s))
      server.countRequest.session = (Engine.respond registry server.root s).runIn server.session := rfl
  rw [engineOutcome, answer, hrun]
  rcases (Engine.respond registry server.root s).runIn server.session with ⟨f | response, τ⟩
  · cases f
    case failure f =>
      exact finish_server (s := countFailure { server.countRequest with session := τ }) h ..
    all_goals rfl
  · have hcount := countResponse_countRequest response { server with session := τ }
    have hmove : { server.countRequest with session := τ } = countRequest { server with session := τ } := rfl
    simp only [hmove, hcount, Visit.of?]
    cases Reply.Draft.of response with
    | error f => rfl
    | ok draft =>
      simp only
      rw [finish_server (s := { server with session := τ, tally := server.tally.count (.of (.ok response)) }) h]

/-- What a call does to a server: a reset zeroes the numbers, clearing drops the templates, and no other call
changes anything. -/
def afterCall (call : AdminCall) (s : Server) : Server :=
  match call with
  | .reset => { s with tally := .zero }
  | .clearCache => { s with session := { s.session with cache := s.session.cache.clear } }
  | _ => s

theorem handle_admin {server : Server} {r : Incoming} {call : AdminCall}
    (h : Route.find server.config r.method r.target.path = .admin call) (registry : Registry) (s : Setting) :
    (server.handle registry s r).2 = server.afterCall call := by
  have hcall : (server.administer s.files call r.target.query).2 = server.afterCall call := by
    cases call <;> rfl
  rw [handle, h]
  simp only
  generalize server.administer s.files call r.target.query = p at hcall ⊢
  rcases p with ⟨f | reply, after⟩ <;> exact hcall

/-- Everything that a request does to a server, by what it is in the books. -/
theorem handle_cases {server : Server} (h : 1 ≤ server.recentLimit) (registry : Registry) (s : Setting)
    (r : Incoming) :
    let after := (server.handle registry s r).2
    (∃ fate seen session, server.entry registry s r = .asked fate seen ∧
      after = { server with
        session := session
        tally := server.tally.count fate
        recent := pushed server.recentLimit server.recent seen }) ∨
    (server.entry registry s r = .reset ∧ after = { server with tally := .zero }) ∨
    (server.entry registry s r = .other ∧ ∃ session, after = { server with session := session }) := by
  intro after
  have hafter : after = (server.handle registry s r).2 := rfl
  cases hr : Route.find server.config r.method r.target.path with
  | definitions =>
    have hframework : server.countRequest.framework = server.framework := rfl
    rw [handle, hr] at hafter
    simp only [hframework] at hafter
    rw [hafter, entry, hr]
    cases server.framework.request? r with
    | ok q => exact .inl ⟨_, _, _, rfl, answer_server h registry (server.settingFor s q)⟩
    | error f => exact .inl ⟨.raised, none, server.session, rfl, rfl⟩
  | admin call =>
    rw [hafter, handle_admin hr, entry, hr]
    cases call
    case reset => exact .inr (.inl ⟨rfl, rfl⟩)
    case clearCache => exact .inr (.inr ⟨rfl, _, rfl⟩)
    all_goals exact .inr (.inr ⟨rfl, server.session, rfl⟩)
  | _ =>
    rw [handle, hr] at hafter
    rw [hafter, entry, hr]
    exact .inr (.inr ⟨rfl, server.session, rfl⟩)

/-- The books of a server are balanced: each number counts the requests of its fate since the last reset, and
the visits kept are the latest. -/
structure Balanced (most : Int) (es : List Entry) (s : Server) : Prop where
  limit : s.recentLimit = most
  total : s.tally.total = (Entry.fates es).length
  served : s.tally.served = (Entry.fates es).count .served
  fallback : s.tally.fallback = (Entry.fates es).count .fallback
  failed : s.tally.failed = (Entry.fates es).count .failed
  recent : s.recent = (Entry.visits es).rtake most.toNat

/-- Every request for the definitions has one of four fates. -/
theorem length_fates (fates : List Fate) :
    fates.length = fates.count .served + fates.count .fallback + fates.count .failed + fates.count .raised := by
  induction fates with
  | nil => rfl
  | cons f fates ih =>
    rw [List.length_cons, ih]
    cases f <;> simp <;> omega

namespace Balanced
variable {most : Int} {es : List Entry} {server : Server}

/-- A request for the definitions goes into the numbers and the visits. -/
theorem asked (h : Balanced most es server) (hmost : 1 ≤ most) (fate : Fate) (seen : Option Visit)
    (session : Session) :
    Balanced most (es ++ [.asked fate seen])
      { server with
        session := session
        tally := server.tally.count fate
        recent := pushed server.recentLimit server.recent seen } := by
  obtain ⟨hl, ht, hs, hd, hf, hr⟩ := h
  have hvisits : pushed server.recentLimit server.recent seen =
      (Entry.visits (es ++ [.asked fate seen])).rtake most.toNat := by
    rw [Entry.visits_concat, Entry.visit?, hl, hr]
    cases seen with
    | none => simp [pushed]
    | some v =>
      have hfull : most ≤ ((Entry.visits es).rtake most.toNat).length ↔
          most.toNat ≤ ((Entry.visits es).rtake most.toNat).length := by omega
      rw [Option.toList_some, rtake_concat (by omega), pushed]
      simp only [hfull]
  refine ⟨hl, ?_, ?_, ?_, ?_, hvisits⟩
  all_goals rw [Entry.fates_concat_asked]
  · rw [List.length_append, ← ht]
    cases fate <;> rfl
  · rw [List.count_append, ← hs]
    cases fate <;> rfl
  · rw [List.count_append, ← hd]
    cases fate <;> rfl
  · rw [List.count_append, ← hf]
    cases fate <;> rfl

/-- One more request. -/
theorem serve (h : Balanced most es server) (hmost : 1 ≤ most) (registry : Registry)
    (x : Setting × Incoming) :
    Balanced most (Server.serve registry (server, es) x).2 (Server.serve registry (server, es) x).1 := by
  rw [Server.serve]
  rcases handle_cases (h.limit ▸ hmost) registry x.1 x.2 with ⟨fate, seen, session, he, ha⟩ | ⟨he, ha⟩ |
    ⟨he, session, ha⟩
  · rw [he, ha]
    exact h.asked hmost fate seen session
  · rw [he, ha]
    have hfates := Entry.fates_concat_reset es
    refine ⟨h.limit, ?_, ?_, ?_, ?_, ?_⟩
    iterate 4 rw [hfates]; rfl
    rw [Entry.visits_concat]
    simpa [Entry.visit?] using h.recent
  · rw [he, ha]
    have hfates := Entry.fates_concat_other es
    refine ⟨h.limit, ?_, ?_, ?_, ?_, ?_⟩
    · rw [hfates]
      exact h.total
    · rw [hfates]
      exact h.served
    · rw [hfates]
      exact h.fallback
    · rw [hfates]
      exact h.failed
    · rw [Entry.visits_concat]
      simpa [Entry.visit?] using h.recent

theorem run (h : Balanced most [] server) (hmost : 1 ≤ most) (registry : Registry)
    (requests : List (Setting × Incoming)) :
    Balanced most (Server.run registry server requests).2 (Server.run registry server requests).1 := by
  induction requests using List.reverseRecOn with
  | nil => exact h
  | append_singleton requests x ih =>
    rw [Server.run, List.foldl_append]
    exact ih.serve hmost registry x

end Balanced

theorem exists_of_bind_eq_ok {α β : Type} {x : Except Fault α} {k : α → Except Fault β} {b : β}
    (h : (x >>= k) = .ok b) : ∃ a, x = .ok a ∧ k a = .ok b := by
  cases x with
  | error f => cases h
  | ok a => exact ⟨a, rfl, h⟩

/-- A server that has just been made has answered nothing. -/
theorem make_unasked {files : FileTree} {inherited : Nat} {config : Config} {server : Server}
    (h : make files inherited config = .ok server) : server.tally = .zero ∧ server.recent = [] := by
  rw [make] at h
  split at h
  · obtain ⟨directory, -, h⟩ := exists_of_bind_eq_ok h
    obtain ⟨there, -, h⟩ := exists_of_bind_eq_ok h
    cases there with
    | false => cases h
    | true =>
      simp only [Bool.not_true, Bool.false_eq_true, if_false] at h
      split at h
      · obtain ⟨level, -, h⟩ := exists_of_bind_eq_ok h
        obtain ⟨root, -, h⟩ := exists_of_bind_eq_ok h
        cases h
        exact ⟨rfl, rfl⟩
      · cases h
  · cases h

/-- After any requests to a new server that keeps at least one visit, whatever framework it runs in, the number
of all requests is that of the requests for the definitions since the last reset, and those were served, answered
by the fallback, failed or left by a fault, before the engine or in it; the visits kept are the latest of all. A
page of the framework changes nothing, nor does a call of the administration, but that a reset zeroes the numbers
and clearing drops the templates. -/
theorem accounts_after_requests (registry : Registry) {files : FileTree} {inherited : Nat} {config : Config}
    {server : Server} (hmake : make files inherited config = .ok server) (framework : Framework) {most : Int}
    (hmost : 1 ≤ most) (requests : List (Setting × Incoming)) :
    let state := run registry { server with framework := framework, recentLimit := most } requests
    let tally := state.1.tally
    let fates := Entry.fates state.2
    (tally.total = fates.length ∧
      tally.total = tally.served + tally.fallback + tally.failed + fates.count .raised) ∧
    (tally.served = fates.count .served ∧ tally.fallback = fates.count .fallback ∧
      tally.failed = fates.count .failed) ∧
    state.1.recent = (Entry.visits state.2).rtake most.toNat ∧
    (∀ s r call, Route.find state.1.config r.method r.target.path = .admin call →
      (state.1.handle registry s r).2 = state.1.afterCall call) ∧
    ∀ s r page, Route.find state.1.config r.method r.target.path = .page page →
      (state.1.handle registry s r).2 = state.1 := by
  intro state tally fates
  obtain ⟨htally, hrecent⟩ := make_unasked hmake
  have hstart : Balanced most [] { server with framework := framework, recentLimit := most } := by
    refine ⟨rfl, ?_, ?_, ?_, ?_, ?_⟩
    iterate 4 rw [htally]; rfl
    rw [hrecent]
    exact (List.rtake_nil _).symm
  have h : Balanced most state.2 state.1 := hstart.run hmost registry requests
  refine ⟨⟨h.total, ?_⟩, ⟨h.served, h.fallback, h.failed⟩, h.recent, ?_, ?_⟩
  · rw [h.total, h.served, h.fallback, h.failed]
    exact length_fates fates
  · intro s r call hroute
    exact handle_admin hroute registry s
  · intro s r page hroute
    rw [handle, hroute]

/-- A request to a server for examples. -/
def knock (method path : String) : Setting × Incoming :=
  (.still (Engine.loneTree "HTTP/1.1 200 OK\n\nhi") (.simple "GET" "/"),
    ⟨method, .read path.toList, "http", "1.1", [("host", "testserver")], []⟩)

/-- Like `knock "GET" "/"`, but the address cannot be taken apart. -/
def strayKnock : Setting × Incoming :=
  ((knock "GET" "/").1, { (knock "GET" "/").2 with headers := [("host", "[")] })

def knocks : List (Setting × Incoming) :=
  [knock "GET" "/", knock "POST" "/__admin__/reset", knock "PUT" "/x", knock "TRACE" "/", knock "GET" "/docs",
    strayKnock, knock "GET" "/"]

/-- A server that has just been made for the tree of those requests. -/
def newServer : Server :=
  ⟨.usual, { Config.usual with directory := .text "/" }, ⟨true, []⟩, ⟨sinkName, 20, 30⟩,
    ⟨.make true (some 1000), 0⟩, .zero, [], 100⟩

theorem accounts_after_knocks :
    make (Engine.loneTree "HTTP/1.1 200 OK\n\nhi") 30 newServer.config = .ok newServer ∧ (1 : Int) ≤ 2 ∧
      let state := run Directive.standard { newServer with framework := .usual, recentLimit := 2 } knocks
      (state.1.tally.total = 3 ∧ state.1.tally.served = 1 ∧ state.1.tally.fallback = 1 ∧
        state.1.tally.failed = 0 ∧ (Entry.fates state.2).count .raised = 1) ∧
      state.1.recent = [⟨"PUT", "/x", "default", 404⟩, ⟨"GET", "/", "template", 200⟩] := by
  have hmake : make (Engine.loneTree "HTTP/1.1 200 OK\n\nhi") 30 newServer.config = .ok newServer := by
    rfl
  have hmost : (1 : Int) ≤ 2 := by decide
  have hentries : (run Directive.standard { newServer with framework := .usual, recentLimit := 2 } knocks).2 =
      [.asked .served (some ⟨"GET", "/", "template", 200⟩), .reset,
        .asked .fallback (some ⟨"PUT", "/x", "default", 404⟩), .other, .other, .asked .raised none,
        .asked .served (some ⟨"GET", "/", "template", 200⟩)] := by
    decide +kernel
  obtain ⟨⟨ht, -⟩, ⟨hs, hd, hf⟩, hr, -⟩ :=
    accounts_after_requests Directive.standard hmake .usual hmost knocks
  have hraised : (Entry.fates (run Directive.standard { newServer with framework := .usual, recentLimit := 2 }
      knocks).2).count .raised = 1 := by
    rw [hentries]
    decide
  rw [hentries] at ht hs hd hf hr
  exact ⟨hmake, hmost, ⟨ht, hs, hd, hf, hraised⟩, hr⟩

end Server
end MockTree
