import MockTree.Directive.Standard
import MockTree.Proofs.FilledHead
import MockTree.Proofs.Outcome

/-! What a request cannot change. The lines of a head are read alike with whatever values in them, so
two requests that break no line get the same status, the same names of headers and the same delay; and
the same kind of response, if the body of neither is an override or the mark of a file. -/
namespace MockTree
open Text Template

namespace Definition

/-- A line that is read alike for two requests: the same line, or a header of one name. -/
inductive SameKind : Except Fault Line → Except Fault Line → Prop
  | same (x : Except Fault Line) : SameKind x x
  | header (name value value' : String) :
      SameKind (.ok (.header name value)) (.ok (.header name value'))

theorem Firm.sameKind {l : List Symbol} (h : Firm l) (q q' : List (String × Value)) :
    SameKind (Line.read (fill q l)) (Line.read (fill q' l)) := by
  rcases h with h | h
  · obtain ⟨s, hs⟩ := Option.isSome_iff_exists.1 h
    rw [eq_of_literal? hs, fill_chars, fill_chars]
    exact .same _
  · obtain ⟨name, hname, hfirm⟩ : ∃ name, beforeColon? l = some name ∧
        startsWith "HTTP".toList name = false ∧ trim name ≠ delayName := by
      obtain ⟨name, hname, hn⟩ := (Option.any_eq_true _ _).1 h
      rw [Bool.and_eq_true, Bool.not_eq_true', bne_iff_ne] at hn
      exact ⟨name, hname, hn⟩
    have hread : ∀ q, ∃ value, Line.read (fill q l) =
        .ok (.header (String.ofList (trim name)) (String.ofList (trim value))) := by
      intro q
      obtain ⟨hn, value, hv⟩ := fill_of_beforeColon? hname q
      have hs : startsWith "HTTP".toList (name ++ ':' :: value) = false := by
        rw [startsWith_append_of_not_mem (by decide), hfirm.1]
      refine ⟨value, ?_⟩
      rw [Line.read, hv, hs, if_neg Bool.false_ne_true, cut?_of_not_mem hn]
      exact if_neg (by simpa using hfirm.2)
    obtain ⟨v, hv⟩ := hread q
    obtain ⟨v', hv'⟩ := hread q'
    rw [hv, hv']
    exact .header _ _ _

/-- Two responses of one shape, with no file in either. -/
structure Alike (r r' : Response) : Prop where
  status : r.status = r'.status
  names : r.headers.map (·.1) = r'.headers.map (·.1)
  delay : r.delay = r'.delay
  file : r.file = none
  file' : r'.file = none

theorem SameKind.alike {line line' : Line} (h : SameKind (.ok line) (.ok line')) {r r' : Response}
    (hr : Alike r r') : Alike (line.apply r) (line'.apply r') := by
  obtain ⟨hs, hn, hd, hf, hf'⟩ := hr
  cases h with
  | same =>
    cases line with
    | status code => exact ⟨rfl, hn, hd, hf, hf'⟩
    | delay ms => exact ⟨hs, hn, rfl, hf, hf'⟩
    | header name value =>
      refine ⟨hs, ?_, hd, hf, hf'⟩
      simp only [Line.apply, Response.setHeader, Response.putHeader_names, hn]
    | nothing => exact ⟨hs, hn, hd, hf, hf'⟩
  | header name value value' =>
    refine ⟨hs, ?_, hd, hf, hf'⟩
    simp only [Line.apply, Response.setHeader, Response.putHeader_names, hn]

/-- Lines that are read alike lead from alike responses to alike responses. -/
theorem readLines_alike {ls : List (List Symbol)} (hfirm : ∀ l ∈ ls, Firm l)
    {q q' : List (String × Value)} {r r' a a' : Response} (hr : Alike r r')
    (h : readLines r (ls.map (fill q)) = .ok a) (h' : readLines r' (ls.map (fill q')) = .ok a') :
    Alike a a' := by
  induction ls generalizing r r' with
  | nil =>
    cases h
    cases h'
    exact hr
  | cons l ls ih =>
    rw [List.map_cons, readLines] at h h'
    have hk := (hfirm l (by simp)).sameKind q q'
    cases hl : Line.read (fill q l) with
    | error f => rw [hl] at h; cases h
    | ok line =>
      cases hl' : Line.read (fill q' l) with
      | error f => rw [hl'] at h'; cases h'
      | ok line' =>
        rw [hl] at h
        rw [hl'] at h'
        rw [hl, hl'] at hk
        exact ih (fun x hx => hfirm x (by simp [hx])) (hk.alike hr) h h'

/-- What a query fills into a definition leaves its shape alone: no line of the head is broken, and the
body is neither an override nor the mark of a file. -/
structure Harmless (q : List (String × Value)) (d : List Symbol) : Prop where
  unbroken : ∀ l ∈ headSymbols d, ∀ c ∈ fill q l, isLineEnd c = false
  noOverride : overrideOf? (bodyText (fill q d)) = none
  noFile : markedPath? (bodyText (fill q d)) = none

theorem harmless_iff {q : List (String × Value)} {d : List Symbol} :
    Harmless q d ↔ ((headSymbols d).all fun l => (fill q l).all (!isLineEnd ·)) = true ∧
      (overrideOf? (bodyText (fill q d))).isNone = true ∧
      (markedPath? (bodyText (fill q d))).isNone = true := by
  simp only [List.all_eq_true, Bool.not_eq_true', Option.isNone_iff_eq_none]
  exact ⟨fun h => ⟨h.unbroken, h.noOverride, h.noFile⟩, fun ⟨hu, ho, hf⟩ => ⟨hu, ho, hf⟩⟩

instance (q : List (String × Value)) (d : List Symbol) : Decidable (Harmless q d) :=
  decidable_of_iff' _ harmless_iff

/-- A harmless body becomes the body of the response, and nothing else of it. -/
theorem finish_ok {registry : Registry} {s : Setting} {r a : Response} {body : List Char} {σ : Session}
    (ho : overrideOf? body = none) (hf : markedPath? body = none)
    (h : ((finish registry s r body).runIn σ).1 = .ok a) :
    a = { r with body := a.body, origin := .template } := by
  have hc : Content.of body = .template body := by rw [Content.of, ho, hf]
  rw [finish, hc] at h
  simp only [Work.runIn_bind] at h
  rcases hr : (render registry s (String.ofList body)).runIn σ with ⟨f | text, τ⟩
  · rw [hr] at h
    cases h
  · rw [hr] at h
    cases h
    rfl

/-- The response of a definition with holes is that of its head, filled, with some body. -/
theorem compileFile_ok {registry : Registry} (hcap : registry.find? "capture" = some Directive.capture)
    {s : Setting} {f : Path} {source : List Char} {d : List Symbol}
    (hread : s.files.readText f = .ok source) (hd : symbols? source = some d)
    (hfirm : ∀ l ∈ headSymbols d, Firm l) (hq : Harmless s.request.query d) {σ : Session} (hσ : σ.Sound)
    {a : Response} (h : ((compileFile registry s f).runIn σ).1 = .ok a) :
    ∃ r, readLines .empty ((headSymbols d).map (fill s.request.query)) = .ok r ∧
      a = { r with body := a.body, origin := .template } := by
  have hc : ((compile registry s (String.ofList source)).runIn σ).1 = .ok a := by
    rw [compileFile, Work.runIn_bind, Work.runIn_ofExcept, hread] at h
    simp only [Work.runIn_tryCatch] at h
    rcases hc : (compile registry s (String.ofList source)).runIn σ with ⟨x | b, τ⟩
    · rw [hc] at h
      cases h
    · rw [hc] at h
      exact h
  obtain ⟨τ, -, hτ⟩ := render_of_symbols? hcap hd s hσ
  have hhead : headOf (lines (fill s.request.query d)) = (headSymbols d).map (fill s.request.query) :=
    headOf_fill hfirm hq.unbroken
  rw [compile, Work.runIn_bind_ok hτ, settle_runIn, String.toList_ofList, hhead] at hc
  cases hr : readLines .empty ((headSymbols d).map (fill s.request.query)) with
  | error x => rw [hr] at hc; cases hc
  | ok r =>
    rw [hr] at hc
    exact ⟨r, rfl, finish_ok hq.noOverride hq.noFile hc⟩

end Definition

/-- The same setting with another query in the request. -/
def Setting.asking (s : Setting) (query : List (String × Value)) : Setting :=
  { s with request := { s.request with query := query } }

namespace Engine
open Definition

/-- A tag that prints what the query has for a name. -/
def nameTag : String := "\x7b\x7bcapture from=\"query\" key=\"n\"\x7d\x7d"

/-- A definition that names in a header whoever the query names. -/
def greeting : String := "HTTP/1.1 200\nX: " ++ nameTag ++ "\n\nhi"

def greetingSymbols : List Symbol :=
  "HTTP/1.1 200\nX: ".toList.map .char ++ .hole "n" :: "\n\nhi".toList.map .char

/-- A delay taken from the query. -/
def delayed : String := "HTTP/1.1 200\nResponse-Delay: " ++ nameTag ++ "\n\nhi"

/-- A body whose type is taken from the query. -/
def typed : String :=
  "HTTP/1.1 200\n\n\x7b\"CamouflageResponseType\": \"" ++ nameTag ++ "\"\x7d"

/-- The outcome of a query for a name, where a definition is all there is. -/
def askedFor (definition name : String) : Except Fault Response :=
  let s := Setting.still (loneTree definition) (.simple "GET" "/")
  ((respond Directive.standard ⟨true, []⟩ (s.asking [("n", .text name)])).runIn
    (.fresh true 1000 0)).1

/-- Two requests for one definition that differ in nothing but harmless queries get responses of one
shape. -/
theorem respond_alike {registry : Registry}
    (hcap : registry.find? "capture" = some Directive.capture) {root f : Path} {s : Setting}
    (hf : definition? s.files root s.request.path s.request.method = .ok (some f))
    {source : List Char} (hread : s.files.readText f = .ok source)
    {d : List Symbol} (hd : symbols? source = some d) (hfirm : ∀ l ∈ headSymbols d, Firm l)
    {q q' : List (String × Value)} (hq : Harmless q d) (hq' : Harmless q' d)
    {σ σ' : Session} (hσ : σ.Sound) (hσ' : σ'.Sound) {r r' : Response}
    (h : ((respond registry root (s.asking q)).runIn σ).1 = .ok r)
    (h' : ((respond registry root (s.asking q')).runIn σ').1 = .ok r') :
    r.status = r'.status ∧ r.headers.map (·.1) = r'.headers.map (·.1) ∧ r.delay = r'.delay ∧
      r.origin = r'.origin ∧ r.file = none ∧ r'.file = none := by
  have hrespond : ∀ q σ, (respond registry root (s.asking q)).runIn σ =
      (compileFile registry (s.asking q) f).runIn σ := by
    intro q σ
    rw [respond_runIn, show definition? (s.asking q).files root (s.asking q).request.path
      (s.asking q).request.method = .ok (some f) from hf]
  rw [hrespond] at h h'
  obtain ⟨a, ha, hr⟩ := compileFile_ok (s := s.asking q) hcap hread hd hfirm hq hσ h
  obtain ⟨a', ha', hr'⟩ := compileFile_ok (s := s.asking q') hcap hread hd hfirm hq' hσ' h'
  have hempty : Alike .empty .empty := ⟨rfl, rfl, rfl, rfl, rfl⟩
  obtain ⟨hs, hn, hdl, hfile, hfile'⟩ := readLines_alike hfirm hempty ha ha'
  rw [hr, hr']
  exact ⟨hs, hn, hdl, rfl, hfile, hfile'⟩

theorem respond_alike_greeting :
    symbols? greeting.toList = some greetingSymbols ∧
    (∀ l ∈ headSymbols greetingSymbols, Firm l) ∧
    Harmless [("n", .text "a")] greetingSymbols ∧ Harmless [("n", .text "B: c")] greetingSymbols ∧
    ∃ r r', askedFor greeting "a" = .ok r ∧ askedFor greeting "B: c" = .ok r' ∧
      r.status = r'.status ∧ r.headers.map (·.1) = r'.headers.map (·.1) ∧ r.delay = r'.delay ∧
      r.origin = r'.origin ∧ r.file = none ∧ r'.file = none := by
  have hd : symbols? greeting.toList = some greetingSymbols := by decide +kernel
  have hfirm : ∀ l ∈ headSymbols greetingSymbols, Firm l := by decide +kernel
  have hq : Harmless [("n", .text "a")] greetingSymbols := by decide +kernel
  have hq' : Harmless [("n", .text "B: c")] greetingSymbols := by decide +kernel
  have h : askedFor greeting "a" = .ok ⟨200, [("X", "a")], "hi", none, 0, .template⟩ := by
    decide +kernel
  have h' : askedFor greeting "B: c" = .ok ⟨200, [("X", "B: c")], "hi", none, 0, .template⟩ := by
    decide +kernel
  refine ⟨hd, hfirm, hq, hq', _, _, h, h', ?_⟩
  exact respond_alike (s := Setting.still (loneTree greeting) (.simple "GET" "/"))
    (f := ⟨true, ["GET.mock"]⟩) rfl (by decide +kernel) (by decide +kernel) hd hfirm hq hq'
    (Session.sound_fresh _ _ _) (Session.sound_fresh _ _ _) h h'

/-- Where a value breaks a line, or is read as a delay, as the mark of a file or as a word of an
override, the shape of the response is the request's to choose. -/
theorem respond_unlike :
    askedFor greeting "a" = .ok ⟨200, [("X", "a")], "hi", none, 0, .template⟩ ∧
    askedFor greeting "a\nB: c" = .ok ⟨200, [("X", "a"), ("B", "c")], "hi", none, 0, .template⟩ ∧
    askedFor delayed "7" = .ok ⟨200, [], "hi", none, 7, .template⟩ ∧
    askedFor delayed "8" = .ok ⟨200, [], "hi", none, 8, .template⟩ ∧
    askedFor typed "camouflage_file_helper;/a;" = .ok ⟨200, [], "", some "/a", 0, .file⟩ ∧
    askedFor typed "code" = .ok ⟨200, [], "", none, 0, .code⟩ := by
  decide +kernel

end Engine
end MockTree
