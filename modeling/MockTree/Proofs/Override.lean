import MockTree.Proofs.JsonBody
import MockTree.Proofs.JsonWriting

/-! An override that a directive has accepted, written as JSON behind a head and read as a definition: what
comes out is what the override and the head say. -/
namespace MockTree

/-- Headers put one after another. -/
def putHeaders (headers more : List (String × String)) : List (String × String) :=
  more.foldl (fun hs p => Response.putHeader p.1 p.2 hs) headers

theorem eraseDups_of_nodup {names : List String} (h : names.Nodup) : names.eraseDups = names := by
  induction names using List.reverseRecOn with
  | nil => rfl
  | append_singleton names n ih =>
    obtain ⟨hn, -, hnot⟩ := List.nodup_append.1 h
    rw [OrderedMap.eraseDups_concat, ih hn, if_neg fun hm => hnot _ hm _ (by simp) rfl]

theorem OrderedMap.refl {entries : List (String × String)} (h : (entries.map (·.1)).Nodup) :
    OrderedMap entries entries := by
  refine ⟨?_, fun e he => ?_⟩
  · exact (eraseDups_of_nodup h).symm
  · obtain ⟨before, after, rfl⟩ := List.append_of_mem he
    refine ⟨before, after, rfl, fun hm => ?_⟩
    rw [List.map_append, List.map_cons] at h
    exact (List.nodup_cons.1 (List.nodup_append.1 h).2.1).1 hm

theorem OrderedMap.putHeaders {pairs entries : List (String × String)} (h : OrderedMap pairs entries)
    (more : List (String × String)) :
    OrderedMap (pairs ++ more) (putHeaders entries more) := by
  induction more generalizing pairs entries with
  | nil => rwa [List.append_nil]
  | cons p more ih =>
    have hrest := ih (h.concat p)
    rw [List.append_assoc] at hrest
    exact hrest

namespace Definition
open Text Json Directive

/-- The headers that an override gives, as texts. -/
def givenHeaders (entries : List (Scalar × Value)) : List (String × String) :=
  match Value.field? "headers" entries with
  | some (.map hs) => hs.map fun h => (String.ofList h.1.plain, String.ofList h.2.plain)
  | _ => []

/-- A body that is what an override gives: a text as it is, a collection as JSON, nothing for nothing. -/
def CarriesBody (given : Option Value) (body : String) : Prop :=
  match given with
  | none | some .null => body = ""
  | some (.text t) => body = t
  | some (.list items) => Json.read? body.toList = some (.list items)
  | some (.map entries) => Json.read? body.toList = some (.map entries)
  | some v => body = String.ofList v.plain

/-- A response that is the one of a head but for what an override gives. -/
structure Carries (entries : List (Scalar × Value)) (head r : Response) : Prop where
  origin : r.origin = .code
  status : r.status = match Value.field? "status" entries with
    | some (.int n) => n
    | _ => head.status
  headers : OrderedMap (head.headers ++ givenHeaders entries) r.headers
  delay : r.delay = head.delay
  body : CarriesBody (Value.field? "body" entries) r.body

/-- The status that an override gives is a whole number other than zero, if it gives one. -/
def StatusIsWhole (entries : List (Scalar × Value)) : Prop :=
  ∀ v, Value.field? "status" entries = some v → ∃ n, n ≠ 0 ∧ v = .int n

theorem mem_withArgument {name : String} {given : Value} {entries : List (Scalar × Value)} {e : Scalar × Value}
    (h : e ∈ withArgument name given entries) : e.1 = .text name ∨ e.1 ∈ entries.map (·.1) := by
  rw [withArgument.eq_def] at h
  split at h
  · exact .inr (List.mem_map.2 ⟨e, h, rfl⟩)
  · exact Value.mem_insert h

/-- An override is its mark behind some of the fields that it may have. -/
theorem override_eq_ok {source : List Char} {status body : Value} {entries : List (Scalar × Value)}
    (h : override source status body = .ok entries) :
    ∃ kept, entries = kept ++ [(.text overrideKey, .text overrideKind)] ∧
      ∀ e ∈ kept, ∃ name ∈ overrideFields, e.1 = .text name := by
  rw [override] at h
  cases hd : described source with
  | error f => rw [hd] at h; cases h
  | ok found =>
    rw [hd] at h
    simp only [bind, Except.bind] at h
    split at h
    · cases h
    · split at h
      · cases h
      · split at h
        · cases h
        · cases h
          refine ⟨_, rfl, fun e he => ?_⟩
          rcases mem_withArgument he with hk | hm
          · exact ⟨"body", by decide, hk⟩
          obtain ⟨x, hx, hxe⟩ := List.mem_map.1 hm
          rcases mem_withArgument hx with hk | hm
          · exact ⟨"status", by decide, by rw [← hxe, hk]⟩
          obtain ⟨y, hy, hye⟩ := List.mem_map.1 hm
          obtain ⟨name, hname, hv⟩ := List.mem_filterMap.1 hy
          obtain ⟨v, -, rfl⟩ := Option.map_eq_some_iff.1 hv
          exact ⟨name, hname, by rw [← hxe, ← hye]⟩

theorem field?_overrideKey {source : List Char} {status body : Value} {entries : List (Scalar × Value)}
    (h : override source status body = .ok entries) :
    Value.field? overrideKey entries = some (.text overrideKind) := by
  obtain ⟨kept, rfl, hkept⟩ := override_eq_ok h
  rw [Value.field?, Value.find?_append]
  · rfl
  · intro e he
    obtain ⟨name, hname, hkey⟩ := hkept e he
    have hall : ∀ n ∈ overrideFields, (Scalar.text n).same (.text overrideKey) = false := by decide
    rw [hkey]
    exact hall name hname

theorem writable_of_field? {entries : List (Scalar × Value)} (h : Writable (.map entries)) {name : String}
    {v : Value} (hv : Value.field? name entries = some v) : Writable v := by
  cases h with
  | map hd h =>
    obtain ⟨e, he, rfl⟩ := Value.mem_of_find? hv
    obtain ⟨f, hf, rfl⟩ := List.mem_map.1 he
    exact h f hf

/-- What an override does to a response, once its status is known. -/
theorem applyOverride_eq (r : Response) (entries : List (Scalar × Value)) :
    applyOverride r entries =
      (givenStatus? ((Value.field? "status" entries).getD .null)).map fun status =>
        { r with
          status := status.getD r.status
          headers := putHeaders r.headers (givenHeaders entries)
          body := String.ofList (givenBody ((Value.field? "body" entries).getD .null))
          origin := .code } := by
  have hfold : ∀ (hs : List (Scalar × Value)) (r : Response),
      hs.foldl (fun (r : Response) (h : Scalar × Value) =>
        r.setHeader (String.ofList h.1.plain) (String.ofList h.2.plain)) r =
      { r with
        headers := putHeaders r.headers (hs.map fun h => (String.ofList h.1.plain, String.ofList h.2.plain)) } := by
    intro hs
    induction hs with
    | nil => intro r; rfl
    | cons h hs ih => intro r; rw [List.foldl_cons, ih]; rfl
  rw [applyOverride]
  cases givenStatus? ((Value.field? "status" entries).getD .null) with
  | error f => rfl
  | ok status =>
    cases hh : Value.field? "headers" entries with
    | none => simp only [givenHeaders, hh]; rfl
    | some v =>
      rcases v with scalar | items | hs | members
      case map => simp only [givenHeaders, hh, hfold]; rfl
      all_goals simp only [givenHeaders, hh]; rfl

theorem applyOverride_carries {entries : List (Scalar × Value)} (hjson : Writable (.map entries))
    (hstatus : StatusIsWhole entries) {head : Response} (hhead : (head.headers.map (·.1)).Nodup) :
    ∃ r, applyOverride head entries = .ok r ∧ Carries entries head r := by
  have hgiven : ∃ status, givenStatus? ((Value.field? "status" entries).getD .null) = .ok status ∧
      status.getD head.status = match Value.field? "status" entries with
        | some (.int n) => n
        | _ => head.status := by
    cases hs : Value.field? "status" entries with
    | none => exact ⟨none, rfl, rfl⟩
    | some v =>
      obtain ⟨n, hn, rfl⟩ := hstatus v hs
      exact ⟨some n, by simp [givenStatus?, Value.isTrue, hn], rfl⟩
  obtain ⟨status, hok, hval⟩ := hgiven
  rw [applyOverride_eq, hok]
  refine ⟨_, rfl, rfl, hval, (OrderedMap.refl hhead).putHeaders _, rfl, ?_⟩
  cases hb : Value.field? "body" entries with
  | none => rfl
  | some v =>
    have hread := (writable_of_field? hjson hb).read?_line
    rcases v with (_ | b | n | x | t | bs | d | t | k) | items | es | members
    case scalar.text => exact String.ofList_toList
    case list => exact (congrArg Json.read? String.toList_ofList).trans hread
    case map => exact (congrArg Json.read? String.toList_ofList).trans hread
    all_goals rfl

/-- A text behind a head and an empty line is the body of the whole. -/
theorem split_document {block text : List Char} (hb : ∀ l ∈ lines block, (trim l).isEmpty = false)
    (ht : ∀ c ∈ text, isLineEnd c = false) (hne : text ≠ []) :
    headOf (lines (block ++ "\n\n".toList ++ text)) = lines block ∧
      Definition.bodyText (block ++ "\n\n".toList ++ text) = normalize text := by
  obtain ⟨empty, hempty, hlines⟩ := exists_lines_append_lineFeed block ('\n' :: text)
  have htext : lines ('\n' :: text) = [[], text] := by
    rw [lines, linesFrom_lineEnd rfl (by simp), ← lines, lines_of_not_lineEnd ht hne]
    rfl
  have hall : block ++ "\n\n".toList ++ text = block ++ '\n' :: '\n' :: text := by simp
  have hpos : ∀ l ∈ lines block, (!(trim l).isEmpty) = true := fun l hl => by rw [hb l hl]; rfl
  rw [Definition.bodyText, hall, hlines, htext, headOf, bodyOf, List.takeWhile_append_of_pos hpos,
    List.dropWhile_append_of_pos hpos]
  cases empty with
  | nil => exact ⟨by simp [trim_isEmpty], by simp [trim_isEmpty]⟩
  | cons l empty =>
    obtain rfl := hempty l (by simp)
    have hflat : empty.flatten = [] := List.flatten_eq_nil_iff.2 fun l hl => hempty l (by simp [hl])
    exact ⟨by simp [trim_isEmpty], by simp [trim_isEmpty, hflat]⟩

/-- The text of an override keeps its value when it becomes a body: no two spaces of it stand side by side,
and no string of it holds triple braces that are parted. -/
structure Kept (text : List Char) : Prop where
  spaces : ¬ "  ".toList <:+: text
  opening : ¬ "\x7b\x7b\x7b".toList <:+: text
  closing : ∀ p ∈ cutText? "\x7d\x7d\x7d".toList text, ¬ InString p.1

theorem eq_space {c : Char} (h : Printable c) (hc : isBlank c = true) : c = ' ' := by
  simp only [isBlank, Bool.or_eq_true, Bool.and_eq_true, decide_eq_true_eq, beq_iff_eq] at hc
  obtain ⟨hlow, hhigh⟩ := h
  exact Char.toNat_inj.1 (show c.toNat = 32 by omega)

theorem isLineEnd_of_printable {c : Char} (h : Printable c) : isLineEnd c = false := by
  obtain ⟨hlow, hhigh⟩ := h
  simp only [isLineEnd, Bool.or_eq_false_iff, Bool.and_eq_false_iff, decide_eq_false_iff_not,
    beq_eq_false_iff_ne]
  omega

theorem exists_line_map (entries : List (Scalar × Value)) :
    ∃ mid, Json.line (.map entries) = '\x7b' :: (mid ++ ['\x7d']) := by
  rw [Json.line, write]
  cases writeEntries .line 1 entries with
  | nil => exact ⟨[], rfl⟩
  | cons p ps => exact ⟨_, bracketed_line _ _ _ _ _⟩

theorem Kept.read?_normalize {entries : List (Scalar × Value)} (hjson : Writable (.map entries))
    (hkept : Kept (Json.line (.map entries))) :
    Json.read? (normalize (Json.line (.map entries))) = some (.map entries) := by
  obtain ⟨⟨ts, hts, hsp⟩, hprint⟩ := hjson.written_line
  obtain ⟨mid, hline⟩ := exists_line_map entries
  have hsqueezed : Squeezed (Json.line (.map entries)) := by
    intro a c b hs hc
    rw [hs] at hprint
    obtain rfl := eq_space (hprint c (by simp)) hc
    refine ⟨rfl, fun d hd => ?_⟩
    rw [← Bool.not_eq_true]
    intro hblank
    obtain ⟨b, rfl⟩ := List.head?_eq_some_iff.1 hd
    obtain rfl := eq_space (hprint d (by simp)) hblank
    exact hkept.spaces ⟨a, b, by simp [hs]⟩
  have hlast : ∀ c ∈ (Json.line (.map entries)).getLast?, isBlank c = false := by
    rw [hline, ← List.cons_append]
    rintro c hc
    rw [List.getLast?_concat] at hc
    cases hc
    rfl
  have htrim : trim (squeeze (Json.line (.map entries))) = Json.line (.map entries) := by
    have hsq := squeeze_append hsqueezed hlast []
    rw [List.append_nil] at hsq
    rw [hsq, show squeeze [] = [] from rfl, List.append_nil]
    exact trim_of_edges (by rw [hline]; rintro c ⟨⟩; rfl) hlast
  have hlaid : Laid ts (Json.line (.map entries)) := ⟨[], hsp, by simp⟩
  rw [normalize, htrim]
  exact read?_eq_some.2 ⟨ts, hts, hlaid.partBraces hts.sound hkept.opening fun a b hc hq =>
    hkept.closing (a, b) hc hq.1⟩

end Definition

open Text Definition Json Directive

/-- An override that a directive has accepted comes through its text: behind the lines of a head, the
response is the one of the head, with the status, the headers and the body that the override gives. -/
theorem settle_override (registry : Registry) (s : Setting) (σ : Session) {source : List Char}
    {status body : Value} {entries : List (Scalar × Value)}
    (haccept : Directive.override source status body = .ok entries)
    (hjson : Writable (.map entries)) (hstatus : StatusIsWhole entries)
    (hkept : Kept (Json.line (.map entries))) {block : List Char}
    (hblock : ∀ l ∈ lines block, (trim l).isEmpty = false ∧ ¬ Faulty l ∧ ¬ Endless l) :
    ∃ head r, Describes (lines block) head ∧ Carries entries head r ∧
      (settle registry s (String.ofList (block ++ "\n\n".toList ++ Json.line (.map entries)))).runIn σ =
        (.ok r, σ) := by
  rcases readLines_cases (r := .empty) (by decide) (lines block) with
    ⟨head, hread, -⟩ | ⟨_, -, -, l, hl, hb⟩ | ⟨-, before, l, after, hsplit, he, -⟩
  · have hhead : Describes (lines block) head := by simpa using Describes.empty.readLines hread
    have hnodup : (head.headers.map (·.1)).Nodup := hhead.headers.names ▸ OrderedMap.nodup_eraseDups _
    obtain ⟨r, happly, hr⟩ := applyOverride_carries hjson hstatus hnodup
    obtain ⟨mid, hline⟩ := exists_line_map entries
    have hends : ∀ c ∈ Json.line (.map entries), isLineEnd c = false := fun c hc =>
      isLineEnd_of_printable (hjson.written_line.printable c hc)
    obtain ⟨hheads, hbody⟩ := split_document (fun l hl => (hblock l hl).1) hends (by rw [hline]; simp)
    have hover : overrideOf? (normalize (Json.line (.map entries))) = some entries :=
      (overrideOf?_eq_some (hkept.read?_normalize hjson)).2 ⟨rfl, field?_overrideKey haccept⟩
    refine ⟨head, r, hhead, hr, ?_⟩
    rw [settle_runIn, String.toList_ofList, hheads, hread, hbody]
    simp only [finish, Content.of, hover, Work.runIn_ofExcept, happly]
  · exact absurd (faulty_iff.2 hb) (hblock l hl).2.1
  · exact absurd he (hblock l (by simp [hsplit])).2.2

/-- The text of a block with headers and a body of several kinds. -/
def widgetSource : List Char :=
  "headers:\n  X-A: 1\n  Location: /w\nbody:\n  sizes: [1, -20, 2.5]\n  note: \"a \x7d b\"\n".toList

/-- What the block describes, with the status that its argument gives. -/
def widgetFields : List (String × Value) := [
  ("headers", .map (Value.entriesOf [("X-A", .int 1), ("Location", .text "/w")])),
  ("body", .map (Value.entriesOf [("sizes", .list [.int 1, .int (-20), .real (.finite false 5629499534213120 (-51))]),
    ("note", .text "a \x7d b")])),
  ("status", .int 201), (overrideKey, .text overrideKind)]

def widgetBlock : List Char := "HTTP/1.1 200 OK\nX-A: 0\nResponse-Delay: 5".toList

theorem settle_override_widget :
    let s := Setting.still ⟨.directory [], ⟨true, []⟩⟩ (.simple "GET" "/")
    let entries := Value.entriesOf widgetFields
    let σ := Session.fresh true 1000 0
    Directive.override widgetSource (.int 201) .null = .ok entries ∧ Writable (.map entries) ∧
    StatusIsWhole entries ∧ Kept (Json.line (.map entries)) ∧
    (∀ l ∈ lines widgetBlock, (trim l).isEmpty = false ∧ ¬ Faulty l ∧ ¬ Endless l) ∧
    ∃ head r, Describes (lines widgetBlock) head ∧ Carries entries head r ∧
      (settle [] s (String.ofList (widgetBlock ++ "\n\n".toList ++ Json.line (.map entries)))).runIn σ =
        (.ok r, σ) := by
  intro s entries σ
  have haccept : Directive.override widgetSource (.int 201) .null = .ok entries := by decide +kernel
  have hjson : Writable (.map entries) := by
    have hhalf : Double.Proper (.finite false 5629499534213120 (-51)) :=
      .normal false ⟨by decide, by decide, by decide, by decide, by decide⟩
    have hsizes : ∀ v ∈ [Value.int 1, .int (-20), .real (.finite false 5629499534213120 (-51))], Writable v := by
      simpa using ⟨.int (by decide), .int (by decide), .real hhalf⟩
    refine .map (by decide) ?_
    simp only [widgetFields, List.forall_mem_cons, List.not_mem_nil, false_implies, implies_true, and_true]
    exact ⟨.map (by decide) (by simpa using ⟨.int (by decide), .text _⟩),
      .map (by decide) (by simpa using ⟨.list hsizes, .text _⟩), .int (by decide), .text _⟩
  have hstatus : StatusIsWhole entries := fun v hv => by
    have h201 : Value.field? "status" entries = some (.int 201) := by decide +kernel
    exact ⟨201, by decide, Option.some.inj (hv.symm.trans h201)⟩
  have hkept : Kept (Json.line (.map entries)) := ⟨by decide +kernel, by decide +kernel, by decide +kernel⟩
  have hblock : ∀ l ∈ lines widgetBlock, (trim l).isEmpty = false ∧ ¬ Faulty l ∧ ¬ Endless l := by
    decide +kernel
  exact ⟨haccept, hjson, hstatus, hkept, hblock, settle_override [] s σ haccept hjson hstatus hkept hblock⟩

/-- A body with two spaces side by side. -/
def spacedEntries : List (Scalar × Value) :=
  Value.entriesOf [("body", .text "a  b"), (overrideKey, .text overrideKind)]

theorem settle_override_spaced :
    let s := Setting.still ⟨.directory [], ⟨true, []⟩⟩ (.simple "GET" "/")
    let block := "HTTP/1.1 200 OK".toList
    let outcome := (settle [] s (String.ofList (block ++ "\n\n".toList ++ Json.line (.map spacedEntries)))).runIn
      (.fresh true 1000 0)
    Directive.override "body: \"a  b\"".toList .null .null = .ok spacedEntries ∧ Writable (.map spacedEntries) ∧
    StatusIsWhole spacedEntries ∧ (∀ l ∈ lines block, (trim l).isEmpty = false ∧ ¬ Faulty l ∧ ¬ Endless l) ∧
    outcome.1 = .ok ⟨200, [], "a b", none, 0, .code⟩ ∧
    ¬ ∃ head r, Describes (lines block) head ∧ Carries spacedEntries head r ∧ outcome.1 = .ok r := by
  intro s block outcome
  have hout : outcome.1 = .ok ⟨200, [], "a b", none, 0, .code⟩ := by decide +kernel
  refine ⟨by decide +kernel, .map (by decide) (by simpa using ⟨.text _, .text _⟩), ?_, by decide +kernel, hout, ?_⟩
  · intro v hv
    cases hv
  · rintro ⟨head, r, -, hr, h⟩
    cases hout.symm.trans h
    have hbody : "a b" = "a  b" := hr.body
    revert hbody
    decide

end MockTree
