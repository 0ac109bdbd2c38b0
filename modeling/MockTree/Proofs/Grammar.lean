import Mathlib.Data.List.Induction
import MockTree.Proofs.Outcome
import MockTree.Proofs.StatusLine

/-! The grammar of a head. Its status is that of the last status line, its headers are an ordered map of
the fields, and its delay is that of the last field with the name of a delay. -/
namespace MockTree

/-- An ordered map of pairs: the first pair of a name fixes its place, the last one its value. -/
structure OrderedMap (pairs entries : List (String × String)) : Prop where
  names : entries.map (·.1) = (pairs.map (·.1)).eraseDups
  last : ∀ e ∈ entries, ∃ before after, pairs = before ++ e :: after ∧ e.1 ∉ after.map (·.1)

namespace OrderedMap
open Response

theorem nil : OrderedMap [] [] := ⟨rfl, by simp⟩

theorem eraseDups_concat (names : List String) (n : String) :
    (names ++ [n]).eraseDups = if n ∈ names.eraseDups then names.eraseDups else names.eraseDups ++ [n] := by
  rw [List.eraseDups_append]
  by_cases h : n ∈ names
  · simp [List.removeAll, h, List.mem_eraseDups]
  · simp [List.removeAll, h, List.mem_eraseDups, List.eraseDups_cons]

theorem nodup_eraseDups (names : List String) : names.eraseDups.Nodup := by
  induction names using List.reverseRecOn with
  | nil => exact List.nodup_nil
  | append_singleton names n ih =>
    rw [eraseDups_concat]
    split
    · exact ih
    · next h => exact List.nodup_append.2 ⟨ih, by simp, by rintro a ha _ hb rfl; simp_all⟩

theorem mem_putHeader {name value : String} {entries : List (String × String)}
    (hd : (entries.map (·.1)).Nodup) {e : String × String} (h : e ∈ putHeader name value entries) :
    e = (name, value) ∨ (e ∈ entries ∧ e.1 ≠ name) := by
  induction entries with
  | nil => exact .inl (by simpa [putHeader] using h)
  | cons x entries ih =>
    obtain ⟨hx, hd⟩ := List.nodup_cons.1 hd
    rw [putHeader] at h
    split at h
    · next hn =>
      obtain rfl := eq_of_beq hn
      rcases List.mem_cons.1 h with rfl | h
      · exact .inl rfl
      · exact .inr ⟨by simp [h], fun he => hx (List.mem_map.2 ⟨e, h, he⟩)⟩
    · next hn =>
      rcases List.mem_cons.1 h with rfl | h
      · exact .inr ⟨by simp, by simpa using hn⟩
      · rcases ih hd h with h | ⟨h, he⟩
        · exact .inl h
        · exact .inr ⟨by simp [h], he⟩

theorem concat {pairs entries : List (String × String)} (h : OrderedMap pairs entries)
    (p : String × String) : OrderedMap (pairs ++ [p]) (putHeader p.1 p.2 entries) := by
  have hd : (entries.map (·.1)).Nodup := h.names ▸ nodup_eraseDups _
  constructor
  · rw [putHeader_names, h.names, List.map_append, List.map_cons, List.map_nil, eraseDups_concat]
  · intro e he
    rcases mem_putHeader hd he with rfl | ⟨he, hn⟩
    · exact ⟨pairs, [], rfl, by simp⟩
    · obtain ⟨before, after, hp, ha⟩ := h.last e he
      exact ⟨before, after ++ [p], by simp [hp], by simpa [hn] using ha⟩

end OrderedMap

namespace Definition
open Text

/-- A line that is to be a status line. -/
def IsStatus (l : List Char) : Prop := startsWith "HTTP".toList l = true

instance : DecidablePred IsStatus := fun _ => inferInstanceAs (Decidable (_ = true))

instance : DecidablePred LacksStatus := fun _ => inferInstanceAs (Decidable (_ ∧ _))

/-- A status line that shows no status. -/
def Faulty (l : List Char) : Prop := IsStatus l ∧ ∀ before code, ¬ Shows l before code

/-- The name and the value of a line that is no status line. -/
def field? (l : List Char) : Option (List Char × List Char) :=
  if IsStatus l then none else (cut? ':' l).map fun (name, value) => (trim name, trim value)

/-- The whole milliseconds of a delay, none for what is no number or less than nothing. -/
def milliseconds (value : List Char) : Int :=
  ((Decimal.read? value).bind Double.truncate?).elim 0 (max 0)

/-- The headers among fields. -/
def headersOf (fields : List (List Char × List Char)) : List (String × String) :=
  (fields.filter (·.1 ≠ delayName)).map fun f => (String.ofList f.1, String.ofList f.2)

/-- The delays among fields. -/
def delaysOf (fields : List (List Char × List Char)) : List Int :=
  (fields.filter (·.1 = delayName)).map fun f => milliseconds f.2

/-- The status that lines of a head give. -/
def StatusOf (ls : List (List Char)) (status : Int) : Prop :=
  match (ls.filter (IsStatus ·)).getLast? with
  | some l => ∃ code, ShowsFirst l code ∧ status = code
  | none => status = Response.defaultStatus

/-- A response with nothing but what lines of a head say. -/
structure Describes (ls : List (List Char)) (r : Response) : Prop where
  status : StatusOf ls r.status
  headers : OrderedMap (headersOf (ls.filterMap field?)) r.headers
  delay : r.delay = (delaysOf (ls.filterMap field?)).getLast?.getD 0
  blank : r.body = "" ∧ r.file = none ∧ r.origin = .template

theorem faulty_iff {l : List Char} : Faulty l ↔ LacksStatus l := by
  refine and_congr_right fun _ => ?_
  rcases statusCode?_cases l with ⟨hn, hno⟩ | ⟨n, hn, before, h, -⟩
  · exact iff_of_true hno hn
  · exact iff_of_false (fun hno => hno _ _ h) (by simp [hn])

instance : DecidablePred Faulty := fun _ => decidable_of_iff' _ faulty_iff

theorem endless_iff {l : List Char} : Endless l ↔ Line.read l = .error .overflow := by
  rcases Line.read_cases l with ⟨line, h, -, -, he⟩ | ⟨h, -, he⟩ | ⟨h, he, -⟩
  · exact iff_of_false he (by simp [h])
  · exact iff_of_false he (by simp [h])
  · exact iff_of_true he h

instance : DecidablePred Endless := fun _ => decidable_of_iff' _ endless_iff

theorem milliseconds_of_readDelay {value : List Char} {n : Int} (h : readDelay value = .ok n) :
    milliseconds value = n := by
  rw [readDelay] at h
  rw [milliseconds]
  split at h
  · next hd => cases h; rw [hd]; rfl
  · next hd => cases h; rw [hd]; rfl
  · next x _ hd =>
    split at h
    · next k hk =>
      cases h
      rw [hd, Option.bind_some, hk]
      exact Int.max_comm 0 k
    · cases h

/-- One more line. -/
theorem Describes.concat {ls : List (List Char)} {r : Response} (h : Describes ls r) {l : List Char}
    {line : Line} (hl : Line.read l = .ok line) : Describes (ls ++ [l]) (line.apply r) := by
  rw [Line.read] at hl
  by_cases hs : IsStatus l
  · rw [if_pos (show _ = true from hs)] at hl
    have hf : field? l = none := if_pos hs
    rcases statusCode?_cases l with ⟨hn, -⟩ | ⟨code, hn, hshow⟩
    · rw [hn] at hl
      cases hl
    · rw [hn] at hl
      cases hl
      refine ⟨?_, ?_, ?_, h.blank⟩
      · simp only [StatusOf, List.filter_append, List.filter_cons, hs, decide_true, if_true,
          List.filter_nil, List.getLast?_concat]
        exact ⟨code, hshow, rfl⟩
      · simpa [hf, Line.apply] using h.headers
      · simpa [hf, Line.apply] using h.delay
  · rw [if_neg (show ¬ _ = true from hs)] at hl
    have hst : StatusOf (ls ++ [l]) = StatusOf ls := by
      funext status
      simp [StatusOf, hs]
    cases hc : cut? ':' l with
    | none =>
      have hf : field? l = none := by rw [field?, if_neg hs, hc]; rfl
      rw [hc] at hl
      cases hl
      exact ⟨hst ▸ h.status, by simpa [hf, Line.apply] using h.headers, by simpa [hf, Line.apply] using h.delay, h.blank⟩
    | some p =>
      obtain ⟨name, value⟩ := p
      have hf : field? l = some (trim name, trim value) := by rw [field?, if_neg hs, hc]; rfl
      rw [hc] at hl
      by_cases hn : trim name = delayName
      · simp only [hn, beq_self_eq_true, if_true] at hl
        cases hd : readDelay (trim value) with
        | error f => rw [hd] at hl; cases hl
        | ok n =>
          rw [hd] at hl
          cases hl
          refine ⟨hst ▸ h.status, ?_, ?_, h.blank⟩
          · simpa [headersOf, hf, hn, Line.apply] using h.headers
          · simp [delaysOf, hf, hn, milliseconds_of_readDelay hd, Line.apply]
      · simp only [beq_iff_eq, hn, if_false] at hl
        cases hl
        refine ⟨hst ▸ h.status, ?_, ?_, h.blank⟩
        · have hh : headersOf ((ls ++ [l]).filterMap field?) = headersOf (ls.filterMap field?) ++
              [(String.ofList (trim name), String.ofList (trim value))] := by
            simp [headersOf, hf, hn]
          rw [hh]
          exact h.headers.concat _
        · simpa [delaysOf, hf, hn, Line.apply, Response.setHeader] using h.delay

theorem Describes.empty : Describes [] .empty := ⟨rfl, .nil, rfl, rfl, rfl, rfl⟩

/-- What has been read stays described as more lines are read. -/
theorem Describes.readLines {before ls : List (List Char)} {r r' : Response} (h : Describes before r)
    (hr : readLines r ls = .ok r') : Describes (before ++ ls) r' := by
  induction ls generalizing before r with
  | nil => cases hr; simpa using h
  | cons l ls ih =>
    rw [Definition.readLines] at hr
    split at hr
    · next line hl => simpa using ih (h.concat hl) hr
    · cases hr

/-- Reading stops at the first line that is faulty. -/
theorem readLines_of_faulty {before after : List (List Char)} {l : List Char} (hl : LacksStatus l)
    (hb : ∀ x ∈ before, ¬ LacksStatus x ∧ ¬ Endless x) (r : Response) :
    readLines r (before ++ l :: after) = .error (.failure ⟨.statusLine (String.ofList l), none⟩) := by
  induction before generalizing r with
  | nil =>
    rcases Line.read_cases l with ⟨_, -, -, hn, -⟩ | ⟨h, -, -⟩ | ⟨-, -, hn⟩
    · exact absurd hl hn
    · rw [List.nil_append, readLines, h]
    · exact absurd hl hn
  | cons x before ih =>
    obtain ⟨hs, he⟩ := hb x (by simp)
    rcases Line.read_cases x with ⟨line, h, -⟩ | ⟨-, h, -⟩ | ⟨-, h, -⟩
    · rw [List.cons_append, readLines, h]
      exact ih (fun y hy => hb y (by simp [hy])) _
    · exact absurd h hs
    · exact absurd h he

/-- Lines without a fault describe a response. -/
theorem exists_readLines {ls : List (List Char)} (h : ∀ l ∈ ls, ¬ Faulty l ∧ ¬ Endless l) :
    ∃ head, readLines .empty ls = .ok head ∧ Describes ls head := by
  rcases readLines_cases (r := .empty) (by decide) ls with
    ⟨head, hread, -⟩ | ⟨_, -, -, l, hl, hb⟩ | ⟨-, before, l, after, hsplit, he, -⟩
  · exact ⟨head, hread, by simpa using Describes.empty.readLines hread⟩
  · exact absurd (faulty_iff.2 hb) (h l hl).1
  · exact absurd he (h l (by simp [hsplit])).2

theorem applyOverride_origin {r r' : Response} {entries : List (Scalar × Value)}
    (h : applyOverride r entries = .ok r') : r'.origin = .code := by
  rw [applyOverride] at h
  cases hs : givenStatus? ((Value.field? "status" entries).getD .null) with
  | error f => rw [hs] at h; cases h
  | ok status => rw [hs] at h; cases h; rfl

end Definition

section
open Definition Text

/-- What a body leaves of the response that the head describes, and what it adds. -/
structure Completes (registry : Registry) (s : Setting) (body : List Char) (σ : Session)
    (head r : Response) : Prop where
  status : r.status = head.status
  headers : r.headers = head.headers
  delay : r.delay = head.delay
  template : r.origin = .template →
    r.file = none ∧ ((render registry s (String.ofList body)).runIn σ).1 = .ok r.body
  file : r.origin = .file →
    r.body = "" ∧ ∃ path, markedPath? body = some path ∧ r.file = some (String.ofList path)

theorem finish_completes {registry : Registry} {s : Setting} {head r : Response} {body : List Char}
    {σ : Session} (hb : head.body = "" ∧ head.file = none)
    (h : ((finish registry s head body).runIn σ).1 = .ok r) (ho : r.origin ≠ .code) :
    Completes registry s body σ head r := by
  rw [finish, Content.of] at h
  cases hov : overrideOf? body with
  | some entries =>
    simp only [hov, Work.runIn_ofExcept] at h
    exact absurd (applyOverride_origin h) ho
  | none =>
    cases hm : markedPath? body with
    | some path =>
      simp only [hov, hm] at h
      cases h
      exact ⟨rfl, rfl, rfl, by simp, fun _ => ⟨hb.1, path, hm, rfl⟩⟩
    | none =>
      simp only [hov, hm, Work.runIn_bind] at h
      rcases hr : (render registry s (String.ofList body)).runIn σ with ⟨f | text, τ⟩
      · rw [hr] at h
        cases h
      · rw [hr] at h
        cases h
        exact ⟨rfl, rfl, rfl, fun _ => ⟨hb.2, congrArg Prod.fst hr⟩, by simp⟩

/-- A rendered definition without an endless delay is read by its grammar: it fails at its first faulty
line, and else its head describes the response that its body completes. -/
theorem settle_grammar (registry : Registry) (s : Setting) (rendered : String) (σ : Session)
    (hends : ∀ l ∈ headOf (lines rendered.toList), ¬ Endless l) :
    let head := headOf (lines rendered.toList)
    let body := normalize (bodyOf (lines rendered.toList)).flatten
    let outcome := (settle registry s rendered).runIn σ
    ((∃ l ∈ head, Faulty l) →
      ∃ l ∈ head, Faulty l ∧ outcome = (.error (.failure ⟨.statusLine (String.ofList l), none⟩), σ)) ∧
    ((∀ l ∈ head, ¬ Faulty l) →
      ∃ described, Describes head described ∧ outcome = (finish registry s described body).runIn σ ∧
        ∀ r, outcome.1 = .ok r → r.origin ≠ .code → Completes registry s body σ described r) := by
  intro head body outcome
  have hrun : outcome = _ := settle_runIn registry s rendered σ
  have hends : ∀ l ∈ head, ¬ Endless l := hends
  constructor
  · intro hex
    obtain ⟨l, hfind⟩ := Option.ne_none_iff_exists'.1 fun hn : head.find? (decide <| LacksStatus ·) = none => by
      obtain ⟨l, hl, hf⟩ := hex
      simpa [faulty_iff.1 hf] using List.find?_eq_none.1 hn l hl
    obtain ⟨hl, before, after, hsplit, hfirst⟩ := List.find?_eq_some_iff_append.1 hfind
    have hlacks : LacksStatus l := by simpa using hl
    have hbefore : ∀ x ∈ before, ¬ LacksStatus x ∧ ¬ Endless x := fun x hx =>
      ⟨by simpa using hfirst x hx, hends x (by simp [hsplit, hx])⟩
    refine ⟨l, by simp [hsplit], faulty_iff.2 hlacks, ?_⟩
    rw [hrun, show headOf (lines rendered.toList) = before ++ l :: after from hsplit,
      readLines_of_faulty hlacks hbefore]
  · intro hno
    rcases readLines_cases (r := .empty) (by decide) head with ⟨r, hr, -⟩ | ⟨_, -, -, l, hl, hb⟩ | ⟨-, hs⟩
    · have hd : Describes head r := by simpa using Describes.empty.readLines hr
      have hout : outcome = (finish registry s r body).runIn σ := by rw [hrun, hr]; rfl
      refine ⟨r, hd, hout, fun a ha ho => finish_completes ⟨hd.blank.1, hd.blank.2.1⟩ ?_ ho⟩
      rw [← hout]
      exact ha
    · exact absurd (faulty_iff.2 hb) (hno l hl)
    · obtain ⟨before, l, after, hsplit, he, -⟩ := hs
      exact absurd he (hends l (by simp [hsplit]))

theorem settle_grammar_twice :
    let rendered := "HTTP/1.1 200 OK\nA: 1\nB: 2\nHTTP/2 x 404 5\nA: 3\nResponse-Delay: 7.9\n\nhi \n b"
    let head := headOf (lines rendered.toList)
    (∀ l ∈ head, ¬ Endless l) ∧ (∀ l ∈ head, ¬ Faulty l) ∧
    Describes head ⟨404, [("A", "3"), ("B", "2")], "", none, 7, .template⟩ := by
  intro rendered head
  let s := Setting.still ⟨.directory [], ⟨true, []⟩⟩ (.simple "GET" "/")
  have hends : ∀ l ∈ head, ¬ Endless l := by decide +kernel
  have hno : ∀ l ∈ head, ¬ Faulty l := by decide +kernel
  have hr : ((settle [] s rendered).runIn (.fresh true 1000 0)).1 =
      .ok ⟨404, [("A", "3"), ("B", "2")], "hi b", none, 7, .template⟩ := by decide +kernel
  obtain ⟨d, hd, -, hall⟩ := (settle_grammar [] s rendered (.fresh true 1000 0) hends).2 hno
  obtain ⟨h1, h2, h3, -, -⟩ := hall _ hr (by decide)
  obtain ⟨h4, h5, h6⟩ := hd.blank
  refine ⟨hends, hno, ?_⟩
  obtain ⟨status, headers, body, file, delay, origin⟩ := d
  simp only at h1 h2 h3 h4 h5 h6
  subst h1 h2 h3 h4 h5 h6
  exact hd

end
end MockTree
