import MockTree.Proofs.JsonBody
import MockTree.Proofs.Shape
import MockTree.Proofs.Words

/-! A body that shows a part of the query. What is shown goes through a template once more, so it is shown
as it was sent if that finds no tag in it, not the edge of one and no mark of a file. -/
namespace MockTree
open Text Json Template Definition Directive

theorem Template.Grammar.Tagless.normalize_escape {s : List Char} (h : Grammar.Tagless s) :
    Grammar.Tagless (Definition.normalize (escape s)) :=
  ⟨fun hi => h.opening (infix_of_infix_escape (by decide) (by decide)
      (infix_of_infix_normalize (forall_of_all (by decide)) hi)),
    fun hi => h.tilde (infix_of_infix_escape (by decide) (by decide)
      (infix_of_infix_normalize (forall_of_all (by decide)) hi))⟩

theorem not_mark_normalize_escape {s : List Char} (h : ¬ attachmentMark <:+: s) :
    ¬ attachmentMark <:+: Definition.normalize (escape s) := fun hi =>
  h (infix_of_infix_escape (c := 'c') (by decide) (by decide)
    (infix_of_infix_normalize (forall_of_all (by decide)) hi))

/-- The definition whose body is what the query has under a key. -/
def echo : List Char := bareDefinition "\x7b\x7bcapture from=\"query\" key=\"q\"\x7d\x7d".toList

theorem symbols?_echo : symbols? echo = some ((bareDefinition []).map .char ++ [.hole "q"]) := by
  decide +kernel

/-- What the query has under the key is shown as it was sent, escaped and but for its blanks: if it has no
tag of a template, not the edge of one and no mark of a file once its lines are joined. -/
theorem compile_echo {registry : Registry} (hcap : registry.find? "capture" = some Directive.capture)
    (s : Setting) {σ : Session} (hσ : σ.Sound) {v : Value}
    (hv : Request.named? "q" s.request.query = some v)
    (htagless : Grammar.Tagless ((Body.stringify v).filter (!isLineEnd ·)))
    (hmark : ¬ attachmentMark <:+: (Body.stringify v).filter (!isLineEnd ·)) :
    ∃ body, ((compile registry s (String.ofList echo)).runIn σ).1 = .ok ⟨200, [], body, none, 0, .template⟩ ∧
      body.toList.filter (!isBlank ·) = (escape (Body.stringify v)).filter (!isBlank ·) := by
  let sent := Body.stringify v
  let body := Definition.normalize (escape (sent.filter (!isLineEnd ·)))
  -- The first rendering puts the text, escaped, behind the head.
  obtain ⟨τ, hτ, hrender⟩ := render_of_symbols? hcap symbols?_echo s hσ
  have hfill : fill s.request.query ((bareDefinition []).map .char ++ [.hole "q"]) =
      bareDefinition (escape sent) := by
    rw [fill_append, fill_chars, fill_cons, fill_nil, List.append_nil, Symbol.fill, hv]
    rfl
  have hlines : Definition.normalize (lines (escape sent)).flatten = body := by
    rw [flatten_lines, filter_escape (forall_of_all (by decide))]
  -- The second one finds nothing to do in it.
  have hbody : Grammar.Tagless body := htagless.normalize_escape
  obtain ⟨υ, -, hagain⟩ : ∃ υ, υ.Sound ∧
      (render registry s (String.ofList body)).runIn τ = (.ok (String.ofList body), υ) := by
    cases hb : body with
    | nil => exact render_of_read Grammar.read_nil rfl hτ
    | cons c r =>
      have hc : c ∈ body.head? := by rw [hb]; rfl
      rw [← hb]
      exact render_of_tagless registry s hτ hbody hc (head?_normalize hc)
  have hquote : '"' ∉ body := fun hm => by
    obtain ⟨a, b, hb⟩ := List.append_of_mem hm
    have hword : ['"'] <:+: body := ⟨a, b, by simp [hb]⟩
    exact not_mem_escape (c := '"') (by decide) _
      ((infix_of_infix_normalize (forall_of_all (by decide)) hword).subset (by simp))
  have hout : (compile registry s (String.ofList echo)).runIn σ =
      (.ok ⟨200, [], String.ofList body, none, 0, .template⟩, υ) := by
    rw [compile, Work.runIn_bind_ok hrender, hfill, settle_bareDefinition, hlines, finish, Content.of,
      overrideOf?_eq_none hquote, markedPath?_eq_none (not_mark_normalize_escape hmark)]
    simp only [Work.runIn_bind_ok hagain]
    rfl
  refine ⟨String.ofList body, congrArg Prod.fst hout, ?_⟩
  have hjoin : (sent.filter (!isLineEnd ·)).filter (!isBlank ·) = sent.filter (!isBlank ·) := by
    rw [List.filter_filter]
    refine List.filter_congr fun c _ => ?_
    cases hc : isLineEnd c
    · simp
    · simp [isBlank_of_isLineEnd hc]
  rw [String.toList_ofList, filter_normalize, filter_escape (forall_of_all (by decide)), hjoin,
    ← filter_escape (forall_of_all (by decide))]

/-- A text of markup over two lines, with braces that are no tags. -/
def markup : String := "a <b> &\n\x7b ~ \x7d\x7d \"camouflage_file_helper\""

theorem compile_echo_markup :
    let s := (Setting.still ⟨.directory [], ⟨true, []⟩⟩ (.simple "GET" "/")).asking [("q", .text markup)]
    Directive.standard.find? "capture" = some Directive.capture ∧
    Request.named? "q" s.request.query = some (.text markup) ∧
    Grammar.Tagless ((Body.stringify (.text markup)).filter (!isLineEnd ·)) ∧
    ¬ attachmentMark <:+: (Body.stringify (.text markup)).filter (!isLineEnd ·) ∧
    ∃ body, ((compile Directive.standard s (String.ofList echo)).runIn (.fresh true 1000 0)).1 =
        .ok ⟨200, [], body, none, 0, .template⟩ ∧
      body.toList.filter (!isBlank ·) = (escape (Body.stringify (.text markup))).filter (!isBlank ·) := by
  intro s
  have hcap : Directive.standard.find? "capture" = some Directive.capture := rfl
  have hv : Request.named? "q" s.request.query = some (.text markup) := rfl
  have htagless : Grammar.Tagless ((Body.stringify (.text markup)).filter (!isLineEnd ·)) :=
    ⟨by decide +kernel, by decide +kernel⟩
  have hmark : ¬ attachmentMark <:+: (Body.stringify (.text markup)).filter (!isLineEnd ·) := by
    decide +kernel
  exact ⟨hcap, hv, htagless, hmark, compile_echo hcap s (Session.sound_fresh true 1000 0) hv htagless hmark⟩

/-- What comes of the definition when the query has a text under the key. -/
def echoed (sent : String) : Except Fault Response :=
  let s := Setting.still ⟨.directory [], ⟨true, []⟩⟩ (.simple "GET" "/")
  ((compile Directive.standard (s.asking [("q", .text sent)]) (String.ofList echo)).runIn (.fresh true 1000 0)).1

/-- A tag that is sent is carried out, also when a line end parts its braces; an edge of a tag loses its
tilde; and a mark that a line end parts names a file. -/
theorem compile_echo_executed :
    ¬ attachmentMark <:+: "\x7b\x7brequest.method\x7d\x7d".toList ∧
    echoed "\x7b\x7brequest.method\x7d\x7d" = .ok ⟨200, [], "GET", none, 0, .template⟩ ∧
    "GET".toList.filter (!isBlank ·) ≠ (escape "\x7b\x7brequest.method\x7d\x7d".toList).filter (!isBlank ·) ∧
    echoed "\x7b\n\x7brequest.method\x7d\x7d" = .ok ⟨200, [], "GET", none, 0, .template⟩ ∧
    echoed "a~\x7d\x7d" = .ok ⟨200, [], "a\x7d\x7d", none, 0, .template⟩ ∧
    echoed "camouflage_file_\nhelper;/a" = .ok ⟨200, [], "", some "/a", 0, .file⟩ :=
  ⟨by decide +kernel, by decide +kernel, by decide +kernel, by decide +kernel, by decide +kernel,
    by decide +kernel⟩

end MockTree
