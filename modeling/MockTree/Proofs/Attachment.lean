import MockTree.Directive.Standard
import MockTree.Proofs.FileTag
import MockTree.Proofs.Override

/-! A file as the body of a response. The tag for it prints a mark with its path, and the mark goes through
the lines and blanks of a body before the path is read off it. -/
namespace MockTree
namespace Template

theorem printNodes_texts (f : Frame) (here : Datum) {n : Node} {t : List Char}
    (hn : printNode f here n = pure t) (texts : List (List Char)) :
    printNodes f here (texts.map Node.text ++ [n]) = pure (texts.flatten ++ t) := by
  induction texts with
  | nil =>
    rw [List.map_nil, List.nil_append, printNodes, hn, pure_bind, printNodes, pure_bind, List.append_nil]
    rfl
  | cons x texts ih =>
    rw [List.map_cons, List.cons_append, printNodes, ih, printNode, pure_bind, pure_bind]
    simp

end Template

open Text Template Grammar Definition Directive

theorem FileTree.not_mem_of_isFile {t : FileTree} {f : Path} (h : t.isFile f = .ok true) :
    '\x00' ∉ f.text.toList := by
  obtain ⟨content, hfind⟩ := Engine.isFile_eq_true h
  intro hnull
  rw [FileTree.find, if_pos (by simpa using hnull)] at hfind
  cases hfind

/-- The tag prints the mark of its file, if that is there. -/
theorem printNode_fileNode {f : Frame} (hfile : f.registry.find? "file" = some Directive.attachment) (here : Datum)
    {path : Path} (hr : path.Resolved) (hthere : f.setting.files.isFile path = .ok true) :
    printNode f here (fileNode path.text.toList) = pure (attachmentMark ++ path.text.toList) := by
  have hnull := FileTree.not_mem_of_isFile hthere
  have hattached : attached f.setting.files (.value (.text path.text)) =
      .ok (.safe (attachmentMark ++ path.text.toList)) := by
    have hresolve : f.setting.files.resolve? (.ofString (String.ofList (Datum.value (.text path.text)).plain)) =
        .ok path := by
      rw [show (Datum.value (.text path.text)).plain = path.text.toList from rfl, String.ofList_toList,
        hr.ofString_text, FileTree.resolve?, if_neg (by simpa using hnull), FileTree.resolve, hr.resolve]
    rw [attached, if_neg (by simp [Directive.isNull]), hresolve]
    simp only [Bind.bind, Except.bind, hthere, if_true]
    rfl
  have hnamed : namedArguments f here [("path", .literal (.text path.text))] =
      pure [("path", .value (.text path.text))] := by
    simp [namedArguments, Template.argument]
  have hget : attachmentSignature.get "path" [("path", .value (.text path.text))] = .value (.text path.text) := rfl
  have hdatum : tagDatum f here ["file"] ⟨[], [("path", .literal (.text path.text))]⟩ =
      pure (.safe (attachmentMark ++ path.text.toList)) := by
    simp only [tagDatum, directive?, hfile, invokeWith, positionalArguments, hnamed, pure_bind, invoke, attachment, hget,
      hattached]
    rfl
  rw [fileNode, String.ofList_toList, printNode, hdatum, pure_bind]
  rfl

/-- A path that stays as it is behind a mark in a body: it holds no mark's end, no blanks but single spaces,
and none at its end. -/
structure Steadfast (p : List Char) : Prop where
  semicolon : ';' ∉ p
  squeezed : Squeezed p
  last : ∀ c ∈ p.getLast?, isBlank c = false

theorem markedPath?_mark {p : List Char} (hp : Steadfast p) (hne : p ≠ []) :
    markedPath? (attachmentMark ++ p) = some (trim p) := by
  have hafter : after? attachmentMark (attachmentMark ++ p) = some p := after?_eq_some.2 rfl
  have htake : p.takeWhile (· != ';') = p := List.takeWhile_eq_self_iff.2 fun c hc => by
    rw [bne_iff_ne]
    rintro rfl
    exact hp.semicolon hc
  rw [show attachmentMark ++ p = 'c' :: ("amouflage_file_helper;".toList ++ p) from rfl, markedPath?,
    show 'c' :: ("amouflage_file_helper;".toList ++ p) = attachmentMark ++ p from rfl, hafter]
  simp only [htake]
  rw [if_neg (by simpa using hne)]

/-- A mark with a steadfast path is a body as it stands. -/
theorem normalize_mark {p : List Char} (hp : Steadfast p) (hne : p ≠ []) (hopen : '\x7b' ∉ p)
    (hclose : '\x7d' ∉ p) : Definition.normalize (attachmentMark ++ p) = attachmentMark ++ p := by
  have hmark : Squeezed attachmentMark := squeezed_of_not_blank (forall_of_all (by decide))
  have hlast : ∀ c ∈ (attachmentMark ++ p).getLast?, isBlank c = false := by
    rw [List.getLast?_append_of_ne_nil _ hne]
    exact hp.last
  have hsqueeze : squeeze (attachmentMark ++ p) = attachmentMark ++ p := by
    have hs := squeeze_append hp.squeezed hp.last []
    rw [List.append_nil, show squeeze [] = [] from rfl, List.append_nil] at hs
    rw [squeeze_append hmark (by rintro c ⟨⟩; rfl), hs]
  have hpart : ∀ {c : Char} {w new : List Char}, c ∈ w → c ∉ attachmentMark ++ p →
      replaceFirst w new (attachmentMark ++ p) = attachmentMark ++ p := by
    intro c w new hw hc
    rw [replaceFirst, cutText?_eq_none fun hi => hc (hi.subset hw)]
  rw [Definition.normalize, hsqueeze, trim_of_edges (by rintro c ⟨⟩; rfl) hlast, partBraces,
    hpart (c := '\x7b') (by decide) fun hm => (List.mem_append.1 hm).elim (by decide) hopen,
    hpart (c := '\x7d') (by decide) fun hm => (List.mem_append.1 hm).elim (by decide) hclose]

/-- A definition of plain lines and the tag for a file is answered with that file, its path as it stands. -/
theorem compile_fileTag {registry : Registry} (hfile : registry.find? "file" = some Directive.attachment)
    (s : Setting) {σ : Session} (hσ : σ.Sound) {f : Path} (hr : f.Resolved)
    (hthere : s.files.isFile f = .ok true) (hq : Quotable f.text.toList) (hs : Steadfast f.text.toList)
    {block : List Char} (hblock : ∀ l ∈ lines block, (trim l).isEmpty = false ∧ ¬ Faulty l ∧ ¬ Endless l)
    (hplain : Tagless block) :
    ∃ head, Describes (lines block) head ∧
      ((compile registry s (String.ofList (block ++ "\n\n".toList ++ fileTag f.text.toList))).runIn σ).1 =
        .ok { head with body := "", file := some f.text, origin := .file } := by
  have htext := Path.text_toList hr.absolute
  have hne : f.text.toList ≠ [] := by simp [htext]
  have hlines := fun l hl => (hblock l hl).1
  -- The first rendering leaves the head as it is and puts a mark into the body.
  obtain ⟨texts, hflat, hread⟩ := read_fileTag hlines hplain hq (FileTree.not_mem_of_isFile hthere)
  have hprint := printNodes_texts ⟨s, registry, rootOf s⟩ (rootOf s)
    (printNode_fileNode hfile (rootOf s) hr hthere) texts
  obtain ⟨τ, -, hrender⟩ := render_of_read hread hprint hσ
  rw [hflat] at hrender
  -- What is rendered is read as the head and the mark.
  have hends : ∀ c ∈ attachmentMark ++ f.text.toList, isLineEnd c = false := by
    have hmark : ∀ c ∈ attachmentMark, isLineEnd c = false := forall_of_all (by decide)
    intro c hc
    rcases List.mem_append.1 hc with hc | hc
    · exact hmark c hc
    · rw [← Bool.not_eq_true]
      intro hl
      obtain ⟨a, b, hab⟩ := List.append_of_mem hc
      obtain ⟨rfl, -⟩ := hs.squeezed a c b hab (Json.isBlank_of_isLineEnd hl)
      cases hl
  obtain ⟨hheads, hbody⟩ := split_document hlines hends (List.append_ne_nil_of_right_ne_nil _ hne)
  rw [normalize_mark hs hne hq.opening hq.closing] at hbody
  have htrim : trim f.text.toList = f.text.toList := by
    refine trim_of_edges (fun c hc => ?_) hs.last
    rw [htext] at hc
    cases hc
    rfl
  have hover : overrideOf? (attachmentMark ++ f.text.toList) = none :=
    overrideOf?_eq_none fun hm => (List.mem_append.1 hm).elim (by decide) hq.quote
  obtain ⟨head, hhead, hdescribes⟩ := exists_readLines fun l hl => (hblock l hl).2
  refine ⟨head, hdescribes, ?_⟩
  rw [compile, Work.runIn_bind_ok hrender, settle_runIn, String.toList_ofList, hheads, hhead, hbody]
  simp only [finish, Content.of, hover, markedPath?_mark hs hne, htrim, String.ofList_toList, ← hdescribes.blank.1]
  rfl

/-- A tree with nothing in it but a file. -/
def fileAlone (name : String) : FileTree := ⟨.directory [(name, .file [120])], ⟨true, []⟩⟩

theorem compile_fileTag_spaced :
    let s := Setting.still (fileAlone "it's a \\file.txt") (.simple "GET" "/")
    let f : Path := ⟨true, ["it's a \\file.txt"]⟩
    let block := "HTTP/1.1 201 Created\nX-A: \x7b1\x7d\nResponse-Delay: 5".toList
    Directive.standard.find? "file" = some Directive.attachment ∧ f.Resolved ∧ s.files.isFile f = .ok true ∧
    Quotable f.text.toList ∧ Steadfast f.text.toList ∧
    (∀ l ∈ lines block, (trim l).isEmpty = false ∧ ¬ Faulty l ∧ ¬ Endless l) ∧ Tagless block ∧
    ∃ head, Describes (lines block) head ∧
      ((compile Directive.standard s (String.ofList (block ++ "\n\n".toList ++ fileTag f.text.toList))).runIn
          (.fresh true 1000 0)).1 =
        .ok { head with body := "", file := some f.text, origin := .file } := by
  intro s f block
  have hfile : Directive.standard.find? "file" = some Directive.attachment := rfl
  have hr : f.Resolved := ⟨rfl, by decide +kernel⟩
  have hthere : s.files.isFile f = .ok true := by decide +kernel
  have hq : Quotable f.text.toList := by
    refine ⟨by decide +kernel, by decide +kernel, by decide +kernel, by decide +kernel, fun c _ hi => ?_⟩
    have hword : "from=".toList <:+: f.text.toList := (List.suffix_cons c _).isInfix.trans hi
    exact absurd hword (by decide +kernel)
  have hs : Steadfast f.text.toList := by
    have hlast : f.text.toList.getLast? = some 't' := by decide +kernel
    refine ⟨by decide +kernel, by decide +kernel, ?_⟩
    rw [hlast]
    rintro c ⟨⟩
    rfl
  have hblock : ∀ l ∈ lines block, (trim l).isEmpty = false ∧ ¬ Faulty l ∧ ¬ Endless l := by decide +kernel
  have hplain : Tagless block := ⟨by decide +kernel, by decide +kernel⟩
  exact ⟨hfile, hr, hthere, hq, hs, hblock, hplain,
    compile_fileTag hfile s (Session.sound_fresh true 1000 0) hr hthere hq hs hblock hplain⟩

/-- What comes of a definition with nothing but a status and the tag for such a file. -/
def attachedAlone (name : String) : Except Fault Response :=
  let source := "HTTP/1.1 200 OK".toList ++ "\n\n".toList ++ fileTag ('/' :: name.toList)
  ((compile Directive.standard (.still (fileAlone name) (.simple "GET" "/")) (String.ofList source)).runIn
    (.fresh true 1000 0)).1

/-- Two spaces side by side become one, and a semicolon ends the path. -/
theorem compile_fileTag_altered :
    (∀ name ∈ ["a  b", "a;b"], (fileAlone name).isFile ⟨true, [name]⟩ = .ok true ∧ IsName name ∧
      (name.toList.all fun c => !(['"', '\x7b', '\x7d'].contains c) && !isLineEnd c) = true) ∧
    attachedAlone "a  b" = .ok ⟨200, [], "", some "/a b", 0, .file⟩ ∧ "/a b" ≠ "/a  b" ∧
    attachedAlone "a;b" = .ok ⟨200, [], "", some "/a", 0, .file⟩ ∧ "/a" ≠ "/a;b" :=
  ⟨by decide +kernel, by decide +kernel, by decide, by decide +kernel, by decide⟩

end MockTree
