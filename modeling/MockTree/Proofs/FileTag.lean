import MockTree.Proofs.Rules
import MockTree.Proofs.Words

/-! The tag that names a file, as it is read. Behind plain text it is the one tag of a definition, and its
path stands for itself if no character of it means something else between quotes. -/
namespace MockTree.Template.Grammar
open Text Rule

/-- The tag for a file whose path stands in its quotes. -/
def fileTag (p : List Char) : List Char :=
  openBraces ++ ("file path=\"".toList ++ (p ++ ['"']) ++ closeBraces)

/-- What the tag is read as. -/
def fileNode (p : List Char) : Node :=
  .print true ["file"] ⟨[], [("path", .literal (.text (String.ofList p)))]⟩

/-- No backslash stands before a quote, also not the one that closes the text. -/
def Unescaped (p : List Char) : Prop := ∀ a b, p = a ++ '\\' :: b → ∃ c ∈ b.head?, c ≠ '\''

theorem Unescaped.of_cons {c : Char} {p : List Char} (h : Unescaped (c :: p)) : Unescaped p :=
  fun a b hp => h (c :: a) b (by simp [hp])

theorem unescaped_cons {c : Char} {p : List Char} :
    Unescaped (c :: p) ↔ (c = '\\' → p.head?.any (· != '\'') = true) ∧ Unescaped p := by
  have hhead : (∃ d ∈ p.head?, d ≠ '\'') ↔ p.head?.any (· != '\'') = true := by
    cases p <;> simp
  refine ⟨fun h => ⟨?_, h.of_cons⟩, fun ⟨hc, hp⟩ a b hab => ?_⟩
  · rintro rfl
    exact hhead.1 (h [] p rfl)
  · cases a with
    | nil =>
      obtain ⟨rfl, rfl⟩ := List.cons.inj hab
      exact hhead.2 (hc rfl)
    | cons d a => exact hp a b (List.cons.inj hab).2

instance decidableUnescaped : DecidablePred Unescaped
  | [] => .isTrue fun a b hab => absurd hab (by simp)
  | c :: p =>
    have := decidableUnescaped p
    decidable_of_iff' _ unescaped_cons

/-- Between quotes each character is taken for itself. -/
theorem reads_many_quoted {p : List Char} (hq : '"' ∉ p) (hb : Unescaped p) {n : Nat} (hn : p.length ≤ n)
    (t : List Char) :
    Reads (many (quotedText.escapedQuote <|> satisfy (· != '"')) n) p p ('"' :: t) := by
  induction p generalizing n with
  | nil =>
    refine reads_many_nil (Refuses.orElse ?_ (refuses_satisfy ?_)) n
    · exact (refuses_char (by simp)).bind _
    · rintro c ⟨⟩
      rfl
  | cons c p ih =>
    simp only [List.mem_cons, not_or] at hq
    obtain ⟨n, rfl⟩ : ∃ k, n = k + 1 := ⟨n - 1, by simp only [List.length_cons] at hn; omega⟩
    have hescape : Refuses quotedText.escapedQuote (c :: (p ++ '"' :: t)) := by
      by_cases hc : c = '\\'
      · subst hc
        obtain ⟨d, hd, hquote⟩ := hb [] p rfl
        obtain ⟨r, rfl⟩ := List.head?_eq_some_iff.1 hd
        refine (reads_char '\\' _).bind_refuses (refuses_satisfy ?_)
        rintro e ⟨⟩
        have hdouble : d ≠ '"' := fun he => hq.2 (by simp [he])
        simp [hdouble, hquote]
      · exact (refuses_char (by simp [hc])).bind _
    have hone : Reads (quotedText.escapedQuote <|> satisfy (· != '"')) [c] c (p ++ '"' :: t) :=
      hescape.orElse_reads (reads_satisfy (by simpa using Ne.symm hq.1) _)
    exact reads_many_cons hone (ih hq.2 hb.of_cons (by simpa using hn))

theorem reads_quotedText {p : List Char} (hq : '"' ∉ p) (hb : Unescaped p) (t : List Char) :
    Reads (quotedText '"') ('"' :: (p ++ ['"'])) p t := by
  rw [quotedText]
  refine (reads_char '"' _).bind ((reads_remaining _).then ?_)
  have hmany := reads_many_quoted hq hb (n := (p ++ ['"'] ++ t).length) (by simp) t
  have hclose : Reads (do char '"'; pure p) ['"'] p t :=
    (reads_char '"' t).bind (k := fun _ => pure p) (.pure p t)
  exact hmany.bind hclose

theorem reads_literal {p : List Char} (hq : '"' ∉ p) (hb : Unescaped p) (t : List Char) :
    Reads literal ('"' :: (p ++ ['"'])) (.text (String.ofList p)) t :=
  ((reads_quotedText hq hb t).bind_pure (f := fun s => Scalar.text (String.ofList s))).orElse _

theorem refuses_elseInner {c : Char} {s : List Char} (hb : isBlank c = false) (hc : c ≠ '^') (he : c ≠ 'e') :
    Refuses elseInner (c :: s) := by
  rw [elseInner]
  have h : Refuses (char '^' <|> Rule.text "else".toList) (c :: s) :=
    (refuses_char (by simpa using hc)).orElse (refuses_text (c := 'e') (by simpa using he) "lse".toList)
  exact (reads_spaces (t := c :: s) (by rintro d ⟨⟩; exact hb)).bind_refuses (h.bind _)

theorem reads_optional {x : Char} {t : List Char} (h : x ∉ t.head?) : Reads (optional x) [] () t :=
  (refuses_char h).orElse_reads (reads_seeHere t)

theorem reads_argumentName {t : List Char} :
    Reads argumentName "path".toList "path".toList ('=' :: t) := by
  rw [argumentName]
  refine (reads_lacking (refuses_elseInner (by decide) (by decide) (by decide))).then ?_
  refine (reads_optional (by simp)).then ?_
  refine Reads.bind (u := ['p']) (reads_satisfy (by decide) _) ?_
  have hrun : Reads (run1 isWordChar) "ath".toList "ath".toList ('=' :: t) :=
    reads_run1 (by decide) (forall_of_all (by decide)) (by rintro c ⟨⟩; decide)
  refine hrun.last ?_
  exact (reads_optional (by simp)).then (.pure _ _)

theorem reads_argument {p : List Char} (hq : '"' ∉ p) (hb : Unescaped p) (fuel : Nat) (t : List Char) :
    Reads (argument (fuel + 1)) ("path=\"".toList ++ (p ++ ['"']))
      (.named "path" (.literal (.text (String.ofList p)))) t := by
  rw [argument]
  refine Reads.orElse ?_ _
  refine Reads.bind (u := "path".toList) reads_argumentName ?_
  refine Reads.bind (u := ['=']) (reads_char '=' _) ?_
  refine Reads.bind_pure (f := fun a => Written.named "path" a) ?_
  exact ((reads_literal hq hb t).bind_pure (f := Argument.literal)).orElse _

theorem reads_writtenArguments {p : List Char} (hq : '"' ∉ p) (hb : Unescaped p) (t : List Char) :
    Reads writtenArguments (" path=\"".toList ++ (p ++ ['"']))
      [.named "path" (.literal (.text (String.ofList p)))] ('\x7d' :: t) := by
  rw [writtenArguments]
  refine (reads_remaining _).then ?_
  generalize hn : (" path=\"".toList ++ (p ++ ['"']) ++ '\x7d' :: t).length = n
  obtain ⟨k, rfl⟩ : ∃ k, n = k + 1 := ⟨n - 1, by simp at hn; omega⟩
  have hone : Reads (do let _ ← run1 isGap; argument (k + 1 + 1)) (" path=\"".toList ++ (p ++ ['"']))
      (.named "path" (.literal (.text (String.ofList p)))) ('\x7d' :: t) :=
    Reads.bind (u := [' ']) (reads_run1 (by decide) (forall_of_all (by decide)) (by rintro c ⟨⟩; decide))
      (reads_argument hq hb (k + 1) _)
  have hend : Refuses (do let _ ← run1 isGap; argument (k + 1 + 1)) ('\x7d' :: t) :=
    (refuses_run1 (by rintro c ⟨⟩; decide)).bind _
  have hmany := reads_many_cons (v := []) hone (reads_many_nil hend k)
  rwa [List.append_nil] at hmany

theorem reads_symbol (t : List Char) : Reads symbol "file".toList "file".toList (' ' :: t) := by
  rw [symbol]
  refine (reads_lacking (refuses_elseInner (by decide) (by decide) (by decide))).then ?_
  refine (reads_optional (by simp)).then ?_
  have hrun : Reads (run1 isSymbolChar) "file".toList "file".toList (' ' :: t) :=
    reads_run1 (by decide) (forall_of_all (by decide)) (by rintro c ⟨⟩; decide)
  exact hrun.last ((reads_optional (by simp)).then (.pure _ _))

theorem reads_segment (t : List Char) : Reads segment "file".toList "file" (' ' :: t) := by
  rw [segment]
  refine Refuses.orElse_reads ((refuses_char (by simp)).bind _) ?_
  refine Refuses.orElse_reads ((refuses_text (c := '@') (by simp) "../".toList).bind _) ?_
  exact ((reads_symbol t).bind_pure (f := fun s => String.ofList s)).orElse _

/-- No name begins with a blank. -/
theorem refuses_symbol (t : List Char) : Refuses symbol (' ' :: t) := by
  rw [symbol]
  refine Refuses.lacking ?_ _
  refine (reads_optional (by simp)).bind_refuses ?_
  exact (refuses_run1 (by rintro c ⟨⟩; decide)).bind _

theorem refuses_segment (t : List Char) : Refuses segment (' ' :: t) := by
  rw [segment]
  refine .orElse ((refuses_char (by simp)).bind _) ?_
  refine .orElse ((refuses_text (c := '@') (by simp) "../".toList).bind _) ?_
  refine .orElse ((refuses_symbol t).bind _) ?_
  refine .orElse ((refuses_char (by simp)).bind _) ?_
  refine .orElse ((refuses_text (c := '.') (by simp) "./".toList).bind _) ?_
  exact (refuses_char (by simp)).bind _

theorem reads_path (t : List Char) : Reads path "file".toList ["file"] (' ' :: t) := by
  rw [path]
  refine (reads_lacking (refuses_char (by simp))).then ?_
  refine (reads_remaining _).then ?_
  generalize hn : ("file".toList ++ ' ' :: t).length = n
  obtain ⟨k, rfl⟩ : ∃ k, n = k + 1 := ⟨n - 1, by simp at hn; omega⟩
  have hmany : Reads (many segment (k + 1)) ("file".toList ++ []) ["file"] (' ' :: t) :=
    reads_many_cons (reads_segment t) (reads_many_nil (refuses_segment t) k)
  exact hmany.bind (v := []) (.pure _ _)

theorem reads_arguments {p : List Char} (hq : '"' ∉ p) (hb : Unescaped p) (hnull : '\x00' ∉ p) (t : List Char) :
    Reads arguments (" path=\"".toList ++ (p ++ ['"']))
      (⟨[], [("path", .literal (.text (String.ofList p)))]⟩, true) ('\x7d' :: t) := by
  have hfits : hasNull (String.ofList p) = false := by simpa [hasNull] using hnull
  have h := (reads_writtenArguments hq hb t).bind_pure (f := fun ws =>
    (Written.gather ws, !outOfOrder false ws &&
      argumentFits (.call "" (Written.gather ws).positional (Written.gather ws).named)))
  have hval : (!outOfOrder false [Written.named "path" (.literal (.text (String.ofList p)))] &&
      argumentFits (.call "" [] [("path", .literal (.text (String.ofList p)))])) = true := by
    simp [outOfOrder, argumentFits, argumentsFit, namedFit, hfits, namesAreDistinct, reservedNames]
  rw [← hval]
  exact h

section
variable {p : List Char} (hq : '"' ∉ p) (hb : Unescaped p) (hnull : '\x00' ∉ p)
include hq hb hnull

/-- The piece that the tag is read as. -/
theorem reads_shown (t : List Char) :
    Reads (shown true) ("file path=\"".toList ++ (p ++ ['"']))
      ⟨some (fileNode p), true⟩ ('\x7d' :: t) := by
  rw [shown]
  refine (reads_spaces (by rintro c ⟨⟩; decide)).then ?_
  refine Reads.bind (u := "file".toList) (reads_path _) ?_
  refine Reads.last (reads_arguments hq hb hnull t) ?_
  exact (reads_spaces (by rintro c ⟨⟩; decide)).then (.pure _ _)

theorem reads_tag (fuel : Nat) (t : List Char) :
    Reads (tag (fuel + 1)) (fileTag p) ⟨some (fileNode p), true⟩ t := by
  have hblock : ∀ mark, mark ≠ 'f' → Refuses (block fuel mark) (fileTag p ++ t) := by
    intro mark hm
    cases fuel with
    | zero => rw [block]; exact refuses_fail _
    | succ fuel =>
      rw [block, fileTag, List.append_assoc]
      refine Reads.bind_refuses (reads_text openBraces _) ((refuses_char ?_).bind _)
      simpa using Ne.symm hm
  have hcomment : Refuses comment (fileTag p ++ t) := by
    rw [comment, fileTag, List.append_assoc]
    exact Reads.bind_refuses (reads_text openBraces _) ((refuses_char (by simp)).bind _)
  have hescaped : Reads escapedTag (fileTag p) ⟨some (fileNode p), true⟩ t := by
    rw [escapedTag, fileTag]
    refine Reads.bind (reads_text openBraces _) ?_
    refine Reads.bind (reads_shown hq hb hnull _) ?_
    exact (reads_text closeBraces t).last (.pure _ _)
  rw [tag]
  exact (hblock '#' (by decide)).orElse_reads <| (hblock '^' (by decide)).orElse_reads <|
    hcomment.orElse_reads <| hescaped.orElse _

end

/-- A text of lines that are not blank opens with blanks within its first line at most. -/
theorem exists_opening {block : List Char} (hb : ∀ l ∈ lines block, (trim l).isEmpty = false)
    (hne : block ≠ []) :
    ∃ gap c r, block = gap ++ c :: r ∧ (∀ d ∈ gap, isInline d = true) ∧ isInline c = false ∧
      isLineEnd c = false := by
  have hgap : ∀ d ∈ block.takeWhile isInline, isInline d = true := fun d hd => List.mem_takeWhile_imp hd
  have hblank : ∀ d ∈ block.takeWhile isInline, isBlank d = true := fun d hd => by
    have := hgap d hd
    simp only [isInline, Bool.or_eq_true, beq_iff_eq] at this
    rcases this with rfl | rfl <;> decide
  have hinside : ∀ d ∈ block.takeWhile isInline, isLineEnd d = false := fun d hd => by
    have := hgap d hd
    simp only [isInline, Bool.or_eq_true, beq_iff_eq] at this
    rcases this with rfl | rfl <;> decide
  have hline : block.takeWhile isInline ∉ lines block := fun hm => by
    have := hb _ hm
    rw [trim_isEmpty, List.all_eq_false] at this
    obtain ⟨d, hd, hn⟩ := this
    exact hn (hblank d hd)
  have hsplit := List.takeWhile_append_dropWhile (p := isInline) (l := block)
  cases hd : block.dropWhile isInline with
  | nil =>
    rw [hd, List.append_nil] at hsplit
    rw [hsplit] at hline hinside
    exact absurd (by simp [lines_of_not_lineEnd hinside hne]) hline
  | cons c r =>
    rw [hd] at hsplit
    have hc : isInline c = false := by
      have := List.head?_dropWhile_not isInline block
      simpa [hd] using this
    refine ⟨_, c, r, hsplit.symm, hgap, hc, ?_⟩
    rw [← Bool.not_eq_true]
    intro hl
    obtain ⟨rest, hrest⟩ := exists_linesFrom_lineEnd hl ((block.takeWhile isInline).reverse ++ []) r
    refine hline ?_
    rw [← linesFrom_append hinside, hsplit] at hrest
    rw [lines, hrest]
    simp

section
variable {p : List Char} (hq : '"' ∉ p) (hb : Unescaped p) (hnull : '\x00' ∉ p)
include hq hb hnull

/-- A head in plain text and an empty line before the tag are read as pieces of text. -/
theorem readTidy_fileTag {block : List Char} (hopen : ¬ openBraces <:+: block)
    (hblock : ∀ l ∈ lines block, (trim l).isEmpty = false) :
    ∃ texts : List (List Char), texts.flatten = block ++ "\n\n".toList ∧
      readTidy (block ++ "\n\n".toList ++ fileTag p) = .ok (texts.map Node.text ++ [fileNode p]) := by
  have htag : ∀ fuel, ReadsAll (pieces (fuel + 2)) (fileTag p) [⟨some (fileNode p), true⟩] := fun fuel => by
    have h := readsAll_pieces_tag (u := fileTag p) (v := []) rfl (reads_tag hq hb hnull fuel [])
      (readsAll_pieces_nil fuel)
    rwa [List.append_nil] at h
  suffices htexts : ∃ texts : List (List Char), texts.flatten = block ++ "\n\n".toList ∧
      ∀ fuel, ReadsAll (pieces (fuel + 4)) (block ++ "\n\n".toList ++ fileTag p)
        (texts.map pieceText ++ [⟨some (fileNode p), true⟩]) by
    obtain ⟨texts, hflat, hreads⟩ := htexts
    have hlen : 1 ≤ (block ++ "\n\n".toList ++ fileTag p).length := by simp [fileTag, openBraces]; omega
    have hr := hreads (3 * (block ++ "\n\n".toList ++ fileTag p).length - 1)
    rw [show 3 * (block ++ "\n\n".toList ++ fileTag p).length - 1 + 4 =
      3 * (block ++ "\n\n".toList ++ fileTag p).length + 3 by omega] at hr
    refine ⟨texts, hflat, ?_⟩
    rw [readTidy_of_readsAll hr (by simp [allSound, pieceText])]
    simp [nodesOf, pieceText, Function.comp_def]
  by_cases hne : block = []
  · subst hne
    refine ⟨[['\n'], ['\n']], rfl, fun fuel => ?_⟩
    have h := readsAll_pieces_text (u := ['\n']) rfl (htag fuel)
    exact readsAll_pieces_text (u := ['\n']) rfl h
  · obtain ⟨gap, c, r, rfl, hgap, hc, hl⟩ := exists_opening hblock hne
    have hafter : ¬ openBraces <:+: c :: (r ++ "\n\n".toList) ++ ['\x7b'] := fun hi => by
      have hi : openBraces <:+: (c :: r) ++ '\n' :: ['\n', '\x7b'] := by simpa using hi
      rcases infix_append_cons (by decide) hi with hi | hi
      · exact hopen (hi.trans (List.suffix_append gap (c :: r)).isInfix)
      · exact absurd hi (by decide)
    have htext : ∀ fuel, ReadsAll (pieces (fuel + 3)) (c :: (r ++ "\n\n".toList) ++ fileTag p)
        [pieceText (c :: (r ++ "\n\n".toList)), ⟨some (fileNode p), true⟩] := fun fuel =>
      readsAll_pieces_text (textHere?_append hc hl hafter _) (htag fuel)
    cases gap with
    | nil =>
      refine ⟨[c :: (r ++ "\n\n".toList)], by simp, fun fuel => ?_⟩
      have h := htext (fuel + 1)
      simpa using h
    | cons d gap =>
      refine ⟨[d :: gap, c :: (r ++ "\n\n".toList)], by simp, fun fuel => ?_⟩
      have h := readsAll_pieces_text (textHere?_inline hgap (by rintro e ⟨⟩; exact hc)) (htext fuel)
      simpa using h

end

/-- What a tag may carry in its quotes without a change: no quote or brace, no backslash before a quote, and
no word that stands for another one. -/
structure Quotable (p : List Char) : Prop where
  quote : '"' ∉ p
  opening : '\x7b' ∉ p
  closing : '\x7d' ∉ p
  backslash : Unescaped p
  renamed : ∀ c, isBlank c = true → ¬ c :: "from=".toList <:+: p

theorem search_eq_none {s : List Char} (h : ∀ c, isBlank c = true → ¬ c :: "from=".toList <:+: s) :
    renameFrom.search s = none := by
  induction s with
  | nil => rfl
  | cons c r ih =>
    rw [renameFrom.search.eq_def]
    simp only
    split
    · rfl
    · have hafter : (if isBlank c then after? "from=".toList r else none) = none := by
        split
        · next hc =>
          rw [Option.eq_none_iff_forall_ne_some]
          intro t ht
          exact h c hc ⟨[], t, congrArg (c :: ·) (after?_eq_some.1 ht).symm⟩
        · rfl
      rw [hafter]
      simp only
      rw [ih fun d hd hi => h d hd (List.infix_cons hi)]
      rfl

theorem eq_of_suffix_fileTag {p r : List Char} (hp : '\x7b' ∉ p) (h : openBraces ++ r <:+ fileTag p) :
    r = "file path=\"".toList ++ (p ++ ['"']) ++ closeBraces := by
  generalize hinner : "file path=\"".toList ++ (p ++ ['"']) ++ closeBraces = inner
  have hno : '\x7b' ∉ inner := by
    rw [← hinner]
    simp [hp, closeBraces]
  have htag : fileTag p = '\x7b' :: '\x7b' :: inner := by rw [fileTag, hinner]; rfl
  rw [htag] at h
  rcases List.suffix_cons_iff.1 h with he | h
  · exact (List.cons.inj (List.cons.inj he).2).2
  rcases List.suffix_cons_iff.1 h with he | h
  · exact absurd (by rw [← (List.cons.inj he).2]; simp) hno
  · exact absurd (h.subset (by simp [openBraces])) hno

theorem steady_fileTag {block p : List Char} (hblock : Tagless block) (hp : Quotable p) :
    Steady (block ++ "\n\n".toList ++ fileTag p) := by
  have hinner : "file path=\"".toList ++ (p ++ ['"']) ++ closeBraces =
      "file path=".toList ++ '"' :: (p ++ '"' :: closeBraces) := by
    rw [List.append_assoc, List.append_assoc]
    rfl
  have hwhole : block ++ "\n\n".toList ++ fileTag p = block ++ '\n' :: ('\n' :: fileTag p) :=
    List.append_assoc block "\n\n".toList (fileTag p)
  rw [hwhole]
  constructor
  · intro r hr
    have hr := suffix_of_suffix_append_cons (by decide) hblock.opening hr
    have hr := suffix_of_suffix_append_cons (a := []) (by decide) (by decide) hr
    obtain rfl := eq_of_suffix_fileTag hp.opening hr
    refine ⟨by rintro c ⟨⟩; decide, search_eq_none fun c hc hi => ?_⟩
    have hquote : '"' ∉ c :: "from=".toList := fun hm => by
      rcases List.mem_cons.1 hm with rfl | hm
      · cases hc
      · exact absurd hm (by decide +kernel)
    rw [hinner] at hi
    rcases infix_append_cons hquote hi with hi | hi
    · exact absurd (hi.subset (a := 'r') (by simp)) (by decide +kernel)
    rcases infix_append_cons hquote hi with hi | hi
    · exact hp.renamed c hc hi
    · exact absurd (hi.subset (a := 'r') (by simp)) (by decide +kernel)
  · intro hi
    rcases infix_append_cons (by decide) hi with hi | hi
    · exact hblock.tilde hi
    rcases infix_append_cons (a := []) (by decide) hi with hi | hi
    · exact absurd hi (by decide +kernel)
    rw [fileTag, hinner, ← List.append_assoc] at hi
    rcases infix_append_cons (by decide) hi with hi | hi
    · exact absurd hi (by decide +kernel)
    rcases infix_append_cons (by decide) hi with hi | hi
    · exact hp.closing (hi.subset (by decide))
    · exact absurd hi (by decide +kernel)

/-- A definition of plain lines, an empty line and the tag is read as its text and the tag. -/
theorem read_fileTag {block p : List Char} (hblock : ∀ l ∈ lines block, (trim l).isEmpty = false)
    (hplain : Tagless block) (hp : Quotable p) (hnull : '\x00' ∉ p) :
    ∃ texts : List (List Char), texts.flatten = block ++ "\n\n".toList ∧
      read (block ++ "\n\n".toList ++ fileTag p) = .ok (texts.map Node.text ++ [fileNode p]) := by
  obtain ⟨texts, hflat, hread⟩ := readTidy_fileTag hp.quote hp.backslash hnull hplain.opening hblock
  exact ⟨texts, hflat, read_of_steady (steady_fileTag hplain hp) hread⟩

end MockTree.Template.Grammar
