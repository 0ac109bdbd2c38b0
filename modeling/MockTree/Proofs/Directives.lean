import MockTree.Directive.Standard
import MockTree.Proofs.Offsets
import MockTree.Proofs.Path
import MockTree.Proofs.Resolution
import MockTree.Proofs.Work

/-! The directives that give data. Called with texts for all their named arguments they give text, a whole
number or nothing, except for what they let through: an offset that leads out of the calendar, a pattern or a
selector that cannot be carried through, and a path that cannot be looked up. -/
namespace MockTree

namespace Render
variable {α β : Type}

@[simp] theorem runAt_pure (a : α) (n : Nat) : (pure a : Render α).runAt n = (.ok a, n) := rfl

@[simp] theorem runAt_ofExcept (x : Except Fault α) (n : Nat) : (ofExcept x).runAt n = (x, n) := by
  cases x <;> rfl

@[simp] theorem runAt_draw (s : Setting) (n : Nat) : (draw s).runAt n = (.ok (s.draws n), n + 1) := rfl

theorem runAt_bind (r : Render α) (k : α → Render β) (n : Nat) :
    (r >>= k).runAt n =
      match r.runAt n with
      | (.ok a, m) => (k a).runAt m
      | (.error f, m) => (.error f, m) := by
  simp only [runAt, ExceptT.run, StateT.run, bind, ExceptT.bind, ExceptT.mk, StateT.bind]
  rcases r n with ⟨a | a, m⟩ <;> rfl

theorem runAt_bind_ok {r : Render α} {k : α → Render β} {n m : Nat} {a : α} (h : r.runAt n = (.ok a, m)) :
    (r >>= k).runAt n = (k a).runAt m := by
  simp [runAt_bind, h]

end Render

/-- A call with texts for its named arguments. -/
def Call.given (call : Call) (args : List (String × String)) : Call :=
  { call with named := args.map fun (name, text) => (name, .value (.text text)) }

/-- What a directive writes: text, a whole number or nothing. -/
inductive Datum.Output : Datum → Prop
  | text (s : List Char) : Output (.text s)
  | safe (s : List Char) : Output (.safe s)
  | int (n : Int) : Output (.value (.int n))
  | null : Output .null

/-- A rendering gives an output, and raises nothing. -/
def Gives (r : Render Datum) (n : Nat) : Prop := ∃ d m, r.runAt n = (.ok d, m) ∧ d.Output

theorem gives_pure {d : Datum} (h : d.Output) (n : Nat) : Gives (pure d) n := ⟨d, n, rfl, h⟩

theorem gives_ofExcept_iff {x : Except Fault Datum} {n : Nat} :
    Gives (Render.ofExcept x) n ↔ ∃ d, x = .ok d ∧ d.Output := by
  simp only [Gives, Render.runAt_ofExcept, Prod.mk.injEq]
  constructor
  · rintro ⟨d, m, ⟨rfl, -⟩, h⟩
    exact ⟨d, rfl, h⟩
  · rintro ⟨d, rfl, h⟩
    exact ⟨d, n, ⟨rfl, rfl⟩, h⟩

/-- A directive gives the data of a set: one of them whatever is drawn, and each of them for some draws. -/
structure GivesExactly (d : Directive) (s : Setting) (call : Call) (results : Set Datum) : Prop where
  sound : ∀ draws n, ∃ r ∈ results, ∃ m, (d { s with draws } call).runAt n = (.ok r, m)
  complete : ∀ r ∈ results, ∀ n, ∃ draws m, (d { s with draws } call).runAt n = (.ok r, m)

namespace GivesExactly
variable {d : Directive} {s : Setting} {call : Call} {a b : Set Datum}

theorem subset (ha : GivesExactly d s call a) (hb : GivesExactly d s call b) : a ⊆ b := by
  intro r hr
  obtain ⟨draws, m, hrun⟩ := ha.complete r hr 0
  obtain ⟨r', hr', m', hrun'⟩ := hb.sound draws 0
  rw [hrun] at hrun'
  cases hrun'
  exact hr'

/-- What is given is determined by the call. -/
theorem unique (ha : GivesExactly d s call a) (hb : GivesExactly d s call b) : a = b :=
  Set.ext fun _ => ⟨fun h => ha.subset hb h, fun h => hb.subset ha h⟩

end GivesExactly

namespace Directive
open Text Calendar

/-- The last text given for a field, by any of its names. -/
def Signature.text? (sig : Signature) (field : String) (args : List (String × String)) : Option String :=
  (args.reverse.find? fun a => sig.fieldOf a.1 == field).map (·.2)

theorem Signature.get_given (sig : Signature) (field : String) (call : Call) (args : List (String × String)) :
    sig.get field (call.given args).named =
      ((sig.text? field args).map fun t => Datum.value (.text t)).getD
        ((sig.fields.lookup field).elim .null .value) := by
  simp only [Signature.get, Signature.given?, Signature.text?, Call.given, ← List.map_reverse, List.find?_map,
    Option.map_map, Function.comp_def]

/-! ### The time -/

/-- A moment as the clock tells it. -/
def told (pattern : Datum) (m : Moment) : Datum :=
  if isText "epoch" pattern then .text (intText (epochMillis m))
  else if isText "unix" pattern then .text (intText (unixSeconds m))
  else .text (format m pattern.plain)

theorem clock_runAt (s : Setting) (call : Call) (n : Nat) :
    (clock s call).runAt n =
      ((moved s.now (clockSignature.get "offset" call.named)).map
        (told (clockSignature.get "format" call.named)), n) := by
  rw [clock, Render.runAt_bind, Render.runAt_ofExcept]
  cases moved s.now (clockSignature.get "offset" call.named) with
  | error f => rfl
  | ok m =>
    simp only [Except.map, told]
    split
    · rfl
    · split <;> rfl

theorem output_told (pattern : Datum) (m : Moment) : (told pattern m).Output := by
  rw [told]
  split
  · exact .text _
  · split <;> exact .text _

theorem lookup_offset : clockSignature.fields.lookup "offset" = some .null := rfl

/-- What is no offset at all does not move the time, nor does what cannot be applied. -/
theorem moved_given (now : Moment) (call : Call) (args : List (String × String)) :
    moved now (clockSignature.get "offset" (call.given args).named) =
      match clockSignature.text? "offset" args with
      | none => .ok now
      | some o =>
        match applyOffset now o.toList with
        | .moved m => .ok m
        | .ignored => .ok now
        | .tooFar => .error .overflow := by
  rw [Signature.get_given, lookup_offset]
  cases clockSignature.text? "offset" args <;> rfl

theorem gives_clock (s : Setting) (call : Call) (n : Nat) :
    Gives (clock s call) n ↔ ∃ m, moved s.now (clockSignature.get "offset" call.named) = .ok m := by
  rw [Gives, clock_runAt]
  cases moved s.now (clockSignature.get "offset" call.named) with
  | error f => simp [Except.map]
  | ok m => simp [Except.map, output_told]

theorem gives_clock_iff (s : Setting) (call : Call) (args : List (String × String)) (n : Nat) :
    Gives (clock s (call.given args)) n ↔
      ∀ o, clockSignature.text? "offset" args = some o → ¬ Beyond s.now o.toList := by
  rw [gives_clock, moved_given]
  cases clockSignature.text? "offset" args with
  | none => simp
  | some o =>
    simp only [Option.some.injEq, forall_eq', ← applyOffset_eq_tooFar_iff]
    cases applyOffset s.now o.toList <;> simp

theorem clockSignature_fieldOf (name : String) : clockSignature.fieldOf name = name := rfl

theorem text?_withoutOffset (args : List (String × String)) :
    clockSignature.text? "offset" (args.filter (·.1 != "offset")) = none ∧
      clockSignature.text? "format" (args.filter (·.1 != "offset")) = clockSignature.text? "format" args := by
  simp only [Signature.text?, clockSignature_fieldOf, ← List.filter_reverse, List.find?_filter]
  constructor
  · simp
  · congr 2
    funext a
    by_cases h : a.1 = "format" <;> simp [h]

/-- An offset that is none, or that means nothing, leaves the time as it is without it. -/
theorem clock_of_ignored (s : Setting) (call : Call) (args : List (String × String)) (n : Nat)
    (h : ∀ o, clockSignature.text? "offset" args = some o →
      (∀ u, applyOffset s.now o.toList ≠ .moved u) ∧ ¬ Beyond s.now o.toList) :
    (clock s (call.given args)).runAt n =
      (clock s (call.given (args.filter (·.1 != "offset")))).runAt n := by
  obtain ⟨hoffset, hformat⟩ := text?_withoutOffset args
  have hnow : moved s.now (clockSignature.get "offset" (call.given args).named) = .ok s.now := by
    rw [moved_given]
    cases ho : clockSignature.text? "offset" args with
    | none => rfl
    | some o =>
      obtain ⟨hm, hb⟩ := h o ho
      rw [← applyOffset_eq_tooFar_iff] at hb
      cases ha : applyOffset s.now o.toList with
      | moved u => exact absurd ha (hm u)
      | ignored => simp [ha]
      | tooFar => exact absurd ha hb
  rw [clock_runAt, clock_runAt, hnow, moved_given, hoffset, Signature.get_given, Signature.get_given, hformat]

/-! ### Random text and numbers -/

/-- The characters that so many draws pick, from one on. -/
def picked (draws : Nat → Nat) (chars : List Char) (n k : Nat) : List Char :=
  (List.range' n k).filterMap fun i => chars[draws i % chars.length]?

/-- Each character takes one draw. -/
theorem drawChars_runAt (s : Setting) (chars : List Char) (k n : Nat) :
    (drawChars s chars k).runAt n = (.ok (picked s.draws chars n k), n + k) := by
  induction k generalizing n with
  | zero => rfl
  | succ k ih =>
    have hpick : picked s.draws chars n (k + 1) =
        (chars[s.draws n % chars.length]?).toList ++ picked s.draws chars (n + 1) k := by
      rw [picked, List.range'_succ, List.filterMap_cons, picked]
      cases chars[s.draws n % chars.length]? <;> rfl
    rw [drawChars, Render.runAt_bind_ok (Render.runAt_draw s n), Render.runAt_bind_ok (ih (n + 1)),
      Render.runAt_pure, hpick, Nat.add_right_comm n 1 k, Nat.add_assoc]

theorem gives_randomText (s : Setting) (call : Call) (n : Nat) : Gives (randomText s call) n := by
  rw [randomText]
  simp only
  split
  · exact gives_pure (.text _) n
  split
  · exact gives_pure (.text _) n
  · next chars k _ _ =>
    have h := drawChars_runAt s chars k n
    exact ⟨.text _, n + k, by rw [Render.runAt_bind_ok h]; rfl, .text _⟩
  · exact gives_pure (.text _) n

theorem gives_randomNumber (s : Setting) (call : Call) (n : Nat) : Gives (randomNumber s call) n := by
  rw [randomNumber]
  split
  · split
    · exact gives_pure (.int 0) n
    · exact ⟨_, n + 1, by rw [Render.runAt_bind_ok (Render.runAt_draw s n)]; rfl, .int _⟩
  · exact gives_pure (.int 0) n

/-! ### Parts of the request -/

/-- A pattern whose reading breaks off otherwise than by its being no pattern: it repeats more often than can
be counted, or has a number too long to read or two alphabets at once. -/
def Unreadable (pattern : String) : Prop :=
  Pattern.Regex.read pattern.toList = .error .tooManyTimes ∨
    Pattern.Regex.read pattern.toList = .error .contradiction

/-- A selector that finds what stands outside of everything, or a number too long to be written. -/
def Unwritable (selector : String) (v : Value) : Prop :=
  ∃ p spots, Selector.read? selector.toList = some p ∧ p.findIn v = some spots ∧
    ∃ spot ∈ spots, spot = .nowhere ∨ spot.value.hasText = false

/-- Arguments of a capture that it does not carry through. -/
inductive Uncapturable (body : Value) (arg : String → Option String) : Prop
  | path {pattern : String} (from' : arg "source" = some "path") (regex : arg "regex" = some pattern)
      (unreadable : Unreadable pattern)
  | body {pattern : String} (from' : arg "source" = some "body") (using' : arg "using" = some "regex")
      (selector : arg "selector" = some pattern) (unreadable : Unreadable pattern)
  | selector {selector : String} (from' : arg "source" = some "body") (using' : arg "using" = some "jsonpath")
      (selector' : arg "selector" = some selector) (unwritable : Unwritable selector body)

theorem gives_search_iff (pattern : String) (text : List Char) :
    (∃ d, search (.value (.text pattern)) text = .ok d ∧ d.Output) ↔ ¬ Unreadable pattern := by
  rw [search, searchText, Unreadable]
  cases Pattern.Regex.read pattern.toList with
  | error flaw => cases flaw <;> simp [Datum.Output.text]
  | ok r =>
    simp only [reduceCtorEq, or_self, not_false_iff, iff_true]
    cases r.find? text with
    | none => exact ⟨_, rfl, .text _⟩
    | some found =>
      simp only
      split
      · cases found.group? 1 with
        | none => exact ⟨_, rfl, .null⟩
        | some g => exact ⟨_, rfl, .text _⟩
      · exact ⟨_, rfl, .text _⟩

theorem spotsText_output (spots : List Selector.Spot) :
    (∃ d, spotsText spots = .ok d ∧ d.Output) ↔
      ¬ ∃ spot ∈ spots, spot = .nowhere ∨ spot.value.hasText = false := by
  rw [spotsText]
  split
  · next h =>
    obtain ⟨spot, hmem, hspot⟩ := List.any_eq_true.1 h
    have hnowhere : spot = .nowhere := by cases spot <;> simp_all
    simp only [reduceCtorEq, false_and, exists_false, false_iff, not_not]
    exact ⟨spot, hmem, .inl hnowhere⟩
  next h =>
  have hat : ∀ spot ∈ spots, spot ≠ .nowhere := by
    rintro spot hmem rfl
    exact h (List.any_eq_true.2 ⟨_, hmem, rfl⟩)
  simp only
  split
  · next hempty =>
    obtain rfl := List.isEmpty_iff.1 hempty
    exact iff_of_true ⟨_, rfl, .text _⟩ (by simp)
  split
  · next hlong =>
    obtain ⟨v, hv, hlong⟩ := List.any_eq_true.1 hlong
    obtain ⟨spot, hmem, rfl⟩ := List.mem_map.1 hv
    simp only [reduceCtorEq, false_and, exists_false, false_iff, not_not]
    exact ⟨spot, hmem, .inr (by simpa using hlong)⟩
  · next hshort =>
    refine iff_of_true ?_ ?_
    · split
      · exact ⟨_, rfl, .safe _⟩
      · exact ⟨_, rfl, .text _⟩
    · rintro ⟨spot, hmem, hspot | hspot⟩
      · exact hat spot hmem hspot
      · exact hshort (List.any_eq_true.2 ⟨_, List.mem_map_of_mem hmem, by simp [hspot]⟩)

theorem gives_select_iff (selector : String) (v : Value) :
    (∃ d, select (.value (.text selector)) v = .ok d ∧ d.Output) ↔ ¬ Unwritable selector v := by
  rw [select, Unwritable]
  cases hp : Selector.read? selector.toList with
  | none => simp [Datum.Output.text]
  | some p =>
    cases hs : p.findIn v with
    | none => simp [hs, Datum.Output.text]
    | some spots =>
      simp only [Option.bind_some, hs, spotsText_output, Option.some.injEq]
      refine not_congr ⟨fun h => ⟨p, spots, rfl, hs, h⟩, ?_⟩
      rintro ⟨_, _, rfl, hs', h⟩
      rw [hs] at hs'
      cases hs'
      exact h

/-- An argument that is not given is null. -/
def argument (text : Option String) : Datum := text.elim .null fun t => .value (.text t)

theorem isText_argument {name : String} {text : Option String} :
    isText name (argument text) = true ↔ text = some name := by
  cases text with
  | none => simp [argument, isText]
  | some t => simp [argument, isText]

theorem isNull_argument {text : Option String} : isNull (argument text) = true ↔ text = none := by
  cases text <;> simp [argument, isNull]

theorem captureSignature_get {field : String} (h : captureSignature.fields.lookup field = some .null)
    (call : Call) (args : List (String × String)) :
    captureSignature.get field (call.given args).named = argument (captureSignature.text? field args) := by
  rw [Signature.get_given, h]
  cases captureSignature.text? field args <;> rfl

/-- A look-up under a text that is given, or the request for one, gives text. -/
theorem output_keyed (name : String) {look : Datum → Except Fault Value} (key : Option String)
    (h : ∀ t, ∃ v, look (.value (.text t)) = .ok v) :
    ∃ d : Datum, (if isNull (argument key) then
        (.ok (.text ("Please specify a key with ".toList ++ name.toList)) : Except Fault Datum)
      else (look (argument key)).map fun v => Datum.text (Body.stringify v)) = .ok d ∧ d.Output := by
  cases key with
  | none => exact ⟨_, rfl, .text _⟩
  | some t =>
    obtain ⟨v, hv⟩ := h t
    rw [if_neg (by simp [argument, isNull]), argument, Option.elim_some, hv]
    exact ⟨_, rfl, .text _⟩

theorem output_captureBody_iff (using' selector : Option String) (v : Value) :
    (∃ d, captureBody (argument using') (argument selector) v = .ok d ∧ d.Output) ↔
      ∀ t, selector = some t →
        ¬ (using' = some "regex" ∧ Unreadable t) ∧ ¬ (using' = some "jsonpath" ∧ Unwritable t v) := by
  rw [captureBody]
  simp only [Bool.or_eq_true, isNull_argument, isText_argument]
  cases selector with
  | none => simp [Datum.Output.text]
  | some t =>
    simp only [reduceCtorEq, or_false, Option.some.injEq, forall_eq']
    by_cases hu : using' = none
    · simp [hu, Datum.Output.text]
    by_cases hr : using' = some "regex"
    · simp only [hr, reduceCtorEq, if_false, if_true]
      exact (gives_search_iff t _).trans (by simp)
    by_cases hj : using' = some "jsonpath"
    · simp only [hj, reduceCtorEq, if_false, if_true]
      exact (gives_select_iff t _).trans (by simp)
    · simp [hu, hr, hj, Datum.Output.null]

theorem gives_capture_iff (s : Setting) (call : Call) (args : List (String × String)) (n : Nat) :
    Gives (capture s (call.given args)) n ↔
      ¬ Uncapturable s.request.body fun field => captureSignature.text? field args := by
  rw [capture, gives_ofExcept_iff, captured]
  simp only [captureSignature_get (show captureSignature.fields.lookup "source" = some .null from rfl),
    captureSignature_get (show captureSignature.fields.lookup "key" = some .null from rfl),
    captureSignature_get (show captureSignature.fields.lookup "regex" = some .null from rfl),
    captureSignature_get (show captureSignature.fields.lookup "using" = some .null from rfl),
    captureSignature_get (show captureSignature.fields.lookup "selector" = some .null from rfl)]
  generalize hsource : captureSignature.text? "source" args = source
  generalize hregex : captureSignature.text? "regex" args = regex
  generalize husing : captureSignature.text? "using" args = using'
  generalize hselector : captureSignature.text? "selector" args = selector
  simp only [isText_argument]
  have hfree (h : source ≠ some "path") (h' : source ≠ some "body") :
      ¬ Uncapturable s.request.body fun field => captureSignature.text? field args := by
    rintro (⟨he, -, -⟩ | ⟨he, -, -, -⟩ | ⟨he, -, -, -⟩)
    · exact h (hsource ▸ he)
    · exact h' (hsource ▸ he)
    · exact h' (hsource ▸ he)
  by_cases hq : source = some "query"
  · rw [if_pos hq]
    exact iff_of_true (output_keyed "query" _ fun t => ⟨_, rfl⟩) (hfree (by simp [hq]) (by simp [hq]))
  by_cases hh : source = some "headers"
  · rw [if_neg hq, if_pos hh]
    exact iff_of_true (output_keyed "headers" _ fun t => ⟨_, rfl⟩) (hfree (by simp [hh]) (by simp [hh]))
  by_cases hp : source = some "path"
  · rw [if_neg hq, if_neg hh, if_pos hp]
    cases regex with
    | none =>
      refine iff_of_true ⟨_, rfl, .text _⟩ ?_
      rintro (⟨-, he, -⟩ | ⟨he, -, -, -⟩ | ⟨he, -, -, -⟩) <;> simp_all
    | some t =>
      refine (gives_search_iff t _).trans (not_congr ⟨fun h => .path (hsource ▸ hp) hregex h, ?_⟩)
      rintro (⟨-, he, h⟩ | ⟨he, -, -, -⟩ | ⟨he, -, -, -⟩)
      · simp_all
      all_goals simp_all
  by_cases hb : source = some "body"
  · rw [if_neg hq, if_neg hh, if_neg hp, if_pos hb, output_captureBody_iff]
    constructor
    · rintro h (⟨he, -, -⟩ | ⟨-, hu, hs, hn⟩ | ⟨-, hu, hs, hn⟩)
      · exact hp (hsource ▸ he)
      · exact (h _ (hselector ▸ hs)).1 ⟨husing ▸ hu, hn⟩
      · exact (h _ (hselector ▸ hs)).2 ⟨husing ▸ hu, hn⟩
    · intro h t ht
      exact ⟨fun hr => h (.body (hsource.trans hb) (husing.trans hr.1) (hselector.trans ht) hr.2),
        fun hj => h (.selector (hsource.trans hb) (husing.trans hj.1) (hselector.trans ht) hj.2)⟩
  · rw [if_neg hq, if_neg hh, if_neg hp, if_neg hb]
    exact iff_of_true ⟨_, rfl, .null⟩ (hfree hp hb)

end Directive

/-! ### Paths of files -/

namespace Path
open Text

theorem mem_splitAt_iff {sep c : Char} (hc : c ≠ sep) (s : List Char) :
    c ∈ s ↔ ∃ p ∈ splitAt sep s, c ∈ p := by
  induction s with
  | nil => simp [splitAt]
  | cons d r ih =>
    rw [splitAt, List.mem_cons, ih]
    split
    · next hd => simp [eq_of_beq hd, hc]
    · obtain ⟨p, ps, hp⟩ := List.exists_cons_of_ne_nil (splitAt_ne_nil sep r)
      simp [hp, or_assoc]

theorem mem_intercalate_iff {c : Char} (hc : c ≠ '/') (names : List String) :
    c ∈ (String.intercalate "/" names).toList ↔ ∃ n ∈ names, c ∈ n.toList := by
  induction names with
  | nil => simp
  | cons n r ih =>
    cases r with
    | nil => simp
    | cons m r =>
      rw [String.intercalate_cons_cons, String.toList_append, String.toList_append, List.mem_append,
        List.mem_append, ih, show ("/" : String).toList = ['/'] from rfl]
      simp [hc]

/-- Reading a path drops nothing but slashes and dots. -/
theorem mem_text_ofString {c : Char} (hs : c ≠ '/') (hd : c ≠ '.') (s : String) :
    c ∈ (ofString s).text.toList ↔ c ∈ s.toList := by
  have hkept (p : List Char) (hp : c ∈ p) : isKept p = true := by
    simp only [isKept, Bool.and_eq_true, Bool.not_eq_true', List.isEmpty_eq_false_iff, bne_iff_ne]
    refine ⟨List.ne_nil_of_mem hp, ?_⟩
    rintro rfl
    exact hd (by simpa using hp)
  have hnames : (∃ n ∈ namesOf s, c ∈ n.toList) ↔ c ∈ s.toList := by
    rw [mem_splitAt_iff hs]
    simp only [namesOf, List.mem_map, List.mem_filter]
    constructor
    · rintro ⟨n, ⟨p, ⟨hp, -⟩, rfl⟩, hc⟩
      exact ⟨p, hp, by simpa using hc⟩
    · rintro ⟨p, hp, hc⟩
      exact ⟨_, ⟨p, ⟨hp, hkept p hc⟩, rfl⟩, by simpa using hc⟩
  have hslash : ("/" : String).toList = ['/'] := rfl
  have hnames' : (ofString s).names = namesOf s := rfl
  rw [text, hnames']
  split
  · rw [String.toList_append, List.mem_append, mem_intercalate_iff hs, hnames, hslash]
    simp [hs]
  · split
    · next hempty =>
      rw [← hnames, List.isEmpty_iff.1 hempty, show (".": String).toList = ['.'] from rfl]
      simp [hd]
    · rw [mem_intercalate_iff hs, hnames]

end Path

namespace FileTree

theorem walk_eq_nameTooLong_iff {names : List String} (h : ".." ∉ names) (here : FileNode)
    (above : List FileNode) :
    walk here above names = .nameTooLong ↔
      ∃ before n after entries, names = before ++ n :: after ∧
        walk here above before = .node (.directory entries) ∧ maxNameBytes < n.utf8ByteSize := by
  induction names generalizing here above with
  | nil => simp [walk]
  | cons n r ih =>
    simp only [List.mem_cons, not_or] at h
    cases here with
    | file content =>
      refine iff_of_false (by simp [walk]) ?_
      rintro ⟨before, m, after, entries, -, hw, -⟩
      cases before <;> cases hw
    | directory entries =>
      rw [walk_name (Ne.symm h.1)]
      split
      · next hl => exact iff_of_true rfl ⟨[], n, r, entries, rfl, by simp [walk], hl⟩
      · next hl =>
        have hstep : (∃ before m after entries', n :: r = before ++ m :: after ∧
            walk (.directory entries) above before = .node (.directory entries') ∧
              maxNameBytes < m.utf8ByteSize) ↔
            ∃ before m after entries', r = before ++ m :: after ∧
              walk (.directory entries) above (n :: before) = .node (.directory entries') ∧
                maxNameBytes < m.utf8ByteSize := by
          constructor
          · rintro ⟨_ | ⟨_, before⟩, m, after, entries', hn, hw, hm⟩
            · obtain ⟨rfl, -⟩ := List.cons.inj hn
              exact absurd hm hl
            · obtain ⟨rfl, rfl⟩ := List.cons.inj hn
              exact ⟨before, m, after, entries', rfl, hw, hm⟩
          · rintro ⟨before, m, after, entries', rfl, hw, hm⟩
            exact ⟨n :: before, m, after, entries', rfl, hw, hm⟩
        rw [hstep]
        simp only [walk_name (Ne.symm h.1), if_neg hl]
        cases FileNode.child? n entries with
        | none => simp
        | some x => exact ih h.2 x _

/-- A path too long to be looked up: as a whole, or by a name in a directory that is there. -/
def Overlong (t : FileTree) (p : Path) : Prop :=
  '\x00' ∉ p.text.toList ∧
    (maxPathBytes < p.text.utf8ByteSize ∨
      ∃ before n after entries, p.names = before ++ n :: after ∧
        walk t.root [] before = .node (.directory entries) ∧ maxNameBytes < n.utf8ByteSize)

theorem find_resolve_eq_nameTooLong_iff (t : FileTree) (p : Path) :
    t.find (t.resolve p) = .nameTooLong ↔ t.Overlong (t.resolve p) := by
  have hdots : ".." ∉ (t.resolve p).names := Path.resolve_no_dots p t.working
  rw [find, Overlong, absoluteNames, if_pos (show (t.resolve p).absolute = true from rfl)]
  split
  · next h => simp [by simpa using h]
  · next h =>
    have h : '\x00' ∉ (t.resolve p).text.toList := by simpa using h
    split
    · next hl => simp [h, hl]
    · next hl => simp [h, hl, walk_eq_nameTooLong_iff hdots]

end FileTree

namespace Directive
open Calendar

/-- A path that cannot be looked up: it has a null character, or is too long. -/
def Unfindable (files : FileTree) (path : String) : Prop :=
  '\x00' ∈ path.toList ∨ files.Overlong (files.resolve (.ofString path))

theorem resolve?_ofString (files : FileTree) (path : String) :
    files.resolve? (.ofString path) =
      if '\x00' ∈ path.toList then .error .badValue else .ok (files.resolve (.ofString path)) := by
  simp only [FileTree.resolve?, List.contains_iff_mem,
    Path.mem_text_ofString (show '\x00' ≠ '/' by decide) (show '\x00' ≠ '.' by decide)]

theorem output_attached_iff (files : FileTree) (path : String) :
    (∃ d, attached files (.value (.text path)) = .ok d ∧ d.Output) ↔ ¬ Unfindable files path := by
  have hplain : String.ofList (Datum.value (.text path)).plain = path := String.ofList_toList
  rw [attached, if_neg (by simp [isNull]), hplain, resolve?_ofString, Unfindable]
  split
  · next hnull => simp [hnull, bind, Except.bind]
  · next hnull =>
    rw [← FileTree.find_resolve_eq_nameTooLong_iff]
    simp only [hnull, false_or, bind, Except.bind]
    by_cases hlong : files.find (files.resolve (.ofString path)) = .nameTooLong
    · have herror : files.isFile (files.resolve (.ofString path)) = .error .fileSystem := by
        rw [FileTree.isFile, hlong]
        rfl
      simp [herror, hlong]
    · obtain ⟨b, hb, -⟩ := FileTree.isFile_iff hlong
      refine iff_of_true ?_ hlong
      rw [hb]
      cases b
      · exact ⟨_, rfl, .null⟩
      · exact ⟨_, rfl, .safe _⟩

theorem gives_attachment_iff (s : Setting) (call : Call) (args : List (String × String)) (n : Nat) :
    Gives (attachment s (call.given args)) n ↔
      ∀ path, attachmentSignature.text? "path" args = some path → ¬ Unfindable s.files path := by
  rw [attachment, gives_ofExcept_iff, Signature.get_given,
    show attachmentSignature.fields.lookup "path" = some .null from rfl]
  cases attachmentSignature.text? "path" args with
  | none => exact iff_of_true ⟨_, rfl, .null⟩ (by simp)
  | some path => simpa using output_attached_iff s.files path

/-! ### All of them -/

end Directive
end MockTree
