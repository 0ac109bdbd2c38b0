import MockTree.Proofs.JsonScalars
import MockTree.Proofs.JsonSpacing
import MockTree.Proofs.Mapping

/-! What is written as JSON on a line is read back: as the same value, if JSON has a form for all of it. -/
namespace MockTree

namespace Json
open Text

/-- A printable character of ASCII. -/
def Printable (c : Char) : Prop := 32 ≤ c.toNat ∧ c.toNat < 127

instance : DecidablePred Printable := fun _ => inferInstanceAs (Decidable (_ ∧ _))

/-- A printable text of tokens that spell a phrase, with gaps only between them. -/
structure Written (p : Phrase) (s : List Char) : Prop where
  spelled : ∃ ts, Spells p ts ∧ Spaced ts s []
  printable : ∀ c ∈ s, Printable c

theorem printable_hexOf (width n : ℕ) : ∀ c ∈ hexOf width n, Printable c := by
  have hdigit : ∀ n < 16, Printable (hexDigit n) := by decide
  induction width generalizing n with
  | zero => simp [hexOf]
  | succ width ih =>
    rw [hexOf]
    refine List.forall_mem_append.2 ⟨ih _, fun c hc => ?_⟩
    rw [List.mem_singleton.1 hc]
    exact hdigit _ (Nat.mod_lt _ (by decide))

theorem printable_unitEscape (n : ℕ) : ∀ c ∈ unitEscape n, Printable c :=
  List.forall_mem_cons.2 ⟨by decide, List.forall_mem_cons.2 ⟨by decide, printable_hexOf 4 n⟩⟩

theorem printable_escapeChar (c : Char) : ∀ d ∈ escapeChar true c, Printable d := by
  rw [escapeChar]
  split_ifs with hq hn hr ht hb hf hlow hplain hbasic
  · simp only [Bool.or_eq_true, beq_iff_eq] at hq
    rcases hq with rfl | rfl <;> simp [Printable]
  · simp [Printable]
  · simp [Printable]
  · simp [Printable]
  · simp [Printable]
  · simp [Printable]
  · exact printable_unitEscape _
  · simp only [Bool.not_true, Bool.false_or, decide_eq_true_eq] at hplain
    intro d hd
    rw [List.mem_singleton.1 hd]
    exact ⟨by omega, hplain⟩
  · exact printable_unitEscape _
  · exact List.forall_mem_append.2 ⟨printable_unitEscape _, printable_unitEscape _⟩

theorem printable_string (s : List Char) : ∀ c ∈ string true s, Printable c := by
  refine List.forall_mem_append.2 ⟨List.forall_mem_cons.2 ⟨by decide, fun c hc => ?_⟩, by simp [Printable]⟩
  obtain ⟨d, -, hd⟩ := List.mem_flatMap.1 hc
  exact printable_escapeChar d c hd

theorem Atom.written {w : List Char} {v : Value} (h : Atom w v) : Written (.value v) w := by
  refine ⟨⟨[.atom w], .atom h, ?_⟩, fun c hc => ?_⟩
  · have hsp := Spaced.token (.atom w) (.nil [])
    rwa [List.append_nil] at hsp
  · have := toNat_of_isAtomChar (h.chars c hc)
    exact ⟨by omega, by omega⟩

theorem exists_literal_string (s : List Char) :
    ∃ raw ns, Raw raw ns ∧ joinUnits ns = s ∧ string true s = (Token.literal raw).text := by
  obtain ⟨ns, hraw, hns⟩ := exists_raw_string s
  exact ⟨_, ns, hraw, hns, by simp [string, Token.text]⟩

theorem written_string (s : List Char) : Written (.value (.ofChars s)) (string true s) := by
  obtain ⟨raw, ns, hraw, hs, htext⟩ := exists_literal_string s
  refine ⟨⟨[.literal raw], hs ▸ .text hraw, ?_⟩, printable_string _⟩
  have hsp := Spaced.token (.literal raw) (.nil [])
  rwa [List.append_nil, ← htext] at hsp

/-- A name, a colon and a value. -/
theorem exists_spaced_field (name : List Char) {ts : List Token} {s r : List Char} (h : Spaced ts s r)
    (hne : ts ≠ []) : ∃ raw ns, Raw raw ns ∧ joinUnits ns = name ∧
      Spaced (.literal raw :: .mark ':' :: ts) (string true name ++ (": ".toList ++ s)) r := by
  obtain ⟨raw, ns, hraw, hname, htext⟩ := exists_literal_string name
  refine ⟨raw, ns, hraw, hname, ?_⟩
  rw [htext]
  exact .token (.literal raw) (.token (.mark ':') (h.gap [' '] (by simp [isSpace]) hne))

section
variable {α : Type} {value : α → Value} {text : α → List Char}

theorem written_items {x : α} {xs : List α} (h : ∀ y ∈ x :: xs, Written (.value (value y)) (text y)) :
    Written (.items ((x :: xs).map value)) (text x ++ xs.flatMap (", ".toList ++ text ·) ++ [']']) := by
  induction xs generalizing x with
  | nil =>
    obtain ⟨⟨ts, hts, hsp⟩, hp⟩ := h x (by simp)
    rw [List.flatMap_nil, List.append_nil]
    exact ⟨⟨_, .lastItem hts, (hsp.extend [']']).append (.token (.mark ']') (.nil []))⟩,
      List.forall_mem_append.2 ⟨hp, by simp [Printable]⟩⟩
  | cons y xs ih =>
    obtain ⟨⟨ts, hts, hsp⟩, hp⟩ := h x (by simp)
    obtain ⟨⟨us, hus, hsu⟩, hpu⟩ := ih fun z hz => h z (List.mem_cons_of_mem _ hz)
    have htail := Spaced.token (.mark ',') (hsu.gap [' '] (by simp [isSpace]) hus.ne_nil)
    have htext : text x ++ (y :: xs).flatMap (", ".toList ++ text ·) ++ [']'] =
        text x ++ (',' :: ' ' :: (text y ++ xs.flatMap (", ".toList ++ text ·) ++ [']'])) := by simp
    rw [htext]
    exact ⟨⟨_, .item hts hus, (hsp.extend _).append htail⟩, List.forall_mem_append.2
      ⟨hp, List.forall_mem_cons.2 ⟨by decide, List.forall_mem_cons.2 ⟨by decide, hpu⟩⟩⟩⟩

theorem written_fields (name : α → List Char) {f : α} {fs : List α}
    (h : ∀ g ∈ f :: fs, Written (.value (value g)) (text g)) :
    Written (.fields ((f :: fs).map fun g => (.text (String.ofList (name g)), value g)))
      (string true (name f) ++ ": ".toList ++ text f ++
        fs.flatMap (fun g => ", ".toList ++ (string true (name g) ++ ": ".toList ++ text g)) ++ ['\x7d']) := by
  induction fs generalizing f with
  | nil =>
    obtain ⟨⟨ts, hts, hsp⟩, hp⟩ := h f (by simp)
    have hvalue := (hsp.extend ['\x7d']).append (.token (.mark '\x7d') (.nil []))
    obtain ⟨raw, ns, hraw, hname, hfield⟩ := exists_spaced_field (name f) hvalue (by simp)
    have hspell := Spells.lastField hraw hts
    rw [hname] at hspell
    refine ⟨⟨_, hspell, by simpa using hfield⟩, ?_⟩
    simp only [List.forall_mem_append]
    exact ⟨⟨⟨⟨printable_string _, by simp [Printable]⟩, hp⟩, by simp⟩, by simp [Printable]⟩
  | cons g fs ih =>
    obtain ⟨⟨ts, hts, hsp⟩, hp⟩ := h f (by simp)
    obtain ⟨⟨us, hus, hsu⟩, hpu⟩ := ih fun x hx => h x (List.mem_cons_of_mem _ hx)
    have hvalue := (hsp.extend _).append (.token (.mark ',') (hsu.gap [' '] (by simp [isSpace]) hus.ne_nil))
    obtain ⟨raw, ns, hraw, hname, hfield⟩ := exists_spaced_field (name f) hvalue (by simp)
    have hspell := Spells.field hraw hts hus
    rw [hname] at hspell
    refine ⟨⟨_, hspell, by simpa using hfield⟩, ?_⟩
    simp only [List.flatMap_cons, List.append_assoc, List.forall_mem_append] at hpu ⊢
    exact ⟨printable_string _, by simp [Printable], hp, by simp [Printable], hpu⟩

end

theorem writeItems_eq (l : Layout) (depth : ℕ) (vs : List Value) :
    writeItems l depth vs = vs.map (write l depth) := by
  induction vs with
  | nil => rfl
  | cons v vs ih => rw [writeItems, ih]; rfl

theorem writeEntries_eq (l : Layout) (depth : ℕ) (entries : List (Scalar × Value)) :
    writeEntries l depth entries =
      entries.map fun e => string l.ascii (nameOf e.1) ++ l.afterName ++ write l depth e.2 := by
  induction entries with
  | nil => rfl
  | cons e entries ih => rw [writeEntries, ih]; rfl

theorem bracketed_line (depth : ℕ) (first last : Char) (p : List Char) (ps : List (List Char)) :
    bracketed .line depth first last (p :: ps) = first :: (p ++ ps.flatMap (", ".toList ++ ·) ++ [last]) := by
  simp [bracketed, Layout.newline, Layout.line]

end Json

/-- What a scalar is read as, once it was written: a double as the one that its text spells, and what JSON
has no form for as its text. -/
def Scalar.reread : Scalar → Scalar
  | .null => .null
  | .bool b => .bool b
  | .int n => .int n
  | .real x => .real x.reread
  | s => .text (String.ofList s.plain)

namespace Json
open Text

mutual

/-- What a value is read as, once it was written: the last value of a name counts. -/
def reread : Value → Value
  | .scalar s => .scalar s.reread
  | .list items => .list (rereadItems items)
  | .map entries => .map (Value.ofPairs (rereadEntries entries))
  | .set members => .ofChars (Value.set members).plain

def rereadItems : List Value → List Value
  | [] => []
  | v :: r => reread v :: rereadItems r

def rereadEntries : List (Scalar × Value) → List (Scalar × Value)
  | [] => []
  | (k, v) :: r => (.text (String.ofList (nameOf k)), reread v) :: rereadEntries r

end

theorem rereadItems_eq (items : List Value) : rereadItems items = items.map reread := by
  induction items with
  | nil => rfl
  | cons v items ih => rw [rereadItems, ih]; rfl

theorem rereadEntries_eq (entries : List (Scalar × Value)) :
    rereadEntries entries = entries.map fun e => (.text (String.ofList (nameOf e.1)), reread e.2) := by
  induction entries with
  | nil => rfl
  | cons e entries ih => rw [rereadEntries, ih]; rfl

/-- An object with distinct texts for names keeps them. -/
theorem reread_entriesOf {fields : List (String × Value)} (h : (fields.map (·.1)).Nodup) :
    reread (.map (Value.entriesOf fields)) = .map (Value.entriesOf (fields.map fun f => (f.1, reread f.2))) := by
  have hentries : rereadEntries (Value.entriesOf fields) =
      Value.entriesOf (fields.map fun f => (f.1, reread f.2)) := by
    simp [rereadEntries_eq, Value.entriesOf, nameOf, Scalar.plain]
  rw [reread, hentries, Value.ofPairs_entriesOf (by simpa [Function.comp_def] using h)]

theorem written_scalar {s : Scalar} (h : isWritable s = true) :
    Written (.value (.scalar s.reread)) (scalarText true s) := by
  cases s with
  | null => exact (atom_of_readAtom rfl).written
  | bool b => cases b <;> exact (atom_of_readAtom rfl).written
  | int n => exact (atom_intText (of_decide_eq_true h)).written
  | real x => exact (atom_realText x).written
  | text | bytes | date | moment | sink => exact written_string _
  | enclosing => cases h

mutual

/-- What is written without an obstacle is spelled as JSON. -/
theorem written_reread : ∀ (v : Value) (depth : ℕ), obstacle? v = none →
    Written (.value (reread v)) (write .line depth v)
  | .scalar s, _, h => written_scalar (by simpa [obstacle?] using h)
  | .list [], _, _ => ⟨⟨_, .noItems, .token (.mark '[') (.token (.mark ']') (.nil []))⟩,
      show ∀ c ∈ ['[', ']'], Printable c by simp [Printable]⟩
  | .list (v :: items), depth, h => by
    obtain ⟨⟨ts, hts, hsp⟩, hp⟩ := written_items (written_rereadItems (v :: items) (depth + 1) h)
    rw [write, writeItems_eq, List.map_cons, bracketed_line, List.flatMap_map, reread, rereadItems_eq]
    exact ⟨⟨_, .list hts, .token (.mark '[') hsp⟩, List.forall_mem_cons.2 ⟨by decide, hp⟩⟩
  | .map [], _, _ => ⟨⟨_, .noFields, .token (.mark '\x7b') (.token (.mark '\x7d') (.nil []))⟩,
      show ∀ c ∈ ['\x7b', '\x7d'], Printable c by simp [Printable]⟩
  | .map (e :: entries), depth, h => by
    obtain ⟨⟨ts, hts, hsp⟩, hp⟩ := written_fields (fun e : Scalar × Value => nameOf e.1)
      (written_rereadEntries (e :: entries) (depth + 1) h)
    rw [write, writeEntries_eq, List.map_cons, bracketed_line, List.flatMap_map, reread, rereadEntries_eq]
    exact ⟨⟨_, .map hts, .token (.mark '\x7b') hsp⟩, List.forall_mem_cons.2 ⟨by decide, hp⟩⟩
  | .set members, _, _ => written_string _

theorem written_rereadItems : ∀ (items : List Value) (depth : ℕ), itemsObstacle? items = none →
    ∀ v ∈ items, Written (.value (reread v)) (write .line depth v)
  | [], _, _ => by simp
  | v :: items, depth, h => by
    obtain ⟨hv, hitems⟩ := Option.or_eq_none_iff.1 h
    exact List.forall_mem_cons.2 ⟨written_reread v depth hv, written_rereadItems items depth hitems⟩

theorem written_rereadEntries : ∀ (entries : List (Scalar × Value)) (depth : ℕ),
    entriesObstacle? entries = none → ∀ e ∈ entries, Written (.value (reread e.2)) (write .line depth e.2)
  | [], _, _ => by simp
  | (k, v) :: entries, depth, h => by
    obtain ⟨-, h⟩ := Option.or_eq_none_iff.1 h
    obtain ⟨hv, hentries⟩ := Option.or_eq_none_iff.1 h
    exact List.forall_mem_cons.2 ⟨written_reread v depth hv, written_rereadEntries entries depth hentries⟩

end

/-- A value that JSON has a form for: its numbers may be read, and its mappings have distinct texts for keys. -/
inductive Writable : Value → Prop
  | null : Writable .null
  | bool (b : Bool) : Writable (.bool b)
  | int {n : ℤ} (h : (Nat.toDigits 10 n.natAbs).length ≤ Decimal.maxDigits) : Writable (.int n)
  | real {x : Double} (h : x.Proper) : Writable (.real x)
  | text (s : String) : Writable (.text s)
  | list {items : List Value} (h : ∀ v ∈ items, Writable v) : Writable (.list items)
  | map {fields : List (String × Value)} (hd : (fields.map (·.1)).Nodup) (h : ∀ f ∈ fields, Writable f.2) :
      Writable (.map (Value.entriesOf fields))

theorem itemsObstacle?_eq_none {items : List Value} :
    itemsObstacle? items = none ↔ ∀ v ∈ items, obstacle? v = none := by
  induction items with
  | nil => simp [itemsObstacle?]
  | cons v items ih => rw [itemsObstacle?, Option.or_eq_none_iff, ih, List.forall_mem_cons]

theorem entriesObstacle?_eq_none {entries : List (Scalar × Value)} :
    entriesObstacle? entries = none ↔ ∀ e ∈ entries, nameObstacle? e.1 = none ∧ obstacle? e.2 = none := by
  induction entries with
  | nil => simp [entriesObstacle?]
  | cons e entries ih =>
    rw [entriesObstacle?, Option.or_eq_none_iff, Option.or_eq_none_iff, ih, List.forall_mem_cons, and_assoc]

theorem Writable.obstacle?_eq_none {v : Value} (h : Writable v) : obstacle? v = none := by
  induction h with
  | null | bool | text | real => rfl
  | int h => exact if_pos (decide_eq_true h)
  | list h ih => exact itemsObstacle?_eq_none.2 ih
  | @map fields hd h ih =>
    refine entriesObstacle?_eq_none.2 fun e he => ?_
    obtain ⟨f, hf, rfl⟩ := List.mem_map.1 he
    exact ⟨rfl, ih f hf⟩

theorem Writable.reread_eq {v : Value} (h : Writable v) : reread v = v := by
  induction h with
  | null | bool | int => rfl
  | real h => exact congrArg Value.real h.reread
  | text s => exact congrArg Value.text String.ofList_toList
  | @list items h ih =>
    rw [reread, rereadItems_eq]
    exact congrArg Value.list ((List.map_congr_left ih).trans (List.map_id' items))
  | @map fields hd h ih =>
    have hfields : (fields.map fun f => (f.1, reread f.2)) = fields := by
      conv_rhs => rw [← List.map_id fields]
      exact List.map_congr_left fun f hf => Prod.ext rfl (ih f hf)
    rw [reread_entriesOf hd, hfields]

theorem Writable.written_line {v : Value} (h : Writable v) : Written (.value v) (Json.line v) := by
  have hw := written_reread v 0 h.obstacle?_eq_none
  rwa [h.reread_eq] at hw

/-- What is written is read back. -/
theorem Writable.read?_line {v : Value} (h : Writable v) : Json.read? (Json.line v) = some v := by
  obtain ⟨⟨ts, hts, hsp⟩, -⟩ := h.written_line
  exact read?_eq_some.2 ⟨ts, hts, [], hsp, by simp⟩

end Json
end MockTree
