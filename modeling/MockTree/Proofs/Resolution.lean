import MockTree.CommandLine.Run
import MockTree.Proofs.PathLength
import MockTree.Server.Handle

/-! Which directory a request leads to, and what answers it. The walk is a relation on the tree: a segment
takes the directory of its name, else the wildcard, else ends the walk. What the walk comes to settles
which file is worked out, what the administration tells of a request and what the command line prints. -/
namespace MockTree
open Text

namespace Path

/-- The path one name further. -/
def child (d : Path) (n : String) : Path := ⟨d.absolute, d.names ++ [n]⟩

@[simp] theorem child_absolute (d : Path) (n : String) : (d.child n).absolute = d.absolute := rfl

@[simp] theorem child_names (d : Path) (n : String) : (d.child n).names = d.names ++ [n] := rfl

@[simp] theorem child_parent (d : Path) (n : String) : (d.child n).parent = d := by
  simp [parent, child]

/-- The text of a path opens the text of what is below it. -/
theorem text_child {d : Path} (h : d.absolute = true) (n : String) :
    ∃ more, (d.child n).text = d.text ++ more := by
  rw [text, text, child_absolute, if_pos h, if_pos h, child_names]
  by_cases hn : d.names = []
  · exact ⟨n, by simp [hn]⟩
  · refine ⟨"/" ++ n, ?_⟩
    rw [String.intercalate_append_of_ne_nil hn (by simp), String.intercalate_singleton]
    simp [String.append_assoc]

end Path

namespace FileTree

def HasDirectory (t : FileTree) (p : Path) : Prop := ∃ entries, t.find p = .node (.directory entries)
def HasFile (t : FileTree) (p : Path) : Prop := ∃ content, t.find p = .node (.file content)
def HasNode (t : FileTree) (p : Path) : Prop := ∃ x, t.find p = .node x

section
variable {t : FileTree} {p : Path} (h : t.find p ≠ .nameTooLong)
include h

theorem isDirectory_iff : ∃ b, t.isDirectory p = .ok b ∧ (b = true ↔ t.HasDirectory p) := by
  rw [isDirectory, HasDirectory]
  rcases hf : t.find p with (_ | _) | _ | _ | _ | _ <;> simp_all [Found.isDirectory]

theorem isFile_iff : ∃ b, t.isFile p = .ok b ∧ (b = true ↔ t.HasFile p) := by
  rw [isFile, HasFile]
  rcases hf : t.find p with (_ | _) | _ | _ | _ | _ <;> simp_all [Found.isFile]

theorem hasPath_iff : ∃ b, t.hasPath p = .ok b ∧ (b = true ↔ t.HasNode p) := by
  rw [hasPath, HasNode]
  rcases hf : t.find p with _ | _ | _ | _ | _ <;> simp_all [Found.exists]

end

/-- Only a directory has something below it. -/
theorem walk_append_name {names : List String} {n : String} {here x : FileNode} {above : List FileNode}
    (h : walk here above (names ++ [n]) = .node x) :
    ∃ entries, walk here above names = .node (.directory entries) := by
  induction names generalizing here above with
  | nil =>
    cases here with
    | file content => cases h
    | directory entries => exact ⟨entries, rfl⟩
  | cons m r ih =>
    cases here with
    | file content => cases h
    | directory entries =>
      by_cases hm : m = ".."
      · subst hm
        rw [List.cons_append, walk_up] at h
        rw [walk_up]
        exact ih h
      · rw [List.cons_append, walk_name hm] at h
        rw [walk_name hm]
        split at h
        · cases h
        · next hl =>
          rw [if_neg hl]
          cases hx : FileNode.child? m entries with
          | none => rw [hx] at h; cases h
          | some y =>
            rw [hx] at h
            exact ih h

theorem hasDirectory_of_child {t : FileTree} {d : Path} (ha : d.absolute = true) {n : String}
    (h : t.HasNode (d.child n)) : t.HasDirectory d := by
  obtain ⟨x, hx⟩ := h
  obtain ⟨more, ht⟩ := Path.text_child ha n
  rw [find, ht] at hx
  rw [HasDirectory, find]
  split at hx
  · cases hx
  · next hnull =>
    split at hx
    · cases hx
    · next hlong =>
      have hn : d.text.toList.contains '\x00' = false := by
        simp only [String.toList_append, List.contains_append] at hnull
        simpa using fun he => hnull (by simp [he])
      have hl : ¬ maxPathBytes < d.text.utf8ByteSize := by
        rw [String.utf8ByteSize_append] at hlong
        omega
      rw [if_neg (by simpa using hn), if_neg hl]
      rw [absoluteNames, if_pos (by simpa using ha), Path.child_names] at hx
      rw [absoluteNames, if_pos ha]
      exact walk_append_name hx

end FileTree

/-- A path continued by another has the segments of both. -/
theorem segments_append (p q : String) : segments (p ++ "/" ++ q) = segments p ++ segments q := by
  have h : (p ++ "/" ++ q).toList = p.toList ++ '/' :: q.toList := by simp
  rw [segments, h, splitAt_append_cons, List.filter_append, List.map_append]
  rfl

namespace Resolution

/-- Where the segments of a request lead from a directory, and whether every one of them is matched. -/
inductive Leads (t : FileTree) : Path → List String → Bool → Path → Prop
  | done {d} : Leads t d [] true d
  | named {d s r matched e} (hd : t.HasDirectory (d.child s)) (rest : Leads t (d.child s) r matched e) :
      Leads t d (s :: r) matched e
  | wild {d s r matched e} (hd : ¬ t.HasDirectory (d.child s)) (hw : t.HasNode (d.child wildcardName))
      (rest : Leads t (d.child wildcardName) r matched e) : Leads t d (s :: r) matched e
  | stopped {d s r} (hd : ¬ t.HasDirectory (d.child s)) (hw : ¬ t.HasNode (d.child wildcardName)) :
      Leads t d (s :: r) false (d.child s)

/-- A walk leads to one place. -/
theorem Leads.unique {t : FileTree} {d e e' : Path} {segs : List String} {m m' : Bool}
    (h : Leads t d segs m e) (h' : Leads t d segs m' e') : m' = m ∧ e' = e := by
  induction h with
  | done => cases h'; exact ⟨rfl, rfl⟩
  | named hd _ ih =>
    cases h' with
    | named _ rest => exact ih rest
    | wild hd' => exact absurd hd hd'
    | stopped hd' => exact absurd hd hd'
  | wild hd hw _ ih =>
    cases h' with
    | named hd' => exact absurd hd' hd
    | wild _ _ rest => exact ih rest
    | stopped _ hw' => exact absurd hw hw'
  | stopped hd hw =>
    cases h' with
    | named hd' => exact absurd hd' hd
    | wild _ hw' => exact absurd hw' hw
    | stopped => exact ⟨rfl, rfl⟩

/-- A walk that has matched every segment goes on from where it came. -/
theorem Leads.append {t : FileTree} {c d e : Path} {segs more : List String} {m : Bool}
    (h : Leads t c segs true d) (h' : Leads t d more m e) : Leads t c (segs ++ more) m e := by
  generalize hb : true = b at h
  induction h with
  | done => exact h'
  | named hd _ ih => exact .named hd (ih h' hb)
  | wild hd hw _ ih => exact .wild hd hw (ih h' hb)
  | stopped => cases hb

/-- A chain of directories leads along itself. -/
theorem Leads.of_chain {t : FileTree} {segs : List String} {d : Path}
    (h : ∀ before, before ≠ [] → before <+: segs → t.HasDirectory ⟨d.absolute, d.names ++ before⟩) :
    Leads t d segs true ⟨d.absolute, d.names ++ segs⟩ := by
  induction segs generalizing d with
  | nil => simpa using Leads.done
  | cons s r ih =>
    have hs : t.HasDirectory (d.child s) := h [s] (by simp) (by simp)
    have hr := @ih (d.child s) fun before hne hp => by
      simpa using h (s :: before) (by simp) (by simpa using hp)
    refine .named hs ?_
    simpa using hr

theorem Leads.absolute {t : FileTree} {d e : Path} {segs : List String} {m : Bool}
    (h : Leads t d segs m e) : e.absolute = d.absolute := by
  induction h with
  | done | stopped => rfl
  | named _ _ ih | wild _ _ _ ih => exact ih

/-- Segments that are no double dots lead to a path without any. -/
theorem Leads.no_dots {t : FileTree} {d e : Path} {segs : List String} {m : Bool}
    (h : Leads t d segs m e) (hs : ".." ∉ segs) (hd : ".." ∉ d.names) : ".." ∉ e.names := by
  have hw : ".." ≠ wildcardName := by decide
  induction h with
  | done => exact hd
  | named _ _ ih | wild _ _ _ ih | stopped => simp_all

/-- Where a walk stopped there is no directory. -/
theorem Leads.not_hasDirectory {t : FileTree} {d e : Path} {segs : List String}
    (h : Leads t d segs false e) : ¬ t.HasDirectory e := by
  generalize hb : false = b at h
  induction h with
  | done => cases hb
  | named _ _ ih | wild _ _ _ ih => exact ih hb
  | stopped hd => exact hd

/-- No path looked at on the way is too long for the file system. -/
def ShortWay (t : FileTree) (d : Path) (segs : List String) : Prop :=
  ∀ before s after c, segs = before ++ s :: after → Leads t d before true c →
    t.find (c.child s) ≠ .nameTooLong ∧ t.find (c.child wildcardName) ≠ .nameTooLong

theorem ShortWay.rest {t : FileTree} {c d : Path} {segs more : List String}
    (h : ShortWay t c (segs ++ more)) (hl : Leads t c segs true d) : ShortWay t d more := by
  intro before s after e he hb
  exact h (segs ++ before) s after e (by simp [he]) (hl.append hb)

/-- Everything a step can do, by what the tree holds. -/
theorem step_of_short {t : FileTree} {d : Path} {s : String} (hs : IsName s) (hdots : isDots s = false)
    (hn : t.find (d.child s) ≠ .nameTooLong) (hw : t.find (d.child wildcardName) ≠ .nameTooLong) :
    (t.HasDirectory (d.child s) ∧ step t d s = .ok (.onward (d.child s))) ∨
    (¬ t.HasDirectory (d.child s) ∧ t.HasNode (d.child wildcardName) ∧
      step t d s = .ok (.onward (d.child wildcardName))) ∨
    (¬ t.HasDirectory (d.child s) ∧ ¬ t.HasNode (d.child wildcardName) ∧
      step t d s = .ok (.stop (d.child s))) := by
  obtain ⟨b, hb, hbi⟩ := FileTree.isDirectory_iff hn
  obtain ⟨w, hwb, hwi⟩ := FileTree.hasPath_iff hw
  have hd : s ≠ "." := by
    rintro rfl
    cases hdots
  have hj : d.join s = d.child s := Path.join_name hs hd d
  have hjw : d.join wildcardName = d.child wildcardName := Path.join_name isName_wildcardName (by decide) d
  rw [step, hj, hjw, hdots, hb, hwb, ← hbi, ← hwi]
  cases b <;> cases w <;> simp [bind, Except.bind, pure, Except.pure]

/-- The walk along segments that are no dots comes to where they lead. -/
theorem exists_leads {t : FileTree} {segs : List String} (hs : ∀ s ∈ segs, IsName s ∧ isDots s = false)
    {d : Path} (h : ShortWay t d segs) : ∃ m e, Leads t d segs m e ∧ follow t d segs = .ok e := by
  induction segs generalizing d with
  | nil => exact ⟨true, d, .done, rfl⟩
  | cons s r ih =>
    obtain ⟨hname, hdots⟩ := hs s (by simp)
    have hr : ∀ x ∈ r, IsName x ∧ isDots x = false := fun x hx => hs x (by simp [hx])
    obtain ⟨hn, hw⟩ := h [] s r d rfl .done
    rw [follow_cons]
    rcases step_of_short hname hdots hn hw with ⟨hd, hst⟩ | ⟨hd, hx, hst⟩ | ⟨hd, hx, hst⟩
    · have hone : Leads t d [s] true (d.child s) := .named hd .done
      obtain ⟨m, e, hl, hf⟩ := ih hr (ShortWay.rest (show ShortWay t d ([s] ++ r) from h) hone)
      exact ⟨m, e, .named hd hl, by rw [hst]; exact hf⟩
    · have hone : Leads t d [s] true (d.child wildcardName) := .wild hd hx .done
      obtain ⟨m, e, hl, hf⟩ := ih hr (ShortWay.rest (show ShortWay t d ([s] ++ r) from h) hone)
      exact ⟨m, e, .wild hd hx hl, by rw [hst]; exact hf⟩
    · exact ⟨false, d.child s, .stopped hd hx, by rw [hst]⟩

/-- A request none of whose look-ups is too long for the file system. -/
structure Short (t : FileTree) (root : Path) (path method : String) : Prop where
  way : ShortWay t root (segments path)
  definition : ∀ m d, Leads t root (segments path) m d →
    t.find (d.child (definitionName method)) ≠ .nameTooLong
  fallback : t.find (Engine.fallbackFile root) ≠ .nameTooLong

theorem definitionName_slashless {method : String} (h : '/' ∉ (definitionName method).toList) :
    IsName (definitionName method) ∧ definitionName method ≠ "." := by
  have hl : (definitionName method).toList = (upper method).toList ++ ".mock".toList :=
    String.toList_append
  refine ⟨⟨by simp [hl], h⟩, fun he => ?_⟩
  rw [he] at hl
  simpa using congrArg List.length hl

end Resolution

section
open Resolution

/-- A path with room for a segment and more has room for more below the segment and the wildcard. -/
theorem Path.Fits.children {d : Path} {s : String} {r : List String} {room : Nat}
    (h : d.Fits (segmentsRoom (s :: r) + room)) (hs : IsName s ∧ isDots s = false)
    (hl : s.utf8ByteSize ≤ FileTree.maxNameBytes) :
    (d.child s).Fits (segmentsRoom r + room) ∧ (d.child wildcardName).Fits (segmentsRoom r + room) := by
  have hroom : segmentsRoom (s :: r) =
      max s.utf8ByteSize wildcardName.utf8ByteSize + 1 + segmentsRoom r := rfl
  have hd : s ≠ "." := by
    rintro rfl
    cases hs.2
  have hlong : d.Fits (s.utf8ByteSize + 1 + (segmentsRoom r + room)) := h.mono (by omega)
  have hlong' : d.Fits (wildcardName.utf8ByteSize + 1 + (segmentsRoom r + room)) := h.mono (by omega)
  have hnamed := hlong.join hl
  have hwild := hlong'.join (by decide)
  rw [Path.join_name hs.1 hd] at hnamed
  rw [Path.join_name isName_wildcardName (by decide)] at hwild
  exact ⟨hnamed, hwild⟩

/-- A walk with room for its segments leads to a path with the room that is left. -/
theorem Resolution.Leads.fits {t : FileTree} {d e : Path} {segs : List String} {m : Bool} {room : Nat}
    (h : Leads t d segs m e) (hs : ∀ s ∈ segs, IsName s ∧ isDots s = false)
    (hl : ∀ s ∈ segs, s.utf8ByteSize ≤ FileTree.maxNameBytes)
    (hd : d.Fits (segmentsRoom segs + room)) : e.Fits room := by
  induction h with
  | done => exact hd.mono (by omega)
  | named _ _ ih =>
    refine ih (fun x hx => hs x (by simp [hx])) (fun x hx => hl x (by simp [hx])) ?_
    exact (hd.children (hs _ (by simp)) (hl _ (by simp))).1
  | wild _ _ _ ih =>
    refine ih (fun x hx => hs x (by simp [hx])) (fun x hx => hl x (by simp [hx])) ?_
    exact (hd.children (hs _ (by simp)) (hl _ (by simp))).2
  | stopped => exact (hd.children (hs _ (by simp)) (hl _ (by simp))).1.mono (by omega)

/-- A request that fits has no look-up that is too long. -/
theorem Resolution.short_of_fits {root : Path} {path method : String}
    (hdots : ∀ s ∈ segments path, isDots s = false) (hm : '/' ∉ (definitionName method).toList)
    (h : Engine.Fits root path method) (t : FileTree) : Short t root path method := by
  have hs : ∀ s ∈ segments path, IsName s ∧ isDots s = false :=
    fun s hs => ⟨isName_of_mem_segments hs, hdots s hs⟩
  have hfind : ∀ {p : Path} {room : Nat}, p.Fits room → t.find p ≠ .nameTooLong :=
    fun hp => FileTree.find_ne_nameTooLong (hp.mono (Nat.zero_le _)) t
  refine ⟨?_, ?_, hfind h.fallbackFile⟩
  · intro before s after c he hl
    have hroom := h.room
    rw [he, segmentsRoom, roomOf_append, Nat.add_assoc] at hroom
    have hc := hl.fits (fun x hx => hs x (by simp [he, hx])) (fun x hx => h.names_short x (by simp [he, hx]))
      hroom
    have hn := hc.children (hs s (by simp [he])) (h.names_short s (by simp [he]))
    exact ⟨hfind hn.1, hfind hn.2⟩
  · intro m d hl
    obtain ⟨hname, hdot⟩ := definitionName_slashless hm
    have hlong : d.Fits ((definitionName method).utf8ByteSize + 1 + 0) :=
      hl.fits hs h.names_short h.room
    have hd := hlong.join h.method_short
    rw [Path.join_name hname hdot] at hd
    exact hfind hd

/-- What settles a request: the directory it leads to, whether all its segments are matched, whether
its own definition is there, and whether the fallback is. -/
structure Choice where
  directory : Path
  matched : Bool
  present : Bool
  fallback : Bool
  deriving DecidableEq, Repr

namespace Choice

/-- The file of the request's own definition. -/
def definition (c : Choice) (method : String) : Path := c.directory.child (definitionName method)

@[simp] theorem definition_parent (c : Choice) (method : String) :
    (c.definition method).parent = c.directory := Path.child_parent _ _

/-- The choice is the one that the tree makes for a path and a method. -/
structure Settles (t : FileTree) (root : Path) (path method : String) (c : Choice) : Prop where
  leads : Leads t root (segments path) c.matched c.directory
  present : c.present = true ↔ t.HasFile (c.definition method)
  fallback : c.fallback = true ↔ t.HasFile (Engine.fallbackFile root)

/-- The request's own definition if it is there, else the fallback, else the fixed response. -/
def answer (c : Choice) (registry : Registry) (root : Path) (s : Setting) : Work Response :=
  if c.present then compileFile registry s (c.definition s.request.method)
  else if c.fallback then compileFile registry s (Engine.fallbackFile root)
  else pure .notFound

/-- What the administration tells of it. -/
def report (c : Choice) (path method : String) : Value :=
  .map [(.text "path", .text path), (.text "method", .text method),
    (.text "directory", .text c.directory.text), (.text "mock_file", .text (c.definition method).text),
    (.text "exists", .bool c.present), (.text "global_default", .bool c.fallback)]

/-- What the command line says of the file. -/
def note (c : Choice) (root : Path) : List Char :=
  if c.present then "   ✅ Mock file exists".toList
  else if c.fallback then
    "   ⚠️  Mock file missing, global default ".toList ++ (Engine.fallbackFile root).text.toList ++
      " will be used".toList
  else "   ⚠️  Mock file missing, built-in 404 will be used".toList

/-- What the command line prints of it. -/
def lines (c : Choice) (root : Path) (path method : String) : List Char :=
  CommandLine.line ("🔍 ".toList ++ method.toList ++ ' ' :: path.toList) ++
  CommandLine.line ("   Directory: ".toList ++ c.directory.text.toList) ++
  CommandLine.line ("   Mock file: ".toList ++ (c.definition method).text.toList) ++
  CommandLine.line (c.note root)

theorem Settles.unique {t : FileTree} {root : Path} {path method : String} {c c' : Choice}
    (h : Settles t root path method c) (h' : Settles t root path method c') : c' = c := by
  obtain ⟨d, m, p, f⟩ := c
  obtain ⟨d', m', p', f'⟩ := c'
  obtain ⟨rfl, rfl⟩ := h.leads.unique h'.leads
  have hp : p' = p := Bool.eq_iff_iff.2 (h'.present.trans h.present.symm)
  have hf : f' = f := Bool.eq_iff_iff.2 (h'.fallback.trans h.fallback.symm)
  rw [hp, hf]

/-- Where the walk stopped there is no definition. -/
theorem Settles.not_present {t : FileTree} {root : Path} {path method : String} {c : Choice}
    (h : Settles t root path method c) (ha : root.absolute = true) (hm : c.matched = false) :
    c.present = false := by
  have hl := h.leads
  rw [hm] at hl
  rw [← Bool.not_eq_true, h.present]
  rintro ⟨content, hc⟩
  exact hl.not_hasDirectory (FileTree.hasDirectory_of_child (hl.absolute.trans ha) ⟨_, hc⟩)

end Choice

/-- What the program finds when it looks for the files of a request. -/
structure Choice.Found (t : FileTree) (root : Path) (path method : String) (c : Choice) : Prop where
  directory : Resolution.directory t root path = .ok c.directory
  definition : definitionFile t root path method = .ok (c.definition method)
  present : t.isFile (c.definition method) = .ok c.present
  fallback : t.isFile (Engine.fallbackFile root) = .ok c.fallback

/-- The program finds what the tree settles. -/
theorem Choice.exists_settles {t : FileTree} {root : Path} {path method : String}
    (hdots : ∀ s ∈ segments path, isDots s = false) (hm : '/' ∉ (definitionName method).toList)
    (h : Short t root path method) :
    ∃ c : Choice, c.Settles t root path method ∧ c.Found t root path method := by
  obtain ⟨m, d, hl, hf⟩ := exists_leads (fun s hs => ⟨isName_of_mem_segments hs, hdots s hs⟩) h.way
  obtain ⟨p, hp, hpi⟩ := FileTree.isFile_iff (h.definition m d hl)
  obtain ⟨b, hb, hbi⟩ := FileTree.isFile_iff h.fallback
  obtain ⟨hname, hdot⟩ := definitionName_slashless hm
  refine ⟨⟨d, m, p, b⟩, ⟨hl, hpi, hbi⟩, hf, ?_, hp, hb⟩
  rw [definitionFile, Resolution.directory, hf]
  exact congrArg Except.ok (Path.join_name hname hdot d)

/-- The rest of a path is resolved from where its matched start leads, with no way back. -/
theorem Choice.Settles.directory_rest {t : FileTree} {root d : Path} {path method p q : String}
    {c : Choice} (h : c.Settles t root path method) (hr : ".." ∉ root.names)
    (ha : root.absolute = true) (hdots : ∀ s ∈ segments path, isDots s = false)
    (hw : ShortWay t root (segments path)) (hpath : path = p ++ "/" ++ q)
    (hp : Leads t root (segments p) true d) : Resolution.directory t (t.resolve d) q = .ok c.directory := by
  have hseg : segments path = segments p ++ segments q := by rw [hpath, segments_append]
  have hnd : ".." ∉ segments p := fun hd => absurd (hdots ".." (by simp [hseg, hd])) (by decide)
  have hres : t.resolve d = d := by
    have habs : d.absolute = true := hp.absolute.trans ha
    have hnames := Path.resolve_of_no_dots habs (hp.no_dots hnd hr) t.working
    calc t.resolve d = ⟨true, (d.resolve t.working).names⟩ := rfl
      _ = d := by rw [hnames, ← habs]
  rw [hseg] at hw
  obtain ⟨m, e, hl, hf⟩ := exists_leads
    (fun s hs => ⟨isName_of_mem_segments hs, hdots s (by simp [hseg, hs])⟩) (hw.rest hp)
  have hall := hp.append hl
  rw [← hseg] at hall
  rw [hres, Resolution.directory, hf, (h.leads.unique hall).2]

namespace Choice.Found
variable {t : FileTree} {root : Path} {c : Choice}

theorem respond_runIn {registry : Registry} {s : Setting}
    (h : c.Found s.files root s.request.path s.request.method) (σ : Session) :
    (Engine.respond registry root s).runIn σ = (c.answer registry root s).runIn σ := by
  rw [Engine.respond_runIn, Engine.definition?_eq, h.definition]
  simp only [h.present, h.fallback, Choice.answer]
  cases c.present <;> cases c.fallback <;> rfl

/-- The administration answers with the report of the choice. -/
theorem handle {server : Server} {path method : String} (h : c.Found t server.root path method)
    {r : Incoming} (hroute : Route.find server.config r.method r.target.path = .admin .place)
    (hp : (Request.simple (Server.queryField "method" "GET" r.target.query)
      (Server.queryField "path" "/" r.target.query)).path = path)
    (hm : (Request.simple (Server.queryField "method" "GET" r.target.query)
      (Server.queryField "path" "/" r.target.query)).method = method)
    {registry : Registry} {s : Setting} (hs : s.files = t) :
    server.handle registry s r = (Server.replied (.json 200 (c.report path method)), server) := by
  have hplace : server.placeValue t (Server.queryField "method" "GET" r.target.query)
      (Server.queryField "path" "/" r.target.query) = .ok (c.report path method) := by
    simp only [Server.placeValue, hp, hm, h.definition, h.present, h.fallback, bind, Except.bind, pure,
      Except.pure, report, definition_parent]
  have hfinite : Server.isFinite (c.report path method) = true := rfl
  simp only [Server.handle, hroute, Server.administer, hs, hplace, Except.bind, Server.written, hfinite,
    if_true]

/-- The command line prints the choice. -/
theorem run {path method : String} (h : c.Found t root path method) {args : List String}
    {form : CommandLine.Form} {g : CommandLine.Given} (hread : CommandLine.read args = .command form g)
    (hform : form.name = CommandLine.Form.resolve.name) (hroot : CommandLine.rootOf t g = .ok root)
    (hp : (Request.simple (CommandLine.methodOf g) (g.operand.getD "")).path = path)
    (hm : (Request.simple (CommandLine.methodOf g) (g.operand.getD "")).method = method) {s : Setting}
    (hs : s.files = t) (program : String) (interrupted : Bool) :
    CommandLine.run program interrupted s args = .done (c.lines root path method) := by
  have hserve : (CommandLine.Form.resolve.name == CommandLine.Form.serve.name) = false := by decide
  have hresolve : (CommandLine.Form.resolve.name == CommandLine.Form.resolve.name) = true := by decide
  simp only [CommandLine.run, hread, hform, hserve, hresolve, CommandLine.resolve, hs, hroot, hp, hm,
    h.definition, h.present, h.fallback, bind, Except.bind, pure, Except.pure, if_true,
    Bool.false_eq_true, if_false, definition_parent]
  cases hp : c.present <;> cases hf : c.fallback <;> simp [lines, note, hp, hf]

end Choice.Found

namespace Engine

/-- For every tree, directory of definitions and request without dots, none of whose look-ups is too long:
the tree settles one choice and the program finds it. A chain of directories is its own result, the rest
of a path is resolved from where its matched start leads, and where the walk stops there is no directory
and no definition. The engine answers by the choice, and the administration and the command line tell it
of the same path and method. -/
theorem respond_settled (registry : Registry) (s : Setting) (dir : Path)
    (hdots : ∀ x ∈ segments s.request.path, isDots x = false)
    (hmethod : '/' ∉ (definitionName s.request.method).toList)
    (hshort : Short s.files (s.files.resolve dir) s.request.path s.request.method) :
    let root := s.files.resolve dir
    let path := s.request.path
    let method := s.request.method
    ∃ c : Choice, c.Settles s.files root path method ∧
      (∀ c', Choice.Settles s.files root path method c' → c' = c) ∧
      Resolution.directory s.files root path = .ok c.directory ∧
      ((∀ before, before ≠ [] → before <+: segments path →
        s.files.HasDirectory ⟨root.absolute, root.names ++ before⟩) →
        c.directory = ⟨root.absolute, root.names ++ segments path⟩) ∧
      (∀ p q d, path = p ++ "/" ++ q → Leads s.files root (segments p) true d →
        Resolution.directory s.files (s.files.resolve d) q = .ok c.directory) ∧
      (c.matched = false → ¬ s.files.HasDirectory c.directory ∧ c.present = false) ∧
      (∀ σ, (respond registry root s).runIn σ = (c.answer registry root s).runIn σ) ∧
      (∀ (server : Server) (r : Incoming), server.root = root →
        Route.find server.config r.method r.target.path = .admin .place →
        (Request.simple (Server.queryField "method" "GET" r.target.query)
          (Server.queryField "path" "/" r.target.query)).path = path →
        (Request.simple (Server.queryField "method" "GET" r.target.query)
          (Server.queryField "path" "/" r.target.query)).method = method →
        server.handle registry s r = (Server.replied (.json 200 (c.report path method)), server)) ∧
      (∀ program interrupted args form g, CommandLine.read args = .command form g →
        form.name = CommandLine.Form.resolve.name → CommandLine.rootOf s.files g = .ok root →
        (Request.simple (CommandLine.methodOf g) (g.operand.getD "")).path = path →
        (Request.simple (CommandLine.methodOf g) (g.operand.getD "")).method = method →
        CommandLine.run program interrupted s args = .done (c.lines root path method)) := by
  intro root path method
  have ha : root.absolute = true := rfl
  have hr : ".." ∉ root.names := Path.resolve_no_dots dir s.files.working
  obtain ⟨c, hc, hf⟩ := Choice.exists_settles hdots hmethod hshort
  refine ⟨c, hc, fun c' => hc.unique, hf.directory, ?_, ?_, ?_, hf.respond_runIn, ?_, ?_⟩
  · intro hchain
    exact ((Leads.of_chain hchain).unique hc.leads).2
  · intro p q d hpath hp
    exact hc.directory_rest hr ha hdots hshort.way hpath hp
  · intro hm
    have hl := hc.leads
    rw [hm] at hl
    exact ⟨hl.not_hasDirectory, hc.not_present ha hm⟩
  · intro server r hroot hroute hp hm
    have hserver : c.Found s.files server.root path method := hroot.symm ▸ hf
    exact hserver.handle hroute hp hm rfl
  · intro program interrupted args form g hread hform hroot hp hm
    exact hf.run hread hform hroot hp hm rfl program interrupted

/-- A tree of definitions for users: one for any of them, and a user by name who has none. -/
def usersTree : FileTree :=
  ⟨.directory [("m", .directory [("users", .directory [
    ("__", .directory [("GET.mock", .file "HTTP/1.1 200\n\nuser".toUTF8.toList)]),
    ("me", .directory [])])])], ⟨true, []⟩⟩

theorem respond_settled_user :
    let s := Setting.still usersTree (.simple "GET" "/users/42")
    (∀ x ∈ segments s.request.path, isDots x = false) ∧
    '/' ∉ (definitionName s.request.method).toList ∧
    Short s.files ⟨true, ["m"]⟩ s.request.path s.request.method ∧
    ∀ σ, (respond [] ⟨true, ["m"]⟩ s).runIn σ =
      (compileFile [] s ⟨true, ["m", "users", "__", "GET.mock"]⟩).runIn σ := by
  intro s
  have hdots : ∀ x ∈ segments s.request.path, isDots x = false := by decide +kernel
  have hmethod : '/' ∉ (definitionName s.request.method).toList := by decide +kernel
  have hfits : Fits ⟨true, ["m"]⟩ s.request.path s.request.method :=
    ⟨by decide +kernel, by decide +kernel, ⟨rfl, by decide +kernel, by decide +kernel⟩,
      ⟨rfl, by decide +kernel, by decide +kernel⟩⟩
  have hshort := short_of_fits hdots hmethod hfits s.files
  obtain ⟨c, hc, -, hd, -, -, -, hr, -⟩ := respond_settled [] s ⟨true, ["m"]⟩ hdots hmethod hshort
  have hdir : Resolution.directory s.files ⟨true, ["m"]⟩ s.request.path =
      .ok ⟨true, ["m", "users", "__"]⟩ := by decide +kernel
  have hfile : s.files.isFile ⟨true, ["m", "users", "__", "GET.mock"]⟩ = .ok true := by decide +kernel
  have hdef : c.definition s.request.method = ⟨true, ["m", "users", "__", "GET.mock"]⟩ := by
    rw [Choice.definition, ← Except.ok.inj (hdir.symm.trans hd)]
    decide +kernel
  have hpresent : c.present = true := hc.present.2 (hdef ▸ isFile_eq_true hfile)
  refine ⟨hdots, hmethod, hshort, fun σ => (hr σ).trans ?_⟩
  rw [Choice.answer, if_pos hpresent, hdef]

end Engine

end
end MockTree
