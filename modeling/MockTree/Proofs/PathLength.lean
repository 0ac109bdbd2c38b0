import MockTree.Proofs.Containment

/-! Paths short enough to be looked up. A path of short names with room left for more names still fits
when one of them is joined, so a request whose segments fit in the room of its root is resolved. -/
namespace MockTree
open Text

/-- The room that things take one after another, each with a slash. -/
def roomOf {α : Type} (size : α → Nat) : List α → Nat
  | [] => 0
  | a :: r => size a + 1 + roomOf size r

section
variable {α β : Type} (size : α → Nat)

theorem roomOf_append (l m : List α) : roomOf size (l ++ m) = roomOf size l + roomOf size m := by
  induction l with
  | nil => simp [roomOf]
  | cons a l ih =>
    rw [List.cons_append, roomOf, roomOf, ih]
    omega

theorem roomOf_map (f : β → α) (l : List β) :
    roomOf size (l.map f) = roomOf (fun b => size (f b)) l := by
  induction l with
  | nil => rfl
  | cons b l ih => rw [List.map_cons, roomOf, roomOf, ih]

theorem roomOf_filter_le (keep : α → Bool) (l : List α) :
    roomOf size (l.filter keep) ≤ roomOf size l := by
  induction l with
  | nil => exact Nat.le_refl _
  | cons a l ih =>
    rw [List.filter_cons, roomOf]
    split
    · rw [roomOf]
      omega
    · omega

theorem size_lt_roomOf {l : List α} {a : α} (h : a ∈ l) : size a < roomOf size l := by
  induction l with
  | nil => cases h
  | cons b l ih =>
    rw [roomOf]
    rcases List.mem_cons.1 h with rfl | h
    · omega
    · have := ih h
      omega

end

theorem utf8ByteSize_ofList_cons (c : Char) (s : List Char) :
    (String.ofList (c :: s)).utf8ByteSize = c.utf8Size + (String.ofList s).utf8ByteSize := by
  rw [String.ofList_cons, String.utf8ByteSize_append, String.utf8ByteSize_singleton]

/-- The pieces of a text with a separator for each take no more room than the text and one more. -/
theorem Text.splitAt_size_le (sep : Char) (s : List Char) :
    roomOf (fun p => (String.ofList p).utf8ByteSize) (splitAt sep s) ≤
      (String.ofList s).utf8ByteSize + 1 := by
  induction s with
  | nil => simp [splitAt, roomOf]
  | cons c r ih =>
    have hc := Char.utf8Size_pos c
    rw [splitAt, utf8ByteSize_ofList_cons]
    split
    · have h0 : (String.ofList []).utf8ByteSize = 0 := rfl
      rw [roomOf, h0]
      omega
    · split
      · next p ps hp =>
        rw [hp, roomOf] at ih
        rw [roomOf, utf8ByteSize_ofList_cons]
        omega
      · rw [roomOf, roomOf, utf8ByteSize_ofList_cons]
        have h0 : (String.ofList []).utf8ByteSize = 0 := rfl
        omega

namespace Path

/-- The bytes of a path's names, each with a slash. -/
def bytes (p : Path) : Nat := roomOf String.utf8ByteSize p.names

theorem namesOf_size_le (s : String) : roomOf String.utf8ByteSize (namesOf s) ≤ s.utf8ByteSize + 1 := by
  have h := splitAt_size_le '/' s.toList
  rw [String.ofList_toList] at h
  rw [namesOf, roomOf_map]
  exact Nat.le_trans (roomOf_filter_le _ _ _) h

theorem size_le_of_mem_namesOf {s n : String} (h : n ∈ namesOf s) :
    n.utf8ByteSize ≤ s.utf8ByteSize := by
  have hm := size_lt_roomOf String.utf8ByteSize h
  have hs := namesOf_size_le s
  omega

theorem intercalate_size {names : List String} (h : names ≠ []) :
    1 + (String.intercalate "/" names).utf8ByteSize = roomOf String.utf8ByteSize names := by
  induction names with
  | nil => exact absurd rfl h
  | cons n r ih =>
    cases r with
    | nil => simp [roomOf, Nat.add_comm]
    | cons m r =>
      have hr := ih (by simp)
      have h1 : ("/" : String).utf8ByteSize = 1 := rfl
      rw [String.intercalate_cons_cons, String.utf8ByteSize_append, String.utf8ByteSize_append, h1,
        roomOf, ← hr]
      omega

theorem text_size_le {p : Path} (hp : p.absolute = true) :
    p.text.utf8ByteSize ≤ max 1 p.bytes := by
  have h1 : ("/" : String).utf8ByteSize = 1 := rfl
  rw [text, if_pos hp, String.utf8ByteSize_append, h1]
  by_cases hn : p.names = []
  · rw [hn]
    exact Nat.le_max_left _ _
  · rw [intercalate_size hn]
    exact Nat.le_max_right _ _

/-- An absolute path of names that files can have, with so many bytes left for more of them. -/
structure Fits (p : Path) (room : Nat) : Prop where
  absolute : p.absolute = true
  names : ∀ n ∈ p.names, n.utf8ByteSize ≤ FileTree.maxNameBytes
  bytes : p.bytes + room ≤ FileTree.maxPathBytes

theorem Fits.join {p : Path} {room : Nat} {s : String} (h : p.Fits (s.utf8ByteSize + 1 + room))
    (hs : s.utf8ByteSize ≤ FileTree.maxNameBytes) : (p.join s).Fits room := by
  have hsize := namesOf_size_le s
  have hnames : ∀ n ∈ namesOf s, n.utf8ByteSize ≤ FileTree.maxNameBytes :=
    fun n hn => Nat.le_trans (size_le_of_mem_namesOf hn) hs
  have hb := h.bytes
  rw [Path.bytes] at hb
  rw [Path.join, ofString]
  split
  · next ha => exact ⟨ha, hnames, by rw [Path.bytes]; simp only; omega⟩
  · refine ⟨h.absolute, ?_, ?_⟩
    · intro n hn
      rcases List.mem_append.1 hn with hn | hn
      · exact h.names n hn
      · exact hnames n hn
    · rw [Path.bytes, roomOf_append]
      simp only
      omega

theorem Fits.mono {p : Path} {room less : Nat} (h : p.Fits room) (hl : less ≤ room) : p.Fits less :=
  ⟨h.absolute, h.names, by have := h.bytes; omega⟩

end Path

namespace FileTree

theorem walk_ne_nameTooLong {names : List String} (h : ∀ n ∈ names, n.utf8ByteSize ≤ maxNameBytes)
    (here : FileNode) (above : List FileNode) : walk here above names ≠ .nameTooLong := by
  induction names generalizing here above with
  | nil => simp [walk]
  | cons n r ih =>
    have hr : ∀ m ∈ r, m.utf8ByteSize ≤ maxNameBytes := fun m hm => h m (by simp [hm])
    cases here with
    | file content => simp [walk]
    | directory entries =>
      by_cases hn : n = ".."
      · rw [hn, walk_up]
        exact ih hr _ _
      · rw [walk_name hn, if_neg (by have := h n (by simp); omega)]
        split
        · exact ih hr _ _
        · simp

/-- Looking up a path that fits is never refused for its length. -/
theorem find_ne_nameTooLong {p : Path} (h : p.Fits 0) (t : FileTree) : t.find p ≠ .nameTooLong := by
  have hb := h.bytes
  have ht := Path.text_size_le h.absolute
  have hm : p.text.utf8ByteSize ≤ maxPathBytes := by
    have : (1 : Nat) ≤ maxPathBytes := by decide
    omega
  rw [find]
  split
  · simp
  · rw [if_neg (by omega), absoluteNames, if_pos h.absolute]
    exact walk_ne_nameTooLong h.names _ _

theorem isFile_of_fits {p : Path} (h : p.Fits 0) (t : FileTree) : ∃ b, t.isFile p = .ok b := by
  rw [isFile]
  rcases hf : t.find p with (_ | _) | _ | _ | _ | _
  all_goals first | exact ⟨_, rfl⟩ | exact absurd hf (find_ne_nameTooLong h t)

theorem isDirectory_of_fits {p : Path} (h : p.Fits 0) (t : FileTree) :
    ∃ b, t.isDirectory p = .ok b := by
  rw [isDirectory]
  rcases hf : t.find p with (_ | _) | _ | _ | _ | _
  all_goals first | exact ⟨_, rfl⟩ | exact absurd hf (find_ne_nameTooLong h t)

theorem hasPath_of_fits {p : Path} (h : p.Fits 0) (t : FileTree) : ∃ b, t.hasPath p = .ok b := by
  rw [hasPath]
  rcases hf : t.find p with _ | _ | _ | _ | _
  all_goals first | exact ⟨_, rfl⟩ | exact absurd hf (find_ne_nameTooLong h t)

end FileTree

namespace Resolution

/-- The room that segments may take: each its own name or that of the wildcard directory. -/
def segmentsRoom (segs : List String) : Nat :=
  roomOf (fun s => max s.utf8ByteSize wildcardName.utf8ByteSize) segs

theorem exists_step {t : FileTree} {current : Path} {s : String} {b w : Bool}
    (hb : t.isDirectory (current.join s) = .ok b)
    (hw : t.hasPath (current.join wildcardName) = .ok w) : ∃ st, step t current s = .ok st := by
  rw [step, hb, hw]
  simp only [bind, Except.bind, pure, Except.pure]
  cases isDots s <;> cases b <;> cases w <;> exact ⟨_, rfl⟩

/-- A walk along short segments ends, at a path that still fits. -/
theorem follow_of_fits {segs : List String} (hs : ∀ s ∈ segs, s.utf8ByteSize ≤ FileTree.maxNameBytes)
    (t : FileTree) {current : Path} {room : Nat}
    (h : current.Fits (segmentsRoom segs + room)) :
    ∃ d, follow t current segs = .ok d ∧ d.Fits room := by
  induction segs generalizing current with
  | nil => exact ⟨current, rfl, h.mono (by simp)⟩
  | cons s r ih =>
    have hr : ∀ x ∈ r, x.utf8ByteSize ≤ FileTree.maxNameBytes := fun x hx => hs x (by simp [hx])
    have hroom : segmentsRoom (s :: r) =
        max s.utf8ByteSize wildcardName.utf8ByteSize + 1 + segmentsRoom r := rfl
    have hnamed : (current.join s).Fits (segmentsRoom r + room) :=
      (h.mono (by omega)).join (hs s (by simp))
    have hwild : (current.join wildcardName).Fits (segmentsRoom r + room) :=
      (h.mono (by omega)).join (by decide)
    obtain ⟨b, hb⟩ := FileTree.isDirectory_of_fits (hnamed.mono (Nat.zero_le _)) t
    obtain ⟨w, hw⟩ := FileTree.hasPath_of_fits (hwild.mono (Nat.zero_le _)) t
    obtain ⟨st, hst⟩ := exists_step hb hw
    rw [follow_cons, hst]
    rcases step_cases hst with ⟨-, rfl⟩ | ⟨-, rfl⟩ | ⟨-, rfl⟩
    · exact ih hr hnamed
    · exact ih hr hwild
    · exact ⟨_, rfl, hnamed.mono (by omega)⟩

end Resolution

namespace Engine
open Resolution

/-- A request whose segments and method are short enough for the files under a root. -/
structure Fits (root : Path) (path method : String) : Prop where
  names_short : ∀ s ∈ segments path, s.utf8ByteSize ≤ FileTree.maxNameBytes
  method_short : (definitionName method).utf8ByteSize ≤ FileTree.maxNameBytes
  room : root.Fits (segmentsRoom (segments path) + ((definitionName method).utf8ByteSize + 1))
  fallback_room : root.Fits "/__/GET.mock".utf8ByteSize

theorem Fits.fallbackFile {root : Path} {path method : String} (h : Fits root path method) :
    (fallbackFile root).Fits 0 := by
  have hwild : (root.join wildcardName).Fits "/GET.mock".utf8ByteSize :=
    h.fallback_room.join (by decide)
  exact hwild.join (by decide)

/-- The definition for a request that fits is settled: its own file, the fallback, or none. -/
theorem definition?_of_fits {root : Path} {path method : String} (h : Fits root path method)
    (t : FileTree) : ∃ file?, definition? t root path method = .ok file? := by
  obtain ⟨d, hd, hfit⟩ := follow_of_fits h.names_short t h.room
  have hfile : definitionFile t root path method = .ok (d.join (definitionName method)) := by
    rw [definitionFile, directory, hd]
    rfl
  have hown : (d.join (definitionName method)).Fits 0 := Path.Fits.join hfit h.method_short
  obtain ⟨b, hb⟩ := FileTree.isFile_of_fits hown t
  obtain ⟨c, hc⟩ := FileTree.isFile_of_fits h.fallbackFile t
  rw [definition?_eq, hfile]
  simp only [hb, hc, Except.map]
  cases b with
  | true => exact ⟨_, rfl⟩
  | false => exact ⟨_, rfl⟩

end Engine
end MockTree
