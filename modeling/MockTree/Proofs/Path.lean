import MockTree.Proofs.Text
import MockTree.Resolution

/-! Paths that are built name by name, their resolved form, and the node of a tree that both lead to:
a tree has no links, so going down a name and up again comes back to the same directory. -/
namespace MockTree
open Text

/-- A text that is one name of a path: there is something in it, and no slash. -/
def IsName (s : String) : Prop := s.toList ≠ [] ∧ '/' ∉ s.toList

instance (s : String) : Decidable (IsName s) := inferInstanceAs (Decidable (_ ∧ _))

theorem isName_wildcardName : IsName wildcardName := by decide

theorem isName_of_mem_segments {path s : String} (h : s ∈ segments path) : IsName s := by
  obtain ⟨p, hp, rfl⟩ := List.mem_map.1 h
  obtain ⟨hp, hn⟩ := List.mem_filter.1 hp
  rw [IsName, String.toList_ofList]
  exact ⟨by simpa using hn, not_mem_of_mem_splitAt hp⟩

namespace Path

theorem ofString_of_isName {s : String} (h : IsName s) :
    ofString s = ⟨false, if s = "." then [] else [s]⟩ := by
  have hs : s.toList.head? ≠ some '/' := fun e => h.2 (List.mem_of_mem_head? e)
  have hn : (!s.toList.isEmpty) = true := by simpa using h.1
  simp only [ofString, namesOf, splitAt_of_not_mem h.2, List.filter_cons, List.filter_nil, isKept, hn,
    Bool.true_and, bne_iff_ne, mk.injEq, beq_eq_false_iff_ne]
  refine ⟨hs, ?_⟩
  by_cases hd : s = "."
  · simp [hd]
  · have hl : s.toList ≠ ['.'] := fun e => hd (by rw [← String.ofList_toList (s := s), e])
    simp [hd, hl]

/-- A name goes to the end of a path; a single dot adds nothing. -/
theorem join_of_isName {s : String} (h : IsName s) (p : Path) :
    p.join s = ⟨p.absolute, p.names ++ if s = "." then [] else [s]⟩ := by
  simp [join, ofString_of_isName h]

theorem join_name {s : String} (h : IsName s) (hd : s ≠ ".") (p : Path) :
    p.join s = ⟨p.absolute, p.names ++ [s]⟩ := by
  rw [join_of_isName h, if_neg hd]

theorem foldDots_append (done a b : List String) :
    foldDots done (a ++ b) = foldDots (foldDots done a) b := by
  induction a generalizing done with
  | nil => rfl
  | cons n r ih =>
    by_cases h : n = ".."
    · simp [foldDots, h, ih]
    · simp [foldDots, h, ih]

theorem foldDots_of_no_dots {names : List String} (h : ".." ∉ names) (done : List String) :
    foldDots done names = names.reverse ++ done := by
  induction names generalizing done with
  | nil => rfl
  | cons n r ih =>
    simp only [List.mem_cons, not_or] at h
    rw [foldDots, if_neg (by simpa using Ne.symm h.1), ih h.2]
    simp

/-- A path without double dots is its own resolved form. -/
theorem resolve_of_no_dots {p : Path} (hp : p.absolute = true) (h : ".." ∉ p.names) (w : Path) :
    (p.resolve w).names = p.names := by
  simp [resolve, hp, foldDots_of_no_dots h]

/-- A double dot takes back the name before it, if there is one. -/
theorem resolve_up {p : Path} (hp : p.absolute = true) {a b : List String} (ha : ".." ∉ a)
    (hb : ".." ∉ b) (hn : p.names = a ++ ".." :: b) (w : Path) :
    (p.resolve w).names = a.dropLast ++ b := by
  have hs : foldDots [] p.names = b.reverse ++ a.reverse.tail := by
    rw [hn, foldDots_append, foldDots_of_no_dots ha, foldDots, if_pos (by rfl),
      foldDots_of_no_dots hb]
    simp
  simp [resolve, hp, hs]

/-- An absolute path of proper names. -/
structure Resolved (f : Path) : Prop where
  absolute : f.absolute = true
  names : ∀ n ∈ f.names, IsName n ∧ n ≠ "." ∧ n ≠ ".."

/-- Names joined by slashes are read as those names. -/
theorem namesOf_intercalate {names : List String} (h : ∀ n ∈ names, IsName n ∧ n ≠ ".") :
    namesOf (String.intercalate "/" names) = names := by
  have hkept : ∀ n : String, IsName n → n ≠ "." → isKept n.toList = true := by
    intro n hn hd
    have hdot : n.toList ≠ ['.'] := fun e => hd (by rw [← String.ofList_toList (s := n), e])
    simp [isKept, hn.1, hdot]
  induction names with
  | nil => rfl
  | cons n r ih =>
    obtain ⟨hn, hd⟩ := h n (by simp)
    have hr := ih fun m hm => h m (by simp [hm])
    rw [namesOf] at hr ⊢
    cases r with
    | nil => simp [splitAt_of_not_mem hn.2, hkept n hn hd]
    | cons m r =>
      rw [String.intercalate_cons_cons, String.toList_append, String.toList_append,
        show ("/" : String).toList = ['/'] from rfl, List.append_assoc, List.singleton_append, splitAt_append_cons,
        splitAt_of_not_mem hn.2, List.singleton_append, List.filter_cons, if_pos (hkept n hn hd), List.map_cons, hr,
        String.ofList_toList]

theorem text_toList {f : Path} (h : f.absolute = true) :
    f.text.toList = '/' :: (String.intercalate "/" f.names).toList := by
  rw [text, if_pos h, String.toList_append]
  rfl

/-- A path of proper names is the one its text reads as. -/
theorem Resolved.ofString_text {f : Path} (h : f.Resolved) : ofString f.text = f := by
  have hnames : namesOf f.text = f.names := by
    rw [namesOf, text_toList h.absolute, splitAt, if_pos (by rfl), List.filter_cons, if_neg (by decide)]
    exact namesOf_intercalate fun n hn => ⟨(h.names n hn).1, (h.names n hn).2.1⟩
  rw [ofString, hnames, text_toList h.absolute, List.head?_cons, beq_self_eq_true, ← h.absolute]

theorem Resolved.resolve {f : Path} (h : f.Resolved) (w : Path) : f.resolve w = f := by
  have hno : ".." ∉ f.names := fun hm => (h.names _ hm).2.2 rfl
  have hnames := resolve_of_no_dots h.absolute hno w
  calc f.resolve w = ⟨true, (f.resolve w).names⟩ := rfl
    _ = f := by rw [hnames, ← h.absolute]

/-- Strictly below a directory. -/
def Below (root p : Path) : Prop := root.names <+: p.names ∧ root.names.length < p.names.length

instance (root p : Path) : Decidable (root.Below p) := inferInstanceAs (Decidable (_ ∧ _))

theorem below_of_names {root p : Path} {n : String} {r : List String}
    (h : p.names = root.names ++ n :: r) : root.Below p := by
  simp [Below, h]

end Path

namespace FileTree

theorem walk_name {n : String} (hn : n ≠ "..") (entries : List (String × FileNode))
    (above : List FileNode) (r : List String) :
    walk (.directory entries) above (n :: r) =
      if maxNameBytes < n.utf8ByteSize then .nameTooLong
      else match FileNode.child? n entries with
        | some x => walk x (.directory entries :: above) r
        | none => .missing := by
  rw [walk.eq_def]
  exact if_neg (by simpa using hn)

/-- The directory above the top is the top itself. -/
theorem walk_up (entries : List (String × FileNode)) (above : List FileNode) (r : List String) :
    walk (.directory entries) above (".." :: r) =
      walk (above.headD (.directory entries)) above.tail r := by
  rw [walk.eq_def]
  cases above <;> rfl

/-- A node found by going down from the top: the names taken, last first, and the directories passed,
nearest first. -/
inductive Descent (top : FileNode) : List String → FileNode → List FileNode → Prop
  | top : Descent top [] top []
  | down {done entries above n x} (up : Descent top done (.directory entries) above) (hn : n ≠ "..")
      (hl : n.utf8ByteSize ≤ maxNameBytes) (hx : FileNode.child? n entries = some x) :
      Descent top (n :: done) x (.directory entries :: above)

/-- Walking down the names of a descent leads to where it came. -/
theorem Descent.walk_append {top here : FileNode} {done : List String} {above : List FileNode}
    (h : Descent top done here above) (more : List String) :
    walk top [] (done.reverse ++ more) = walk here above more := by
  induction h generalizing more with
  | top => rfl
  | @down done entries above n x up hn hl hx ih =>
    rw [List.reverse_cons, List.append_assoc, ih, List.singleton_append, walk_name hn,
      if_neg (by omega), hx]

/-- A walk that finds a node is a descent along the names that its double dots leave. -/
theorem Descent.of_walk {top here x : FileNode} {done names : List String} {above : List FileNode}
    (h : Descent top done here above) (hw : walk here above names = .node x) :
    ∃ above', Descent top (Path.foldDots done names) x above' := by
  induction names generalizing done here above with
  | nil =>
    cases hw
    exact ⟨above, h⟩
  | cons n r ih =>
    cases here with
    | file content => cases hw
    | directory entries =>
      by_cases hn : n = ".."
      · subst hn
        rw [walk_up] at hw
        rw [Path.foldDots, if_pos (by rfl)]
        cases h with
        | top => exact ih .top hw
        | down up _ _ _ => exact ih up hw
      · rw [walk_name hn] at hw
        rw [Path.foldDots, if_neg (by simpa using hn)]
        split at hw
        · cases hw
        · next hl =>
          cases hx : FileNode.child? n entries with
          | none => simp [hx] at hw
          | some y =>
            rw [hx] at hw
            exact ih (h.down hn (by omega) hx) hw

theorem walk_of_find {t : FileTree} {p : Path} {x : FileNode} (h : t.find p = .node x) :
    walk t.root [] (t.absoluteNames p) = .node x := by
  rw [find] at h
  split at h
  · cases h
  · split at h
    · cases h
    · exact h

/-- What a path leads to is found at its resolved form. -/
theorem walk_resolve {t : FileTree} {p : Path} (hp : p.absolute = true) {x : FileNode}
    (h : t.find p = .node x) : walk t.root [] (t.resolve p).names = .node x := by
  have hw := walk_of_find h
  rw [absoluteNames, if_pos hp] at hw
  obtain ⟨above, hd⟩ := Descent.of_walk .top hw
  simpa [resolve, Path.resolve, hp, walk] using hd.walk_append []

end FileTree
end MockTree
