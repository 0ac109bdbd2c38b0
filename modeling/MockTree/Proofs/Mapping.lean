import Mathlib.Data.List.Induction
import Mathlib.Data.List.Nodup
import MockTree.Value.Basic

/-! Mappings and their fields. What a key leads to, what inserting changes, and that values can be compared. -/
namespace MockTree

theorem Scalar.same_text {a b : String} : (Scalar.text a).same (.text b) = (a == b) := by
  rw [Bool.eq_iff_iff, beq_iff_eq]
  simp [Scalar.same, Scalar.number?]

namespace Value

mutual

def decEq : (v w : Value) → Decidable (v = w)
  | .scalar s, .scalar t => decidable_of_iff (s = t) (by simp)
  | .list a, .list b =>
    match decEqItems a b with
    | .isTrue h => .isTrue (by rw [h])
    | .isFalse h => .isFalse (by simpa using h)
  | .map a, .map b =>
    match decEqEntries a b with
    | .isTrue h => .isTrue (by rw [h])
    | .isFalse h => .isFalse (by simpa using h)
  | .set a, .set b => decidable_of_iff (a = b) (by simp)
  | .scalar _, .list _ | .scalar _, .map _ | .scalar _, .set _ => .isFalse (by simp)
  | .list _, .scalar _ | .list _, .map _ | .list _, .set _ => .isFalse (by simp)
  | .map _, .scalar _ | .map _, .list _ | .map _, .set _ => .isFalse (by simp)
  | .set _, .scalar _ | .set _, .list _ | .set _, .map _ => .isFalse (by simp)

def decEqItems : (vs ws : List Value) → Decidable (vs = ws)
  | [], [] => .isTrue rfl
  | v :: vs, w :: ws =>
    match decEq v w, decEqItems vs ws with
    | .isTrue h, .isTrue h' => .isTrue (by rw [h, h'])
    | .isFalse h, _ => .isFalse (by simp [h])
    | _, .isFalse h => .isFalse (by simp [h])
  | [], _ :: _ | _ :: _, [] => .isFalse (by simp)

def decEqEntries : (vs ws : List (Scalar × Value)) → Decidable (vs = ws)
  | [], [] => .isTrue rfl
  | (k, v) :: vs, (l, w) :: ws =>
    match instDecidableEqScalar k l, decEq v w, decEqEntries vs ws with
    | .isTrue h, .isTrue h', .isTrue h'' => .isTrue (by rw [h, h', h''])
    | .isFalse h, _, _ => .isFalse (by simp [h])
    | _, .isFalse h, _ => .isFalse (by simp [h])
    | _, _, .isFalse h => .isFalse (by simp [h])
  | [], _ :: _ | _ :: _, [] => .isFalse (by simp)

end

instance : DecidableEq Value := decEq

theorem mem_insert {key : Scalar} {value : Value} {entries : List (Scalar × Value)} {e : Scalar × Value}
    (h : e ∈ insert key value entries) : e.1 = key ∨ e.1 ∈ entries.map (·.1) := by
  induction entries with
  | nil => exact .inl (by simp_all [insert])
  | cons x entries ih =>
    rw [insert] at h
    split at h
    · rcases List.mem_cons.1 h with rfl | h
      · exact .inr (by simp)
      · exact .inr (List.mem_map.2 ⟨e, by simp [h], rfl⟩)
    · rcases List.mem_cons.1 h with rfl | h
      · exact .inr (by simp)
      · exact (ih h).imp_right fun hm => by simp_all

theorem find?_append {key : Scalar} {a b : List (Scalar × Value)} (h : ∀ e ∈ a, e.1.same key = false) :
    find? key (a ++ b) = find? key b := by
  induction a with
  | nil => rfl
  | cons e a ih =>
    rw [List.cons_append, find?, if_neg (by simp [h e]), ih fun x hx => h x (by simp [hx])]

theorem mem_of_find? {key : Scalar} {entries : List (Scalar × Value)} {v : Value}
    (h : find? key entries = some v) : ∃ e ∈ entries, e.2 = v := by
  induction entries with
  | nil => cases h
  | cons e entries ih =>
    rw [find?] at h
    split at h
    · cases h
      exact ⟨e, by simp, rfl⟩
    · obtain ⟨x, hx, hv⟩ := ih h
      exact ⟨x, by simp [hx], hv⟩

/-- Fields of an object as entries of a mapping. -/
def entriesOf (fields : List (String × Value)) : List (Scalar × Value) := fields.map fun f => (.text f.1, f.2)

theorem insert_of_not_mem {name : String} {fields : List (String × Value)} (h : name ∉ fields.map (·.1))
    (v : Value) : insert (.text name) v (entriesOf fields) = entriesOf (fields ++ [(name, v)]) := by
  induction fields with
  | nil => rfl
  | cons f fields ih =>
    simp only [List.map_cons, List.mem_cons, not_or] at h
    change insert _ _ ((.text f.1, f.2) :: entriesOf fields) = _
    rw [insert, Scalar.same_text, if_neg (by simpa using Ne.symm h.1), ih h.2]
    rfl

/-- Fields of distinct names are a mapping as they are. -/
theorem ofPairs_entriesOf {fields : List (String × Value)} (h : (fields.map (·.1)).Nodup) :
    ofPairs (entriesOf fields) = entriesOf fields := by
  induction fields using List.reverseRecOn with
  | nil => rfl
  | append_singleton fields f ih =>
    rw [List.map_append, List.map_singleton, List.nodup_append] at h
    have hf : f.1 ∉ fields.map (·.1) := fun hm => h.2.2 _ hm _ (by simp) rfl
    have hpairs : ofPairs (entriesOf (fields ++ [f])) = insert (.text f.1) f.2 (ofPairs (entriesOf fields)) := by
      simp [ofPairs, entriesOf]
    rw [hpairs, ih h.1, insert_of_not_mem hf]

end Value
end MockTree
