import Mathlib.Algebra.GroupWithZero.Nat
import Mathlib.Data.List.Basic
import MockTree.Proofs.DecodedLength
import MockTree.Proofs.Text

/-! How long a query is when it is read. A character that means nothing in a query is missed if it is left out:
what is read is shorter without it. -/
namespace MockTree.Query
open Text

/-- A character that means nothing in a query. -/
structure Idle (c : Char) : Prop extends Breaks c where
  plus : c ≠ '+'
  amp : c ≠ '&'
  eq : c ≠ '='

theorem length_decodeField_append (x y : List Char) :
    (decodeField (x ++ y)).length ≤ (decodeField x).length + (decodeField y).length ∧
      ∀ d, Idle d → (decodeField (x ++ d :: y)).length = (decodeField x).length + 1 + (decodeField y).length := by
  simp only [decodeField, List.map_append, List.map_cons]
  refine ⟨(length_decode_append _ _).1, fun d hd => ?_⟩
  rw [if_neg (by simpa using hd.plus)]
  exact (length_decode_append _ _).2 d hd.toBreaks

/-- The characters of a field when it is read. -/
def fieldLength (s : List Char) : Nat := (field s).1.length + (field s).2.length

theorem fieldLength_of_not_mem {s : List Char} (h : '=' ∉ s) : fieldLength s = (decodeField s).length := by
  simp [fieldLength, field, cut?_eq_none h, decodeField, decode, decodeFrom]

theorem fieldLength_pair {name : List Char} (h : '=' ∉ name) (value : List Char) :
    fieldLength (name ++ '=' :: value) = (decodeField name).length + (decodeField value).length := by
  simp [fieldLength, field, cut?_of_not_mem h]

/-- A field is longer for a character that means nothing, wherever it stands. -/
theorem fieldLength_idle {d : Char} (hd : Idle d) (x y : List Char) :
    fieldLength (x ++ y) < fieldLength (x ++ d :: y) ∧ fieldLength x < fieldLength (x ++ d :: y) := by
  by_cases hx : '=' ∈ x
  · obtain ⟨name, value, rfl, hname⟩ := List.eq_append_cons_of_mem hx
    obtain ⟨hle, hidle⟩ := length_decodeField_append value y
    have := hidle d hd
    simp only [List.append_assoc, List.cons_append, fieldLength_pair hname]
    omega
  · by_cases hy : '=' ∈ y
    · obtain ⟨name, value, rfl, hname⟩ := List.eq_append_cons_of_mem hy
      obtain ⟨hle, hidle⟩ := length_decodeField_append x name
      have := hidle d hd
      rw [← List.append_assoc, ← List.cons_append, ← List.append_assoc, fieldLength_of_not_mem hx,
        fieldLength_pair (by simp [hx, hname]), fieldLength_pair (by simp [hx, hname, Ne.symm hd.eq])]
      omega
    · obtain ⟨hle, hidle⟩ := length_decodeField_append x y
      have := hidle d hd
      rw [fieldLength_of_not_mem hx, fieldLength_of_not_mem (by simp [hx, hy]),
        fieldLength_of_not_mem (by simp [hx, hy, Ne.symm hd.eq])]
      omega

/-- The characters of all fields of a query when it is read. -/
def size (s : List Char) : Nat := ((splitAt '&' s).map fieldLength).sum

theorem size_append (a b : List Char) : size (a ++ '&' :: b) = size a + size b := by
  rw [size, splitAt_append_cons, List.map_append, List.sum_append]
  rfl

theorem size_of_not_mem {s : List Char} (h : '&' ∉ s) : size s = fieldLength s := by
  simp [size, splitAt_of_not_mem h]

/-- So is a query. -/
theorem size_idle {d : Char} (hd : Idle d) (a b : List Char) :
    size (a ++ b) < size (a ++ d :: b) ∧ size a < size (a ++ d :: b) := by
  by_cases ha : '&' ∈ a
  · obtain ⟨u, v, rfl⟩ := List.append_of_mem ha
    have := size_idle hd v b
    simp only [List.append_assoc, List.cons_append, size_append]
    omega
  · by_cases hb : '&' ∈ b
    · obtain ⟨u, v, rfl⟩ := List.append_of_mem hb
      have := size_idle hd a u
      rw [← List.append_assoc, ← List.cons_append, ← List.append_assoc, size_append, size_append]
      omega
    · rw [size_of_not_mem ha, size_of_not_mem (by simp [ha, hb]), size_of_not_mem (by simp [ha, hb, Ne.symm hd.amp])]
      exact fieldLength_idle hd a b
termination_by a.length + b.length

/-! ### What is read -/

/-- The characters of values and of their names. -/
def total (m : List (String × List String)) : Nat :=
  (m.map fun (n, vs) => (vs.map fun v => n.length + v.length).sum).sum

theorem total_gather (n v : String) (m : List (String × List String)) :
    total (gather n v m) = total m + (n.length + v.length) := by
  induction m with
  | nil => simp [gather, total]
  | cons x m ih =>
    obtain ⟨n', vs⟩ := x
    rw [gather]
    split
    next h =>
      obtain rfl : n' = n := by simpa using h
      have hvalues : ((vs ++ [v]).map fun v => n'.length + v.length).sum =
          (vs.map fun v => n'.length + v.length).sum + (n'.length + v.length) := by
        rw [List.map_append, List.sum_append, List.map_singleton, List.sum_singleton]
      simp only [total, List.map_cons, List.sum_cons, hvalues]
      omega
    · simp only [total, List.map_cons, List.sum_cons] at ih ⊢
      omega

theorem fieldLength_nil : fieldLength [] = 0 := by decide

/-- A query is as long as what it is read to: fields without a character count for nothing. -/
theorem total_grouped (s : List Char) : total (grouped s) = size s := by
  have hfold (fs : List (String × String)) (m : List (String × List String)) :
      total (fs.foldl (fun m f => gather f.1 f.2 m) m) =
        total m + (fs.map fun f => f.1.length + f.2.length).sum := by
    induction fs generalizing m with
    | nil => rfl
    | cons f fs ih =>
      rw [List.foldl_cons, ih, total_gather, List.map_cons, List.sum_cons]
      omega
  have hfilter (ps : List (List Char)) :
      ((ps.filter (!·.isEmpty)).map fieldLength).sum = (ps.map fieldLength).sum := by
    induction ps with
    | nil => rfl
    | cons p ps ih =>
      cases p with
      | nil => simpa [fieldLength_nil] using ih
      | cons c p => simpa using ih
  refine (hfold (fields s) []).trans ?_
  rw [fields, List.map_map, size, ← hfilter]
  exact Nat.zero_add _

theorem valueOf_injective : Function.Injective valueOf := by
  have htext : Function.Injective Value.text := fun v w h => by simpa using h
  intro vs ws h
  match vs, ws with
  | [v], [w] => exact congrArg ([·]) (htext h)
  | [v], [] | [v], _ :: _ :: _ | [], [w] | _ :: _ :: _, [w] => cases h
  | [], [] => rfl
  | [], _ :: _ :: _ | _ :: _ :: _, [] => cases h
  | _ :: _ :: _, _ :: _ :: _ =>
    exact List.map_injective_iff.2 htext (Value.list.inj h)

theorem size_eq_of_read_eq {s t : List Char} (h : read s = read t) : size s = size t := by
  have hpairs : Function.Injective fun x : String × List String => (x.1, valueOf x.2) := fun x y hxy =>
    Prod.ext (Prod.mk.inj hxy).1 (valueOf_injective (Prod.mk.inj hxy).2)
  have hgrouped : grouped s = grouped t := List.map_injective_iff.2 hpairs h
  rw [← total_grouped, ← total_grouped, hgrouped]

end MockTree.Query
