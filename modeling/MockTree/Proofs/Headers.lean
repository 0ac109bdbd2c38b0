import Mathlib.Data.List.Find
import Mathlib.Data.List.Nodup
import Mathlib.Data.List.Perm.Basic
import MockTree.Server.Handle

/-! Headers are found whatever the case of a name. A name that is spelled as asked for is looked for first, but
where no two names agree but for their case, that finds nothing else than going through all of them. -/
namespace MockTree
namespace Request
open Text
variable {α : Type}

/-- No two names agree but for their case. -/
def Apart (headers : List (String × α)) : Prop := (headers.map fun h => lower h.1).Nodup

instance (headers : List (String × α)) : Decidable (Apart headers) := inferInstanceAs (Decidable (List.Nodup _))

/-- The headers with names in lower case. -/
def lowered (headers : List (String × α)) : List (String × α) := headers.map fun h => (lower h.1, h.2)

variable {name : String} {headers : List (String × α)}

theorem mem_of_named? {v : α} (h : named? name headers = some v) : (name, v) ∈ headers := by
  induction headers with
  | nil => cases h
  | cons first rest ih =>
    obtain ⟨n, w⟩ := first
    rw [named?] at h
    split at h
    · next hn =>
      cases h
      rw [eq_of_beq hn]
      exact List.mem_cons_self
    · exact List.mem_cons_of_mem _ (ih h)

theorem header?_eq_none_iff : header? name headers = none ↔ ∀ h ∈ headers, lower h.1 ≠ lower name := by
  rw [header?]
  cases hexact : named? name headers with
  | some v => exact iff_of_false (by simp) fun h => h _ (mem_of_named? hexact) rfl
  | none => simp

/-- A header that is found agrees with the name asked for, but for its case. -/
theorem exists_of_header? {v : α} (h : header? name headers = some v) :
    ∃ n, (n, v) ∈ headers ∧ lower n = lower name := by
  rw [header?] at h
  split at h
  · next w hexact =>
    cases h
    exact ⟨name, mem_of_named? hexact, rfl⟩
  · obtain ⟨found, hfound, rfl⟩ := Option.map_eq_some_iff.1 h
    exact ⟨found.1, List.mem_of_find?_eq_some hfound, by simpa using List.find?_some hfound⟩

theorem Apart.eq (h : Apart headers) {a b : String × α} (ha : a ∈ headers) (hb : b ∈ headers)
    (hab : lower a.1 = lower b.1) : a = b := List.inj_on_of_nodup_map h ha hb hab

/-- Headers that are apart have one value for all the spellings of a name. -/
theorem Apart.header?_eq_some_iff (h : Apart headers) {v : α} :
    header? name headers = some v ↔ (lower name, v) ∈ lowered headers := by
  rw [lowered, List.mem_map]
  constructor
  · intro hv
    obtain ⟨n, hmem, hn⟩ := exists_of_header? hv
    exact ⟨(n, v), hmem, Prod.ext hn rfl⟩
  · rintro ⟨a, ha, hav⟩
    obtain ⟨hname, rfl⟩ := Prod.mk.inj hav
    cases hfound : header? name headers with
    | none => exact absurd hname (header?_eq_none_iff.1 hfound a ha)
    | some w =>
      obtain ⟨n, hmem, hn⟩ := exists_of_header? hfound
      rw [← h.eq hmem ha (hn.trans hname.symm)]

/-- Going through all headers finds what beginning with the spelling asked for finds. -/
theorem Apart.header?_eq_find? (h : Apart headers) :
    header? name headers = (headers.find? fun h => lower h.1 == lower name).map (·.2) := by
  cases hfind : headers.find? fun h => lower h.1 == lower name with
  | none => simpa [header?_eq_none_iff] using hfind
  | some a =>
    have hlow : lower a.1 = lower name := by simpa using List.find?_some hfind
    exact h.header?_eq_some_iff.2 (List.mem_map.2 ⟨a, List.mem_of_find?_eq_some hfind, Prod.ext hlow rfl⟩)

theorem Apart.of_lowered_perm (h : Apart headers) {headers' : List (String × α)}
    (hperm : (lowered headers').Perm (lowered headers)) : Apart headers' := by
  have hnames : (lowered headers').map Prod.fst |>.Perm ((lowered headers).map Prod.fst) := hperm.map _
  rw [lowered, lowered, List.map_map, List.map_map] at hnames
  exact hnames.nodup_iff.2 h

/-- Neither the case of the name asked for, nor that of the names of the headers, nor their order counts: what is
found is the value of the one header that agrees but for case, or nothing where there is none, and going through
the headers finds the same as beginning with the spelling asked for. -/
theorem header?_respelled (hapart : Apart headers) {name' : String} (hname : lower name' = lower name)
    {headers' : List (String × α)} (hperm : (lowered headers').Perm (lowered headers)) :
    header? name' headers' = header? name headers ∧
    header? name headers = (headers.find? fun h => lower h.1 == lower name).map (·.2) ∧
    ((∃ h ∈ headers, lower h.1 = lower name ∧ (∀ g ∈ headers, lower g.1 = lower name → g = h) ∧
        header? name headers = some h.2) ∨
      (∀ h ∈ headers, lower h.1 ≠ lower name) ∧ header? name headers = none) := by
  have hapart' : Apart headers' := hapart.of_lowered_perm hperm
  refine ⟨?respelled, hapart.header?_eq_find?, ?value⟩
  case respelled =>
    ext v
    rw [hapart'.header?_eq_some_iff, hapart.header?_eq_some_iff, hname]
    exact hperm.mem_iff
  case value =>
    cases hfound : header? name headers with
    | none => exact .inr ⟨header?_eq_none_iff.1 hfound, rfl⟩
    | some v =>
      obtain ⟨n, hmem, hn⟩ := exists_of_header? hfound
      exact .inl ⟨(n, v), hmem, hn, fun g hg hlow => hapart.eq hg hmem (hlow.trans hn.symm), rfl⟩

theorem header?_respelled_token :
    let headers := [("x-token", 1), ("été", 2)]
    let headers' := [("ÉTé", 2), ("X-Token", 1)]
    Apart headers ∧ lower "éTÉ" = lower "Été" ∧ (lowered headers').Perm (lowered headers) ∧
      header? "éTÉ" headers' = header? "Été" headers ∧ header? "Été" headers = some 2 := by
  intro headers headers'
  have hapart : Apart headers := by decide +kernel
  have hname : lower "éTÉ" = lower "Été" := by decide +kernel
  have hperm : (lowered headers').Perm (lowered headers) := by decide +kernel
  have h := header?_respelled hapart hname hperm
  exact ⟨hapart, hname, hperm, h.1, h.2.1.trans (by decide +kernel)⟩

end Request

namespace Text

theorem lowerFrom_of_ascii {s : List Char} (h : ∀ c ∈ s, c.toNat < 128) (before : List Char) :
    lowerFrom before s = s.map Char.toLower := by
  induction s generalizing before with
  | nil => rfl
  | cons c s ih =>
    obtain ⟨hc, hs⟩ := List.forall_mem_cons.1 h
    have hsigma : c ≠ 'Σ' := by
      rintro rfl
      exact absurd hc (by decide)
    have hdotted : c ≠ 'İ' := by
      rintro rfl
      exact absurd hc (by decide)
    simp [lowerFrom, hsigma, hdotted, lowerChar, hc, ih hs]

theorem toLower_ascii {c : Char} (h : c.toNat < 128) : c.toLower.toNat < 128 ∧ c.toLower.toLower = c.toLower := by
  by_cases hupper : c.val ≥ 'A'.val ∧ c.val ≤ 'Z'.val
  · have hlow : c.toLower.val.toNat = c.val.toNat + 32 := by
      have hle : c.val.toNat ≤ 90 := hupper.2
      have hshifted : c.toLower.val = c.val + ('a'.val - 'A'.val) := congrArg Char.val (dif_pos hupper)
      rw [hshifted, UInt32.toNat_add]
      exact Nat.mod_eq_of_lt (by change c.val.toNat + 32 < 2 ^ 32; omega)
    have hge : 65 ≤ c.val.toNat := hupper.1
    have hle : c.val.toNat ≤ 90 := hupper.2
    refine ⟨?_, dif_neg ?_⟩
    · change c.toLower.val.toNat < 128
      omega
    · rintro ⟨-, hz⟩
      have hz : c.toLower.val.toNat ≤ 90 := hz
      omega
  · have hself : c.toLower = c := dif_neg hupper
    rw [hself]
    exact ⟨h, hself⟩

/-- A name in ASCII that is in lower case stays as it is. -/
theorem lower_lower {name : String} (h : ∀ c ∈ name.toList, c.toNat < 128) : lower (lower name) = lower name := by
  have hlow : ∀ c ∈ name.toList.map Char.toLower, c.toNat < 128 := by
    intro c hc
    obtain ⟨d, hd, rfl⟩ := List.mem_map.1 hc
    exact (toLower_ascii (h d hd)).1
  simp only [lower, lowerList, String.toList_ofList, lowerFrom_of_ascii h, lowerFrom_of_ascii hlow, List.map_map]
  exact congrArg String.ofList (List.map_congr_left fun c hc => (toLower_ascii (h c hc)).2)

end Text

namespace Incoming
open Text Request

theorem mem_headerMap {headers : List (String × String)} {h : String × Value} (hmem : h ∈ headerMap headers) :
    ∃ f ∈ headers, h = (lower f.1, .text f.2) := by
  induction headers with
  | nil => cases hmem
  | cons first rest ih =>
    obtain ⟨n, v⟩ := first
    rcases List.mem_cons.1 hmem with rfl | hmem
    · exact ⟨(n, v), List.mem_cons_self, rfl⟩
    · obtain ⟨f, hf, rfl⟩ := ih (List.mem_filter.1 hmem).1
      exact ⟨f, List.mem_cons_of_mem _ hf, rfl⟩

theorem nodup_headerMap (headers : List (String × String)) : ((headerMap headers).map Prod.fst).Nodup := by
  induction headers with
  | nil => exact List.nodup_nil
  | cons first rest ih =>
    obtain ⟨n, v⟩ := first
    rw [headerMap, List.map_cons, List.nodup_cons]
    refine ⟨?_, ih.sublist (List.filter_sublist.map _)⟩
    simp

variable {headers : List (String × String)} (hascii : ∀ f ∈ headers, ∀ c ∈ f.1.toList, c.toNat < 128)
include hascii

theorem lower_of_mem_headerMap {h : String × Value} (hmem : h ∈ headerMap headers) : lower h.1 = h.1 := by
  obtain ⟨f, hf, rfl⟩ := mem_headerMap hmem
  exact lower_lower (hascii f hf)

/-- The headers that definitions see are apart. -/
theorem apart_headerMap : Apart (headerMap headers) := by
  rw [Apart, List.map_congr_left fun h hmem => lower_of_mem_headerMap hascii hmem]
  exact nodup_headerMap headers

/-- A header that definitions ask for is the first one sent under its name in any case. -/
theorem header?_headerMap (name : String) :
    header? name (headerMap headers) =
      (headers.find? fun f => lower f.1 == lower name).map fun f => .text f.2 := by
  rw [(apart_headerMap hascii).header?_eq_find?]
  induction headers with
  | nil => rfl
  | cons first rest ih =>
    obtain ⟨n, v⟩ := first
    obtain ⟨hn, hrest⟩ := List.forall_mem_cons.1 hascii
    rw [headerMap, List.find?_cons, List.find?_cons]
    simp only [lower_lower hn]
    by_cases hname : lower n = lower name
    · simp [hname]
    · have hkeep : ∀ h ∈ headerMap rest,
          decide ((h.1 != lower n) = true ∧ (lower h.1 == lower name) = true) = (lower h.1 == lower name) := by
        intro h hmem
        rw [lower_of_mem_headerMap hrest hmem]
        by_cases hh : h.1 = lower name <;> simp [hh, Ne.symm hname]
      rw [show (lower n == lower name) = false by simpa using hname]
      simp only
      rw [List.find?_filter, List.find?_congr hkeep, ih hrest]

end Incoming
end MockTree
