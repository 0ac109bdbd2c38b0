/-! Text made safe for markup: the five special characters and the backquote become references. -/
namespace MockTree.Text

def escapeChar (c : Char) : List Char :=
  if c == '&' then "&amp;".toList
  else if c == '"' then "&quot;".toList
  else if c == '\'' then "&#x27;".toList
  else if c.toNat == 96 then "&#x60;".toList
  else if c == '<' then "&lt;".toList
  else if c == '>' then "&gt;".toList
  else [c]

def escape (s : List Char) : List Char := s.flatMap escapeChar

/-- No bracket or quote survives. -/
theorem not_mem_escape {c : Char} (hc : c ∈ ['<', '>', '"', '\'']) (s : List Char) :
    c ∉ escape s := by
  intro h
  obtain ⟨d, _, hd⟩ := List.mem_flatMap.1 h
  simp only [List.mem_cons, List.not_mem_nil, or_false] at hc
  unfold escapeChar at hd
  rcases hc with rfl | rfl | rfl | rfl <;> (repeat' split at hd) <;> simp_all <;>
    exact absurd hd.symm (by assumption)

end MockTree.Text
