import MockTree.Yaml.Node

/-! Faults of composing. The nodes of a document are composed of what was scanned, or the text is no YAML, or
the scan has come upon a fault of its own, which is then the one that leaves. -/
namespace MockTree.Yaml

namespace Compose
variable {α β : Type}

/-- Leaves the fault of the scan as it is, and fails with it or for the text's not being YAML. -/
def Keeps (x : Compose α) : Prop :=
  ∀ p, match StateT.run x p with
    | .ok (_, q) => q.fault = p.fault
    | .error f => f = .unreadableYaml ∨ p.fault = some f

namespace Keeps

theorem pure (a : α) : Keeps (Pure.pure a) := fun _ => rfl

theorem bind {x : Compose α} {k : α → Compose β} (hx : Keeps x) (hk : ∀ a, Keeps (k a)) : Keeps (x >>= k) := by
  intro p
  have hp := hx p
  rw [StateT.run_bind]
  cases hr : StateT.run x p with
  | error f =>
    rw [hr] at hp
    exact hp
  | ok r =>
    rw [hr] at hp
    obtain ⟨a, q⟩ := r
    have hq := hk a q
    rw [hp] at hq
    exact hq

theorem ite {c : Prop} [Decidable c] {x y : Compose α} (hx : Keeps x) (hy : Keeps y) :
    Keeps (if c then x else y) := by
  split
  · exact hx
  · exact hy

/-- One of two ways, and then the same for both. -/
theorem either {c : Prop} [Decidable c] {x y : Compose α} {k : α → Compose β} (hx : Keeps x) (hy : Keeps y)
    (hk : ∀ a, Keeps (k a)) : Keeps (if c then x >>= k else y >>= k) :=
  ite (hx.bind hk) (hy.bind hk)

/-- A step that is left out in some cases. -/
theorem perhaps {c : Prop} [Decidable c] {x : Compose Unit} {k : Unit → Compose β} (hx : Keeps x)
    (hk : ∀ u, Keeps (k u)) : Keeps (if c then x >>= k else k ()) :=
  ite (hx.bind hk) (hk ())

theorem get : Keeps MonadState.get := fun _ => rfl

theorem change {f : Composing → Composing} (hf : ∀ p, (f p).fault = p.fault) : Keeps (modify f) :=
  fun p => hf p

theorem unreadable : Keeps (Compose.unreadable (α := α)) := fun _ => .inl rfl

theorem require (b : Bool) : Keeps (Compose.require b) := by
  cases b
  · exact unreadable
  · exact pure ()

theorem peek : Keeps Compose.peek := by
  intro p
  obtain ⟨tokens, fault, names, handles, count⟩ := p
  cases tokens with
  | cons t r => rfl
  | nil =>
    cases fault with
    | none => rfl
    | some f => exact .inr rfl

theorem advance : Keeps Compose.advance := change fun _ => rfl

theorem discard {x : Compose α} (hx : Keeps x) : Keeps (discard x) := hx.bind fun _ => pure ()

theorem accept (t : Token) : Keeps (Compose.accept t) :=
  peek.bind fun _ => .ite (advance.bind fun _ => .pure _) (.pure _)

theorem expect (t : Token) : Keeps (Compose.expect t) := (accept t).bind fun _ => .require _

theorem atOneOf (ts : List Token) : Keeps (Compose.atOneOf ts) := peek.bind fun _ => .pure _

theorem anchor? : Keeps Compose.anchor? := by
  refine peek.bind fun t => ?_
  split
  · exact advance.bind fun _ => .pure _
  · exact .pure _

theorem tag? : Keeps Compose.tag? := by
  refine peek.bind fun t => ?_
  split
  · exact advance.bind fun _ => .pure _
  · exact .pure _

theorem tagText? (t : Option (Option (List Char) × List Char)) : Keeps (Compose.tagText? t) := by
  rw [Compose.tagText?.eq_def]
  split
  · exact .pure _
  · exact .pure _
  · refine get.bind fun p => ?_
    split
    · exact .pure _
    · exact .unreadable

theorem properties : Keeps Compose.properties := by
  refine anchor?.bind fun a => ?_
  split
  · exact tag?.bind fun t => (tagText? t).bind fun _ => .pure _
  · refine tag?.bind fun t => ?_
    exact either anchor? (.pure _) fun a => (tagText? t).bind fun _ => .pure _

theorem nextNumber : Keeps Compose.nextNumber := fun _ => rfl

theorem openName (number : Nat) (name : Option (List Char)) : Keeps (Compose.openName number name) := by
  cases name with
  | none => exact .pure _
  | some s => exact get.bind fun p => (require _).bind fun _ => .change fun _ => rfl

theorem closeName (n : Node) (name : Option (List Char)) : Keeps (Compose.closeName n name) := by
  cases name with
  | none => exact .pure _
  | some s => exact .change fun _ => rfl

theorem named (s : List Char) : Keeps (Compose.named s) := by
  refine get.bind fun p => ?_
  split
  · exact .pure _
  · exact .unreadable

end Keeps
end Compose
open Compose

/-- All ways to compose a part of a document, at a depth. -/
structure Composers (fuel : Nat) : Prop where
  node : ∀ position, Keeps (node position fuel)
  content : ∀ position number hasAnchor tag, Keeps (content position number hasAnchor tag fuel)
  nodeUnless : ∀ position stops, Keeps (nodeUnless position stops fuel)
  blockEntries : Keeps (blockEntries fuel)
  plainEntries : Keeps (plainEntries fuel)
  blockPairs : Keeps (blockPairs fuel)
  listItems : ∀ first, Keeps (listItems first fuel)
  mapEntries : ∀ first, Keeps (mapEntries first fuel)

namespace Composers
variable {fuel : Nat}

theorem node_succ (h : Composers fuel) (position : Position) : Keeps (Yaml.node position (fuel + 1)) := by
  rw [Yaml.node]
  refine .bind .peek fun t => ?_
  split
  · exact .bind .advance fun _ => .named _
  · exact .bind .properties fun _ => .bind (.discard .peek) fun _ => .bind .nextNumber fun _ =>
      .bind (.openName _ _) fun _ => .bind (h.content _ _ _ _) fun _ => .bind (.closeName _ _) fun _ => .pure _

theorem content_succ (h : Composers fuel) (position : Position) (number : Nat) (hasAnchor : Bool)
    (tag : Option (List Char)) : Keeps (Yaml.content position number hasAnchor tag (fuel + 1)) := by
  rw [Yaml.content]
  refine .bind .peek fun t => .ite (.bind h.plainEntries fun _ => .pure _) ?_
  split
  · exact .bind .advance fun _ => .pure _
  · exact .bind .advance fun _ => .bind (h.listItems _) fun _ => .pure _
  · exact .bind .advance fun _ => .bind (h.mapEntries _) fun _ => .pure _
  · exact .bind (.require _) fun _ => .bind .advance fun _ => .bind h.blockEntries fun _ => .pure _
  · exact .bind (.require _) fun _ => .bind .advance fun _ => .bind h.blockPairs fun _ => .pure _
  · exact .ite (.pure _) .unreadable

theorem nodeUnless_succ (h : Composers fuel) (position : Position) (stops : List Token) :
    Keeps (Yaml.nodeUnless position stops (fuel + 1)) := by
  rw [Yaml.nodeUnless]
  exact .bind (.atOneOf _) fun _ => .ite (.pure _) (h.node _)

theorem blockEntries_succ (h : Composers fuel) : Keeps (Yaml.blockEntries (fuel + 1)) := by
  rw [Yaml.blockEntries]
  exact .bind (.accept _) fun _ => .ite
    (.bind (h.nodeUnless _ _) fun _ => .bind h.blockEntries fun _ => .pure _)
    (.bind (.expect _) fun _ => .pure _)

theorem plainEntries_succ (h : Composers fuel) : Keeps (Yaml.plainEntries (fuel + 1)) := by
  rw [Yaml.plainEntries]
  exact .bind (.accept _) fun _ => .ite
    (.bind (h.nodeUnless _ _) fun _ => .bind h.plainEntries fun _ => .pure _) (.pure _)

theorem blockPairs_succ (h : Composers fuel) : Keeps (Yaml.blockPairs (fuel + 1)) := by
  rw [Yaml.blockPairs]
  refine .bind (.accept _) fun _ => .ite (.bind (h.nodeUnless _ _) fun k => ?_) (.bind (.expect _) fun _ => .pure _)
  exact .bind (.accept _) fun _ => .either (h.nodeUnless _ _) (.pure _) fun v =>
    .bind h.blockPairs fun _ => .pure _

theorem listItems_succ (h : Composers fuel) (first : Bool) : Keeps (Yaml.listItems first (fuel + 1)) := by
  rw [Yaml.listItems]
  refine .bind (.accept _) fun _ => .ite (.pure _) ?_
  refine .perhaps (.expect _) fun _ => .bind .peek fun t => ?_
  split
  · exact .bind .advance fun _ => .bind (h.nodeUnless _ _) fun k => .bind (.accept _) fun _ =>
      .either (h.nodeUnless _ _) (.pure _) fun v => .bind .nextNumber fun _ => .bind (h.listItems _) fun _ => .pure _
  · exact .bind .advance fun _ => .pure _
  · exact .bind (h.node _) fun _ => .bind (h.listItems _) fun _ => .pure _

theorem mapEntries_succ (h : Composers fuel) (first : Bool) : Keeps (Yaml.mapEntries first (fuel + 1)) := by
  rw [Yaml.mapEntries]
  refine .bind (.accept _) fun _ => .ite (.pure _) ?_
  refine .perhaps (.expect _) fun _ => .bind .peek fun t => ?_
  split
  · exact .bind .advance fun _ => .bind (h.nodeUnless _ _) fun k => .bind (.accept _) fun _ =>
      .either (h.nodeUnless _ _) (.pure _) fun v => .bind (h.mapEntries _) fun _ => .pure _
  · exact .bind .advance fun _ => .pure _
  · exact .bind (h.node _) fun _ => .bind (h.mapEntries _) fun _ => .pure _

end Composers

theorem composers (fuel : Nat) : Composers fuel := by
  induction fuel with
  | zero =>
    refine ⟨fun _ => ?_, fun _ _ _ _ => ?_, fun _ _ => ?_, ?_, ?_, ?_, fun _ => ?_, fun _ => ?_⟩
    all_goals exact .unreadable
  | succ fuel h =>
    exact ⟨h.node_succ, h.content_succ, h.nodeUnless_succ, h.blockEntries_succ, h.plainEntries_succ,
      h.blockPairs_succ, h.listItems_succ, h.mapEntries_succ⟩

namespace Compose.Keeps

theorem directives (versioned : Bool) (fuel : Nat) : Keeps (Yaml.directives versioned fuel) := by
  induction fuel generalizing versioned with
  | zero => exact pure _
  | succ fuel ih =>
    rw [Yaml.directives]
    refine peek.bind fun t => ?_
    split
    · exact (require _).bind fun _ => advance.bind fun _ => ih _
    · exact get.bind fun _ => (require _).bind fun _ => bind (change fun _ => rfl) fun _ =>
        advance.bind fun _ => ih _
    · exact advance.bind fun _ => ih _
    · exact pure _

theorem skipEnds (fuel : Nat) : Keeps (Yaml.skipEnds fuel) := by
  induction fuel with
  | zero => exact pure _
  | succ fuel ih => exact (accept _).bind fun _ => .ite ih (.pure _)

theorem markedDocument (fuel : Nat) : Keeps (Yaml.markedDocument fuel) := by
  refine (directives _ _).bind fun _ => bind (change fun _ => rfl) fun _ => (expect _).bind fun _ =>
    peek.bind fun t => ?_
  split
  · exact pure _
  · exact pure _
  · exact pure _
  · exact .ite ((composers fuel).node _) (.pure _)

theorem noMore (fuel : Nat) : Keeps (Yaml.noMore fuel) :=
  (skipEnds _).bind fun _ => peek.bind fun _ => .ite
    (bind (change fun _ => rfl) fun _ => (directives _ _).bind fun _ => unreadable) (.pure _)

theorem document (fuel : Nat) : Keeps (Yaml.document fuel) := by
  refine peek.bind fun t => ?_
  split
  · exact pure _
  · exact .ite (bind (change fun _ => rfl) fun _ => ((composers fuel).node _).bind fun _ =>
      (noMore _).bind fun _ => .pure _) ((markedDocument _).bind fun _ => (noMore _).bind fun _ => .pure _)

end Compose.Keeps

/-- A text whose nodes cannot be composed is no YAML, or its scan has ended with the same fault. -/
theorem compose_eq_error {s : List Char} {f : Fault} (h : compose s = .error f) :
    f = .unreadableYaml ∨ (scan s).fault = some f := by
  have hkeeps := Keeps.document (4 * (scan s).tokens.length + 8) ⟨(scan s).tokens, (scan s).fault, [], [], 0⟩
  rw [compose, Document.ofScanned] at h
  cases hr : StateT.run (document (4 * (scan s).tokens.length + 8))
      ⟨(scan s).tokens, (scan s).fault, [], [], 0⟩ with
  | error e =>
    rw [hr] at h hkeeps
    cases h
    exact hkeeps
  | ok r =>
    rw [hr] at h
    cases h

end MockTree.Yaml
