import MockTree.Directive.Capture
import MockTree.Proofs.History

/-! Templates of text and tags for parts of the query: each is a text with holes, and printing it fills
every hole with what the request has under its key. -/
namespace MockTree.Template
open Text

/-- A character, or the place of a tag that prints what the query has under a key. -/
inductive Symbol
  | char (c : Char)
  | hole (key : String)
  deriving DecidableEq, Repr

/-- What stands for a symbol when it is printed for a query. -/
def Symbol.fill (query : List (String × Value)) : Symbol → List Char
  | .char c => [c]
  | .hole key => escape (Body.stringify ((Request.named? key query).getD .null))

def fill (query : List (String × Value)) (d : List Symbol) : List Char := d.flatMap (Symbol.fill query)

@[simp] theorem fill_nil (query : List (String × Value)) : fill query [] = [] := rfl

@[simp] theorem fill_cons (query : List (String × Value)) (x : Symbol) (d : List Symbol) :
    fill query (x :: d) = x.fill query ++ fill query d := rfl

@[simp] theorem fill_append (query : List (String × Value)) (d e : List Symbol) :
    fill query (d ++ e) = fill query d ++ fill query e := List.flatMap_append

@[simp] theorem fill_chars (query : List (String × Value)) (s : List Char) :
    fill query (s.map .char) = s := by
  induction s with
  | nil => rfl
  | cons c s ih => rw [List.map_cons, fill_cons, ih]; rfl

/-- The symbols of text, and of a tag for a part of the query under a key. -/
def Node.symbols? : Node → Option (List Symbol)
  | .text s => some (s.map .char)
  | .print true ["capture"]
      ⟨[], [("source", .literal (.text "query")), ("key", .literal (.text key))]⟩ => some [.hole key]
  | _ => none

/-- The symbols of nodes that are all text and such tags. -/
def symbolsOf? : List Node → Option (List Symbol)
  | [] => some []
  | n :: r => do
    let d ← n.symbols?
    let e ← symbolsOf? r
    pure (d ++ e)

/-- The symbols of a definition whose only tags are for parts of the query. -/
def symbols? (source : List Char) : Option (List Symbol) :=
  match Grammar.read source with
  | .ok nodes => symbolsOf? nodes
  | .error _ => none

theorem tagText_text (s : List Char) : tagText true (.text s) = escape s := by
  simp [tagText, Datum.text, Value.ofChars, Datum.plain, Value.plain, Scalar.plain]

theorem captured_query (request : Request) (key : String) :
    Directive.captured request (fun field => Directive.captureSignature.get field
      [("source", .value (.text "query")), ("key", .value (.text key))]) =
      .ok (.text (Body.stringify ((Request.named? key request.query).getD .null))) := by
  have hs : Directive.captureSignature.get "source"
      [("source", .value (.text "query")), ("key", .value (.text key))] = .value (.text "query") := rfl
  have hk : Directive.captureSignature.get "key"
      [("source", .value (.text "query")), ("key", .value (.text key))] = .value (.text key) := rfl
  rw [Directive.captured, hs, hk]
  rfl

section
variable {f : Frame} (hcap : f.registry.find? "capture" = some Directive.capture)
include hcap

theorem tagDatum_capture (here : Datum) (key : String) :
    tagDatum f here ["capture"]
        ⟨[], [("source", .literal (.text "query")), ("key", .literal (.text key))]⟩ =
      pure (.text (Body.stringify ((Request.named? key f.setting.request.query).getD .null))) := by
  have hnamed : namedArguments f here
      [("source", .literal (.text "query")), ("key", .literal (.text key))] =
      pure [("source", .value (.text "query")), ("key", .value (.text key))] := by
    simp [namedArguments, argument]
  simp only [tagDatum, directive?, hcap, invokeWith, positionalArguments, hnamed, pure_bind, invoke,
    Directive.capture, captured_query]
  rfl

theorem printNode_of_symbols? {n : Node} {d : List Symbol} (h : n.symbols? = some d) (here : Datum) :
    printNode f here n = pure (fill f.setting.request.query d) := by
  rw [Node.symbols?.eq_def] at h
  split at h
  · cases h
    rw [fill_chars]
    rfl
  · cases h
    rw [printNode, tagDatum_capture hcap, pure_bind, tagText_text, fill_cons, fill_nil,
      List.append_nil, Symbol.fill]
  · cases h

theorem printNodes_of_symbolsOf? {nodes : List Node} {d : List Symbol} (h : symbolsOf? nodes = some d)
    (here : Datum) : printNodes f here nodes = pure (fill f.setting.request.query d) := by
  induction nodes generalizing d with
  | nil =>
    cases h
    rfl
  | cons n r ih =>
    rw [symbolsOf?, Option.bind_eq_bind, Option.bind_eq_some_iff] at h
    obtain ⟨a, ha, h⟩ := h
    obtain ⟨b, hb, h⟩ := Option.bind_eq_some_iff.1 h
    cases h
    rw [printNodes, printNode_of_symbols? hcap ha, pure_bind, ih hb, pure_bind, fill_append]

end

end MockTree.Template

namespace MockTree
open Template

/-- A definition whose only tags are for parts of the query renders to its text with the holes filled. -/
theorem render_of_symbols? {registry : Registry}
    (hcap : registry.find? "capture" = some Directive.capture) {source : List Char} {d : List Symbol}
    (hd : symbols? source = some d) (s : Setting) {σ : Session} (hσ : σ.Sound) :
    ∃ τ, τ.Sound ∧ (render registry s (String.ofList source)).runIn σ =
      (.ok (String.ofList (fill s.request.query d)), τ) := by
  rw [symbols?] at hd
  split at hd
  · next nodes hread =>
    exact render_of_read hread
      (printNodes_of_symbolsOf? (f := ⟨s, registry, rootOf s⟩) hcap hd (rootOf s)) hσ
  · cases hd

end MockTree
