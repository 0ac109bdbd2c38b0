import MockTree.Session

/-! What a computation gives in a session and the session it leaves behind, piece by piece. -/
namespace MockTree

/-- The outcome of a computation, and the session after it. -/
def Work.runIn {α : Type} (w : Work α) (σ : Session) : Except Fault α × Session :=
  StateT.run (ExceptT.run w) σ

/-- The outcome of a rendering that starts after so many draws, and the draws taken by its end. -/
def Render.runAt {α : Type} (r : Render α) (n : Nat) : Except Fault α × Nat :=
  StateT.run (ExceptT.run r) n

/-- A setting for examples: its clock stands still and every draw is zero. -/
def Setting.still (files : FileTree) (request : Request) : Setting :=
  ⟨request, ⟨"mock", 0, 30⟩, ⟨⟨2024, 1, 15⟩, 10, 30, 0, 0, some 0⟩,
    "12345678-1234-4234-8234-123456789abc", fun _ => 0, files⟩

/-- The session of an engine that has answered nothing yet. -/
def Session.fresh (enabled : Bool) (limit : Int) (draws : Nat) : Session :=
  ⟨.make enabled (some limit), draws⟩

namespace Work
variable {α β : Type}

@[simp] theorem runIn_pure (a : α) (σ : Session) : (pure a : Work α).runIn σ = (.ok a, σ) := rfl

@[simp] theorem runIn_raise (f : Fault) (σ : Session) :
    (raise f : Work α).runIn σ = (.error f, σ) := rfl

@[simp] theorem runIn_get (σ : Session) : (get : Work Session).runIn σ = (.ok σ, σ) := rfl

@[simp] theorem runIn_modifyCache (f : Template.Cache → Template.Cache) (σ : Session) :
    (modifyCache f).runIn σ = (.ok (), { σ with cache := f σ.cache }) := rfl

/-- The rest of a computation runs in the session its start left, unless the start failed. -/
theorem runIn_bind (w : Work α) (k : α → Work β) (σ : Session) :
    (w >>= k).runIn σ =
      match w.runIn σ with
      | (.ok a, τ) => (k a).runIn τ
      | (.error f, τ) => (.error f, τ) := by
  simp only [runIn, ExceptT.run, StateT.run, bind, ExceptT.bind, ExceptT.mk, StateT.bind]
  rcases w σ with ⟨a | a, τ⟩ <;> rfl

theorem runIn_bind_ok {w : Work α} {k : α → Work β} {σ τ : Session} {a : α}
    (h : w.runIn σ = (.ok a, τ)) : (w >>= k).runIn σ = (k a).runIn τ := by
  simp [runIn_bind, h]

theorem runIn_bind_error {w : Work α} {k : α → Work β} {σ τ : Session} {f : Fault}
    (h : w.runIn σ = (.error f, τ)) : (w >>= k).runIn σ = (.error f, τ) := by
  simp [runIn_bind, h]

/-- What a failed computation did to the session stays for the one that takes over. -/
theorem runIn_tryCatch (w : Work α) (k : Fault → Work α) (σ : Session) :
    (tryCatch w k).runIn σ =
      match w.runIn σ with
      | (.ok a, τ) => (.ok a, τ)
      | (.error f, τ) => (k f).runIn τ := by
  simp only [runIn, ExceptT.run, StateT.run, tryCatch, tryCatchThe, MonadExceptOf.tryCatch,
    ExceptT.tryCatch, ExceptT.mk, bind, StateT.bind]
  rcases w σ with ⟨a | a, τ⟩ <;> rfl

@[simp] theorem runIn_ofExcept (x : Except Fault α) (σ : Session) :
    (ofExcept x : Work α).runIn σ = (x, σ) := by
  cases x <;> rfl

/-- A rendering sees only the draws of the session and changes nothing else in it. -/
theorem runIn_ofRender (r : Render α) (σ : Session) :
    (ofRender r).runIn σ = ((r.runAt σ.draws).1, { σ with draws := (r.runAt σ.draws).2 }) := by
  rw [ofRender, runIn_bind_ok (runIn_get σ)]
  change (ofExcept (r.runAt σ.draws).1 : Work α).runIn { σ with draws := (r.runAt σ.draws).2 } = _
  rw [runIn_ofExcept]

end Work
end MockTree
