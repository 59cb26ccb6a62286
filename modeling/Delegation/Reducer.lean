import Delegation.Effect

namespace Delegation

/-- What a reduction leaves: the state as written, and the effect or the fault that broke it off.
A fault does not undo what was written before it. -/
structure Reduction (σ α ε : Type) where
  state : σ
  result : Except ε (Effect α)

structure Reducer (σ α ε : Type) where
  reduce : σ → α → Reduction σ α ε

structure Slot (σ τ : Type) where
  get : σ → τ
  set : σ → τ → σ

variable {σ τ α β ε : Type}

def Reduction.lift (r : Reduction τ β ε) (write : τ → σ) (wrap : β → α) : Reduction σ α ε :=
  ⟨write r.state, r.result.map (Effect.map wrap)⟩

def Reducer.direct (child : Reducer τ β ε) (slot : Slot σ τ) (wrap : β → α)
    (s : σ) (b : β) : Reduction σ α ε :=
  (child.reduce (slot.get s) b).lift (slot.set s) wrap

/-- Hand an action to the child whose state may be in `slot`; without it nothing happens. -/
def Reducer.optional (child : Reducer τ β ε) (slot : Slot σ (Option τ)) (wrap : β → α)
    (s : σ) (b : β) : Reduction σ α ε :=
  match slot.get s with
  | none => ⟨s, .ok .none⟩
  | some t => (child.reduce t b).lift (fun t' => slot.set s (some t')) wrap

end Delegation
