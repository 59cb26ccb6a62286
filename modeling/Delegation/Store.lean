import Delegation.Reducer

namespace Delegation

/-- One completed reduction of a run: what was reduced, what it asked for, and how many actions were
still waiting before the follow-ups joined the queue. -/
structure Event (α : Type) where
  action : α
  effect : Effect α
  pending : Nat

structure Run (σ α ε : Type) where
  state : σ
  log : List (Event α)
  fault : Option ε

variable {σ α ε : Type}

def Run.reduced (r : Run σ α ε) : Nat := r.log.length

def Run.after (e : Event α) (r : Run σ α ε) : Run σ α ε := { r with log := e :: r.log }

/-- Reduce from the front of the queue, appending follow-ups at its end. The result is `none` if
`fuel` reductions do not empty the queue. -/
def Reducer.drain (r : Reducer σ α ε) : Nat → σ → List α → Option (Run σ α ε)
  | _, s, [] => some ⟨s, [], none⟩
  | 0, _, _ :: _ => none
  | fuel + 1, s, a :: queue =>
    match r.reduce s a with
    | ⟨t, .error e⟩ => some ⟨t, [], some e⟩
    | ⟨t, .ok e⟩ => (r.drain fuel t (queue ++ e.actions)).map (Run.after ⟨a, e, queue.length⟩)

structure Store (σ α ε : Type) where
  reducer : Reducer σ α ε
  state : σ

namespace Store

def send (fuel : Nat) (s : Store σ α ε) (a : α) : Option (Run σ α ε) :=
  s.reducer.drain fuel s.state [a]

def reduce (s : Store σ α ε) (a : α) : Reduction σ α ε := s.reducer.reduce s.state a

def withState (s : Store σ α ε) (t : σ) : Store σ α ε := { s with state := t }

end Store

end Delegation
