namespace Delegation

/-- The actions that must be reduced after the current one, first to last. -/
structure Effect (α : Type) where
  actions : List α
deriving DecidableEq, Repr

namespace Effect

variable {α β : Type}

def none : Effect α := ⟨[]⟩

def send (a : α) : Effect α := ⟨[a]⟩

def merge (e f : Effect α) : Effect α := ⟨e.actions ++ f.actions⟩

def map (f : α → β) (e : Effect α) : Effect β := ⟨e.actions.map f⟩

/-- Map with a running value: every action sees what the ones before it left. -/
def mapState {σ : Type} (f : σ → α → β × σ) : σ → List α → List β
  | _, [] => []
  | s, a :: as => (f s a).1 :: mapState f (f s a).2 as

def scan {σ : Type} (f : σ → α → β × σ) (start : σ) (e : Effect α) : Effect β :=
  ⟨mapState f start e.actions⟩

def isNone (e : Effect α) : Bool := e.actions.isEmpty

@[simp] theorem actions_none : (none : Effect α).actions = [] := rfl

@[simp] theorem actions_send (a : α) : (send a).actions = [a] := rfl

@[simp] theorem actions_map (f : α → β) (e : Effect α) : (e.map f).actions = e.actions.map f := rfl

def describe (text : α → String) (e : Effect α) : String :=
  "Effect \x7b actions: [" ++ ", ".intercalate (e.actions.map text) ++ "] \x7d"

end Effect

end Delegation
