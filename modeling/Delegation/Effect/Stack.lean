import Delegation.Effect

namespace Delegation

inductive StackOp where
  | push (e : Effect Int64)
  | dup
  | drop
  | swap
  | merge
  | add (k : Int64)
  | mul (k : Int64)
  | scan (k : Int64)
  | texts
  | isNone
  | actions
  | intoActions
  | intoReversed
  | equal
  | describe
deriving Repr

inductive Answer where
  | nothing
  | flag (b : Bool)
  | numbers (ns : List Int64)
  | strings (ss : List String)
  | text (s : String)
deriving Repr

def bracketed (n : Int64) : String := "<" ++ toString n.toInt ++ ">"

/-- The stack and the answer after an operation, top of the stack first; `none` if the stack is too
small for it. -/
def StackOp.apply : StackOp → List (Effect Int64) → Option (Answer × List (Effect Int64))
  | .push e, st => some (.nothing, e :: st)
  | .dup, e :: st => some (.nothing, e :: e :: st)
  | .drop, _ :: st => some (.nothing, st)
  | .swap, e :: f :: st => some (.nothing, f :: e :: st)
  | .merge, e :: f :: st => some (.nothing, f.merge e :: st)
  | .add k, e :: st => some (.nothing, e.map (· + k) :: st)
  | .mul k, e :: st => some (.nothing, e.map (· * k) :: st)
  | .scan k, e :: st => some (.nothing, e.scan (fun s n => (s + n, s + n)) k :: st)
  | .texts, e :: st => some (.strings (e.map bracketed).actions, e :: st)
  | .isNone, e :: st => some (.flag e.isNone, e :: st)
  | .actions, e :: st => some (.numbers e.actions, e :: st)
  | .intoActions, e :: st => some (.numbers e.actions, st)
  | .intoReversed, e :: st => some (.numbers e.actions.reverse, st)
  | .equal, e :: f :: st => some (.flag (e == f), e :: f :: st)
  | .describe, e :: st => some (.text (e.describe (fun n => toString n.toInt)), e :: st)
  | _, _ => none

end Delegation
