import Delegation.Store

namespace Delegation.Model

inductive Fault where
  | unluckyAction
  | thrusterOverflow
  | tankOverflow
deriving DecidableEq, Repr

def Fault.message : Fault → String
  | .unluckyAction => "unlucky action"
  | .thrusterOverflow => "thruster overflow"
  | .tankOverflow => "fuel tank overflow"

/-- The follow-ups of the actions that have their own, and whether the others count down. -/
structure Script where
  rules : List (Int64 × List Int64)
  countdown : Bool
deriving Repr

namespace Script

def followUps (script : Script) (a : Int64) : List Int64 :=
  match script.rules.lookup a with
  | some as => as
  | none => if script.countdown && 0 < a then [a - 1] else []

def reducer (script : Script) : Reducer (List Int64) Int64 Fault where
  reduce s a :=
    if a = -13 then ⟨s, .error .unluckyAction⟩ else ⟨s ++ [a], .ok ⟨script.followUps a⟩⟩

end Script

inductive ScriptEdit where
  | push (n : Int64)
  | replace (ns : List Int64)

def ScriptEdit.apply : ScriptEdit → List Int64 → List Int64
  | .push n, s => s ++ [n]
  | .replace ns, _ => ns

end Delegation.Model
