import Delegation.Model.Flight

namespace Delegation.Model

inductive ShieldAction where
  | overload
  | charge (n : Nat)
deriving DecidableEq, Repr

/-- A charge is cut off at 100. An overload charges and tries again until nothing is missing. -/
def shieldReducer : Reducer Nat ShieldAction Fault where
  reduce s
    | .overload => ⟨s, .ok (if s < 100 then ⟨[.charge 50, .overload]⟩ else .none)⟩
    | .charge n => ⟨min 100 (min 255 (s + n)), .ok .none⟩

structure Fleet where
  flagship : Flight
  escort : Option Flight
  shield : Nat
  beacon : UInt32
  spare : Nat
deriving DecidableEq, Repr

def Fleet.docked : Fleet := ⟨.grounded, none, 0, 0, 0⟩

inductive FleetAction where
  | flagship (a : FlightAction)
  | escort (a : FlightAction)
  | shield (a : ShieldAction)
  | beacon

namespace Fleet

def flagshipSlot : Slot Fleet Flight := ⟨flagship, fun s t => { s with flagship := t }⟩
def escortSlot : Slot Fleet (Option Flight) := ⟨escort, fun s t => { s with escort := t }⟩
def shieldSlot : Slot Fleet Nat := ⟨shield, fun s t => { s with shield := t }⟩

end Fleet

def fleetReducer : Reducer Fleet FleetAction Fault where
  reduce s
    | .flagship a => flightReducer.direct Fleet.flagshipSlot .flagship s a
    | .escort a => flightReducer.optional Fleet.escortSlot .escort s a
    | .shield a => shieldReducer.direct Fleet.shieldSlot .shield s a
    | .beacon => ⟨{ s with beacon := s.beacon + 1 }, .ok .none⟩

inductive FleetEdit where
  /-- A fresh escort, or none. -/
  | escort (present : Bool)
  | shield (n : Nat)
  | spare (n : Nat)
  | inFlagship (edit : FlightEdit)
  | inEscort (edit : FlightEdit)

def FleetEdit.apply : FleetEdit → Fleet → Option Fleet
  | .escort present, s => some { s with escort := if present then some .grounded else none }
  | .shield n, s => some { s with shield := n }
  | .spare n, s => some { s with spare := n }
  | .inFlagship edit, s => some { s with flagship := edit.apply s.flagship }
  | .inEscort edit, s => s.escort.map fun f => { s with escort := some (edit.apply f) }

end Delegation.Model
