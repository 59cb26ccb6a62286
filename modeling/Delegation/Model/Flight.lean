import Delegation.Model.Script

namespace Delegation.Model

/-- `power` stays within 32 signed bits; `ignitions` counts modulo 2 ^ 32. -/
structure Thruster where
  power : Int
  ignitions : UInt32
deriving DecidableEq, Repr

inductive ThrusterAction where
  | throttle (n : Int)
  | ignite (n : Int)
deriving DecidableEq, Repr

def Thruster.idle : Thruster := ⟨0, 0⟩

def fitsPower (n : Int) : Bool := -2147483648 ≤ n && n ≤ 2147483647

def thrusterReducer : Reducer Thruster ThrusterAction Fault where
  reduce s
    | .throttle n =>
      if fitsPower (s.power + n) then ⟨{ s with power := s.power + n }, .ok .none⟩
      else ⟨s, .error .thrusterOverflow⟩
    | .ignite n => ⟨{ s with ignitions := s.ignitions + 1 }, .ok (.send (.throttle n))⟩

def tankReducer : Reducer Nat Nat Fault where
  reduce s n := if s + n ≤ 255 then ⟨s + n, .ok .none⟩ else ⟨s, .error .tankOverflow⟩

structure Flight where
  mainEngine : Thruster
  escapePod : Option Thruster
  retro : Thruster
  booster : Thruster
  backup : Thruster
  reserve : Option Nat
deriving DecidableEq, Repr

def Flight.grounded : Flight := ⟨.idle, none, .idle, .idle, .idle, none⟩

inductive FlightAction where
  | mainEngine (a : ThrusterAction)
  | escapePod (a : ThrusterAction)
  | retro (a : ThrusterAction)
  | booster (a : ThrusterAction)
  | spare (a : ThrusterAction)
  | reserve (n : Nat)
  | batch (actions : List FlightAction)

namespace Flight

def mainEngineSlot : Slot Flight Thruster := ⟨mainEngine, fun s t => { s with mainEngine := t }⟩
def escapePodSlot : Slot Flight (Option Thruster) :=
  ⟨escapePod, fun s t => { s with escapePod := t }⟩
def retroSlot : Slot Flight Thruster := ⟨retro, fun s t => { s with retro := t }⟩
def boosterSlot : Slot Flight Thruster := ⟨booster, fun s t => { s with booster := t }⟩
def backupSlot : Slot Flight Thruster := ⟨backup, fun s t => { s with backup := t }⟩
def reserveSlot : Slot Flight (Option Nat) := ⟨reserve, fun s t => { s with reserve := t }⟩

end Flight

/-- Each action goes to its child; a batch asks for its actions in order. -/
def flightReducer : Reducer Flight FlightAction Fault where
  reduce s
    | .mainEngine a => thrusterReducer.direct Flight.mainEngineSlot .mainEngine s a
    | .escapePod a => thrusterReducer.optional Flight.escapePodSlot .escapePod s a
    | .retro a => thrusterReducer.direct Flight.retroSlot .retro s a
    | .booster a => thrusterReducer.direct Flight.boosterSlot .booster s a
    | .spare a => thrusterReducer.direct Flight.backupSlot .spare s a
    | .reserve n => tankReducer.optional Flight.reserveSlot .reserve s n
    | .batch actions => ⟨s, .ok ⟨actions⟩⟩

inductive FlightEdit where
  | mainEngine (t : Thruster)
  | escapePod (t : Option Thruster)
  | retro (t : Thruster)
  | booster (t : Thruster)
  | backup (t : Thruster)
  | reserve (n : Option Nat)

def FlightEdit.apply : FlightEdit → Flight → Flight
  | .mainEngine t, s => { s with mainEngine := t }
  | .escapePod t, s => { s with escapePod := t }
  | .retro t, s => { s with retro := t }
  | .booster t, s => { s with booster := t }
  | .backup t, s => { s with backup := t }
  | .reserve n, s => { s with reserve := n }

end Delegation.Model
