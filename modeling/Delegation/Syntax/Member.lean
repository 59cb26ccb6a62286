import Delegation.Syntax.Rules
import Delegation.Token.Number

namespace Delegation

structure Numeral where
  text : String
  negative : Bool
  number : Literal.Number
  span : Span

namespace Numeral

def ahead? (ts : List Tree) : Option (Numeral × List Tree) :=
  match literal? ts with
  | some (text, span, rest) =>
    (Literal.number? text.toList).map fun n => (⟨text, false, n, span⟩, rest)
  | none =>
    match operator? ['-'] ts with
    | some (minus, rest) =>
      match literal? rest with
      | some (text, span, after) =>
        (Literal.number? text.toList).map fun n =>
          (⟨text, true, n, (Trees.hull minus).hull span⟩, after)
      | none => none
    | none => none

def isFractional (n : Numeral) : Bool := n.number == .fractional

end Numeral

/-- The position that a number names, or why it names none. -/
def position (negative : Bool) : Literal.Number → Except String Nat
  | .fractional => .error "expected integer literal"
  | .whole value suffix =>
    if suffix ≠ [] then .error "expected unsuffixed integer"
    else if negative then .error "invalid digit found in string"
    else if value < 4294967296 then .ok value
    else .error "number too large to fit in target type"

def partPosition (negative : Bool) (digits : List Char) : Except String Nat :=
  match Literal.skipNumber digits, Literal.number? digits with
  | some [], some number => position negative number
  | _, _ => .error "cannot parse string into token stream"

def splitPoints : List Char → List (List Char)
  | [] => [[]]
  | c :: cs =>
    match splitPoints cs with
    | [] => [[c]]
    | part :: parts => if c = '.' then [] :: part :: parts else (c :: part) :: parts

/-- The positions that a number with a point names, and whether a last point is left over. -/
def Numeral.positions (n : Numeral) : Except String (List Nat × Bool) := do
  let parts := splitPoints n.text.toList
  let unfinished := parts.getLast? == some []
  let parts := if unfinished then parts.dropLast else parts
  match parts with
  | [] => return ([], unfinished)
  | first :: others =>
    let first ← partPosition n.negative first
    let others ← others.mapM (partPosition false)
    return (first :: others, unfinished)

namespace Reader

def positionTree (value : Nat) (span : Span) : Tree := .literal (toString value) span

def member : Reader (List Tree × Bool) := do
  if ← look .name then return ([(← name).tree], true)
  match Numeral.ahead? (← ahead) with
  | some (n, rest) => do
    if n.isFractional then expected ["identifier or integer"]
    match position n.negative n.number with
    | .ok value => do
      advance rest
      return ([positionTree value n.span], false)
    | .error reason => failAt n.span (.refused reason false)
  | none => expected ["identifier or integer"]

end Reader

end Delegation
