import Delegation.Token.Literal

namespace Delegation.Literal

inductive Number where
  | whole (value : Nat) (suffix : List Char)
  | fractional
deriving DecidableEq, Repr

def digitsValue (base : Nat) (digits : List Char) : Nat :=
  digits.foldl (fun n c => if c = '_' then n else n * base + hexValue c) 0

def wholeNumber (base : Nat) (cs : List Char) : Number :=
  let belongs (c : Char) : Bool := c = '_' || c.isDigit || (base == 16 && isHex c)
  .whole (digitsValue base (cs.takeWhile belongs)) (cs.dropWhile belongs)

/-- Decimal digits go on with a point or an exponent. A suffix may start with an `e` as well: an
exponent has a sign, or digits and then at most a suffix of its own. -/
def isFraction : List Char → Bool
  | [] => false
  | c :: cs =>
    let belongs (d : Char) : Bool := d = '_' || d.isDigit
    let exponent := (cs.takeWhile belongs).any Char.isDigit
    c = '.' || ((c = 'e' || c = 'E') &&
      match cs.dropWhile belongs with
      | [] => exponent
      | d :: _ => d = '+' || d = '-' || (exponent && Text.isIdentStart d))

def number? : List Char → Option Number
  | '0' :: 'x' :: cs => some (wholeNumber 16 cs)
  | '0' :: 'o' :: cs => some (wholeNumber 8 cs)
  | '0' :: 'b' :: cs => some (wholeNumber 2 cs)
  | c :: cs =>
    if c.isDigit then
      match wholeNumber 10 (c :: cs) with
      | .whole value suffix => some (if isFraction suffix then .fractional else .whole value suffix)
      | .fractional => some .fractional
    else none
  | [] => none

end Delegation.Literal
