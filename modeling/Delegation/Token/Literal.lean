import Delegation.Text.IdentChar

namespace Delegation.Literal

open Text

def isHex (c : Char) : Bool := c.isDigit || ('a' ≤ c && c ≤ 'f') || ('A' ≤ c && c ≤ 'F')

def hexValue (c : Char) : Nat :=
  if c.isDigit then c.toNat - '0'.toNat
  else if 'a' ≤ c && c ≤ 'f' then c.toNat - 'a'.toNat + 10
  else c.toNat - 'A'.toNat + 10

def skipIdent : List Char → Option (List Char)
  | [] => none
  | c :: cs => if isIdentStart c then some (cs.dropWhile isIdentContinue) else none

def skipSuffix (cs : List Char) : List Char := (skipIdent cs).getD cs

inductive Content where
  | text
  | bytes
  | cText
deriving DecidableEq, Repr

def Content.allows : Content → Char → Bool
  | .text, _ => true
  | .bytes, c => c.toNat < 128
  | .cText, c => c != '\x00'

/-- After a backslash at the end of a line: blanks up to the next character that is none. A carriage
return (`feed`) must be followed by a line feed. -/
def continueLine : (feed : Bool) → List Char → Option (List Char)
  | true, '\n' :: cs => continueLine false cs
  | true, _ => none
  | false, [] => none
  | false, c :: cs =>
    if c = ' ' ∨ c = '\t' ∨ c = '\n' then continueLine false cs
    else if c = '\r' then continueLine true cs
    else some (c :: cs)

/-- The hexadecimal digits of a code point up to the closing brace: at most six, with underscores
between them. -/
def codePoint : (digits value : Nat) → List Char → Option (Nat × List Char)
  | _, _, [] => none
  | digits, value, c :: cs =>
    if isHex c then
      if digits = 6 then none else codePoint (digits + 1) (value * 16 + hexValue c) cs
    else if c = '_' ∧ 0 < digits then codePoint digits value cs
    else if c = '\x7d' ∧ 0 < digits ∧ value.isValidChar then some (value, cs)
    else none

def skipCodePoint : List Char → Option (Nat × List Char)
  | '\x7b' :: cs => codePoint 0 0 cs
  | _ => none

def skipEscape (content : Content) : List Char → Option (List Char)
  | 'x' :: a :: b :: cs =>
    let fits := match content with
      | .text => '0' ≤ a && a ≤ '7' && isHex b
      | .bytes => isHex a && isHex b
      | .cText => isHex a && isHex b && !(a == '0' && b == '0')
    if fits then some cs else none
  | 'u' :: cs =>
    match content, skipCodePoint cs with
    | .bytes, _ => none
    | .cText, some (0, _) => none
    | _, some (_, rest) => some rest
    | _, none => none
  | '0' :: cs => if content = .cText then none else some cs
  | c :: cs => if "nrt\\'\"".contains c then some cs else none
  | [] => none

def skipCooked (content : Content) : (fuel : Nat) → List Char → Option (List Char)
  | 0, _ => none
  | _ + 1, [] => none
  | fuel + 1, c :: cs =>
    match c, cs with
    | '"', _ => some (skipSuffix cs)
    | '\r', '\n' :: rest => skipCooked content fuel rest
    | '\r', _ => none
    | '\\', '\n' :: rest => (continueLine false rest).bind (skipCooked content fuel)
    | '\\', '\r' :: rest => (continueLine true rest).bind (skipCooked content fuel)
    | '\\', _ => (skipEscape content cs).bind (skipCooked content fuel)
    | _, _ => if content.allows c then skipCooked content fuel cs else none

/-- Quoted text without escapes, after the opening quote; it ends at a quote with `hashes` marks. -/
def skipRaw (content : Content) (hashes : Nat) : List Char → Option (List Char)
  | [] => none
  | '"' :: cs =>
    if cs.take hashes = List.replicate hashes '#' then some (skipSuffix (cs.drop hashes))
    else skipRaw content hashes cs
  | '\r' :: '\n' :: cs => skipRaw content hashes cs
  | '\r' :: _ => none
  | c :: cs => if content.allows c then skipRaw content hashes cs else none

def skipRawQuoted (content : Content) (cs : List Char) : Option (List Char) :=
  let hashes := (cs.takeWhile (· == '#')).length
  match cs.dropWhile (· == '#') with
  | '"' :: rest => if hashes ≤ 255 then skipRaw content hashes rest else none
  | _ => none

def skipText (cs : List Char) : Option (List Char) :=
  match cs with
  | '"' :: rest => skipCooked .text (rest.length + 1) rest
  | 'r' :: rest => skipRawQuoted .text rest
  | 'b' :: '"' :: rest => skipCooked .bytes (rest.length + 1) rest
  | 'b' :: 'r' :: rest => skipRawQuoted .bytes rest
  | 'c' :: '"' :: rest => skipCooked .cText (rest.length + 1) rest
  | 'c' :: 'r' :: rest => skipRawQuoted .cText rest
  | _ => none

def skipQuotedChar (content : Content) (cs : List Char) : Option (List Char) :=
  let body := match cs with
    | '\\' :: rest => skipEscape content rest
    | c :: rest => if content.allows c then some rest else none
    | [] => none
  match body with
  | some ('\'' :: rest) => some (skipSuffix rest)
  | _ => none

def skipChar : List Char → Option (List Char)
  | 'b' :: '\'' :: cs => skipQuotedChar .bytes cs
  | '\'' :: cs => skipQuotedChar .text cs
  | _ => none

/-- The exponent of a number. Without digits the number ends before it, at `before`. -/
def skipExponent (before : Option (List Char)) : (signed digits : Bool) → List Char →
    Option (List Char)
  | _, digits, [] => if digits then some [] else before
  | signed, digits, c :: cs =>
    if c = '+' ∨ c = '-' then
      if digits then some (c :: cs)
      else if signed then before
      else skipExponent before true digits cs
    else if c.isDigit then skipExponent before signed true cs
    else if c = '_' then skipExponent before signed digits cs
    else if digits then some (c :: cs) else before

def skipMantissa : (point : Bool) → List Char → Option (List Char)
  | point, [] => if point then some [] else none
  | point, c :: cs =>
    if c.isDigit ∨ c = '_' then skipMantissa point cs
    else if c = '.' then
      if point then some (c :: cs)
      else if cs.head?.any fun d => d == '.' || isIdentStart d then none
      else skipMantissa true cs
    else if c = 'e' ∨ c = 'E' then
      skipExponent (if point then some (c :: cs) else none) false false cs
    else if point then some (c :: cs) else none

def skipInteger (base : Nat) : (empty : Bool) → List Char → Option (List Char)
  | empty, [] => if empty then none else some []
  | empty, c :: cs =>
    if c.isDigit then if hexValue c < base then skipInteger base false cs else none
    else if isHex c ∧ base = 16 then skipInteger base false cs
    else if c = '_' then if empty ∧ base = 10 then none else skipInteger base empty cs
    else if empty then none else some (c :: cs)

def endNumber (cs : List Char) : Option (List Char) :=
  let rest := skipSuffix cs
  if rest.head?.any isIdentContinue then none else some rest

def skipNumber (cs : List Char) : Option (List Char) :=
  let float := match cs with
    | c :: rest => if c.isDigit then skipMantissa false rest else none
    | [] => none
  match float.bind endNumber with
  | some rest => some rest
  | none =>
    let digits := match cs with
      | '0' :: 'x' :: rest => skipInteger 16 true rest
      | '0' :: 'o' :: rest => skipInteger 8 true rest
      | '0' :: 'b' :: rest => skipInteger 2 true rest
      | _ => skipInteger 10 true cs
    digits.bind endNumber

def skip (cs : List Char) : Option (List Char) :=
  (skipText cs).orElse fun _ => (skipChar cs).orElse fun _ => skipNumber cs

end Delegation.Literal
