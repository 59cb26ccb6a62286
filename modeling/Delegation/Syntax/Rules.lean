import Delegation.Syntax.Reader

namespace Delegation

inductive Precedence where
  | jump
  | assign
  | range
  | disjunction
  | conjunction
  | bindingLet
  | compare
  | bitOr
  | bitXor
  | bitAnd
  | shift
  | sum
  | product
  | cast
deriving DecidableEq, Repr

def Precedence.rank : Precedence → Nat
  | .jump => 0
  | .assign => 1
  | .range => 2
  | .disjunction => 3
  | .conjunction => 4
  | .bindingLet => 5
  | .compare => 6
  | .bitOr => 7
  | .bitXor => 8
  | .bitAnd => 9
  | .shift => 10
  | .sum => 11
  | .product => 12
  | .cast => 13

/-- A trait or lifetime that bounds a type. `last` is where it ends, if it is no trait. -/
structure Bound where
  isTrait : Bool
  tokens : List Tree
  last : Span

inductive PatternForm where
  | plain
  /-- A range; `dots` is where its dots stand, if one of its ends is missing. -/
  | range (dots : Option Span)
  /-- Kept as it was written, so that no attribute can be added. -/
  | written
deriving DecidableEq, Repr

structure Pattern where
  form : PatternForm
  tokens : List Tree

def Pattern.withAttrs (front : List Tree) (p : Pattern) : List Tree :=
  match p.form with
  | .plain => front ++ p.tokens
  | .range _ => if front.isEmpty then p.tokens else front ++ [.group .paren p.tokens .made]
  | .written => p.tokens

/-- The readers of the phrases that recur.

`type plus generic`: whether `+` may follow a bound, and whether arguments may follow an invisible
group. `bound captures const`: whether `use<...>` and `const` are allowed. `expr braces`,
`unary braces`: whether a path may be followed by the braces of a struct literal.
`operators braces floor left`: the operators after `left` that bind at least as tightly as `floor`.
`block inner`: a block in braces, and whether attributes may stand inside it. `arm`: an arm of a
match. `useTree root`: whether the names may start at the root; the flag of the answer says that
none does. -/
structure Rules where
  type : (plus generic : Bool) → Reader Ty
  bound : (captures const : Bool) → Reader Bound
  expr : (braces : Bool) → Reader Expr
  unary : (braces : Bool) → Reader Expr
  operators : (braces : Bool) → Precedence → Expr → Reader Expr
  pattern : Reader Pattern
  block : (inner : Bool) → Reader (List Tree)
  arm : Reader (List Tree)
  item : Reader Item
  useTree : (root : Bool) → Reader (List Tree × Bool)

namespace Rules

def anyType (g : Rules) : Reader (List Tree) := do return (← g.type true true).tokens

def narrowType (g : Rules) : Reader (List Tree) := do return (← g.type false true).tokens

def anyExpr (g : Rules) : Reader (List Tree) := do return (← g.expr true).tokens

def headExpr (g : Rules) : Reader (List Tree) := do return (← g.expr false).tokens

def anyPattern (g : Rules) : Reader (List Tree) := do return (← g.pattern).tokens

def stuck : Rules where
  type _ _ := Reader.tooDeep
  bound _ _ := Reader.tooDeep
  expr _ := Reader.tooDeep
  unary _ := Reader.tooDeep
  operators _ _ _ := Reader.tooDeep
  pattern := Reader.tooDeep
  block _ := Reader.tooDeep
  arm := Reader.tooDeep
  item := Reader.tooDeep
  useTree _ := Reader.tooDeep

end Rules

namespace Reader

def literal : Reader (List Tree) := fun s =>
  match literalHere? s.rest with
  | some (tokens, rest) => .ok tokens { s with rest := rest }
  | none => .fail ⟨.expected ["literal"] s.rest.isEmpty, s.here⟩

def text : Reader (List Tree) := fun s =>
  match literal? s.rest with
  | some (t, span, rest) =>
    if Look.text s.rest then .ok [.literal t span] { s with rest := rest }
    else .fail ⟨.expected ["string literal"] false, s.here⟩
  | none => .fail ⟨.expected ["string literal"] s.rest.isEmpty, s.here⟩

end Reader

end Delegation
