import Delegation.Syntax.Rules

namespace Delegation.Reader

/-- Arguments or parameters with lifetimes moved to the front. Whether a comma ends the list depends
on whether one followed the argument that is now last. -/
def lifetimesFirst {α : Type} (args : List (Bool × α)) (trailing : Bool) : List α × Bool :=
  let others := args.filter fun a => !a.1
  let moved := !others.isEmpty && args.getLast?.any Prod.fst
  ((args.filter Prod.fst ++ others).map Prod.snd, trailing || moved)

def constant (g : Rules) : Reader (List Tree) := do
  if ← look .literal then literal
  else if ← look .name then return [(← name).tree]
  else if ← look (.group .brace) then g.block true
  else nothing

/-- Whether `<` opens parameters and not a qualified path. -/
def startsParams : Look :=
  .and (.op "<") (.anyOf [.second (.op ">"), .second (.op "#"),
    .and (.or (.second .lifetime) (.second .name))
      (.third (.anyOf [.op ">", .op ",", .and (.op ":") (.not (.op "::")), .op "="])),
    .second (.word "const")])

def isFixable : Ty → Bool
  | .path (.plain ⟨none, [_]⟩) => true
  | _ => false

def argument (g : Rules) : Reader (Bool × Argument) := do
  if ← look (.and .lifetime (.not (.second (.op "+")))) then
    return (true, .other (← lifetime))
  if ← look (.or .literal (.group .brace)) then
    return (false, .other (← constant g))
  let type ← g.type true true
  if isFixable type then
    if ← look (.op "=") then
      let eq ← op "="
      if ← look (.or .literal (.group .brace)) then
        return (false, .other (type.tokens ++ eq ++ (← constant g)))
      else return (false, .other (type.tokens ++ eq ++ (← g.anyType)))
    if ← look (.op ":") then
      let colon ← op ":"
      let bounds ← chained (.or (.op ",") (.op ">")) "+" do return (← g.bound false true).tokens
      return (false, .other (type.tokens ++ colon ++ bounds))
  return (false, .type type)

def angledArgs (g : Rules) (name : Ident) : Reader Segment := do
  let turbofish ← look (.op "::")
  if turbofish then
    let _ ← op "::"
  let opening ← opSpan "<"
  let (args, trailing) ← separated (.op ">") "," (argument g)
  let closing ← opSpan ">"
  let (args, trailing) := lifetimesFirst args trailing
  return .angled name turbofish opening args trailing closing

def startsAngled (expression : Bool) : Look :=
  .or (fun ts => !expression && Look.op "<" ts && !Look.op "<=" ts)
    (.and (.op "::") (.third (.op "<")))

def isPathWord : Look := .anyOf [.word "super", .word "self", .word "crate", .word "try"]

def segment (g : Rules) (expression : Bool) : Reader Segment := do
  if ← look isPathWord then return .plain (← anyWord)
  let name ← if ← look (.word "Self") then anyWord else name
  if ← look (startsAngled expression) then angledArgs g name else return .plain name

/-- Further segments. A `::` before parentheses is not part of the path. -/
def moreSegments (g : Rules) (expression : Bool) : Reader (List Segment) :=
  manyWhile (.and (.op "::") (.not (.third (.group .paren)))) do
    let _ ← op "::"
    segment g expression

def leadingColons : Reader (Option Span) := do
  if ← look (.op "::") then return some (← opSpan "::") else return none

def path (g : Rules) (expression : Bool) : Reader Path := do
  let leading ← leadingColons
  let first ← segment g expression
  let more ← moreSegments g expression
  return ⟨leading, first :: more⟩

def members (g : Rules) (expression : Bool) : Reader (List Segment) := do
  let _ ← op "::"
  let first ← segment g expression
  let more ← manyWhile (.op "::") do
    let _ ← op "::"
    segment g expression
  return first :: more

def qpath (g : Rules) (expression : Bool) : Reader QPath := do
  if ← look (.op "<") then
    let opening ← opSpan "<"
    let self ← g.type true true
    let via ← if ← look (.word "as") then
        let _ ← word "as"
        pure (some (← path g false))
      else pure none
    let closing ← opSpan ">"
    return .qualified opening self via closing (← members g expression)
  else return .plain (← path g expression)

def isModWord : Look :=
  .anyOf [.name, .word "super", .word "self", .word "Self", .word "crate"]

def modPath : Reader Path := do
  let leading ← leadingColons
  if ← look isModWord then
    let first ← anyWord
    let more ← manyWhile (.op "::") do
      let _ ← op "::"
      if ← look isModWord then return Segment.plain (← anyWord)
      else refuse "expected path segment after `::`"
    return ⟨leading, .plain first :: more⟩
  else
    let first ← name
    return ⟨leading, [.plain first]⟩

end Delegation.Reader
