import Delegation.Syntax.Member
import Delegation.Syntax.Struct

namespace Delegation.Reader

def isBar : Look := .and (.op "|") (.and (.not (.op "||")) (.not (.op "|=")))

def patternCases (g : Rules) : Reader Pattern := do
  let leading ← opWhen "|"
  let first ← g.pattern
  let more ← manyTokens isBar (sequence [op "|", g.anyPattern])
  if leading.isEmpty && more.isEmpty then return first
  else return ⟨.plain, leading ++ first.tokens ++ more⟩

def patterns (g : Rules) : Reader (List Tree) := do return (← patternCases g).tokens

/-- The dots of a range. `...` is an old spelling of `..=`. -/
def rangeDots (old : Bool) : Reader (List Tree × Bool) := do
  if ← look (.op "..=") then return (← op "..=", true)
  else if ← look (.op "...") then
    if old then
      let dots ← op "..."
      return (operator ['.', '.', '='] ((dots.head?.map Tree.span).getD .made), true)
    else expected ["`..`", "`..=`"]
  else if ← look (.op "..") then return (← op "..", false)
  else expected ["`..`", "`..=`", "`...`"]

def rangeBound (g : Rules) : Reader (List Tree) := do
  if ← look (.anyOf [.ended, .op "|", .op "=", .and (.op ":") (.not (.op "::")), .op ",", .op ";",
      .word "if"]) then return []
  else if ← look .literal then literal
  else if ← look (.anyOf [.name, .op "::", .op "<", .word "self", .word "Self", .word "super",
      .word "crate"]) then return (← qpath g true).tokens
  else if ← look (.word "const") then sequence [word "const", g.block true]
  else
    expected ["literal", "identifier", "`::`", "`<`", "`self`", "`Self`", "`super`", "`crate`",
      "`const`"]

/-- The rest of a range of patterns after its start, if it has one. Without either end it stands for
whatever is left, and is no range. -/
def rangeEnd (g : Rules) (old : Bool) (start : List Tree) : Reader Pattern := do
  let (dots, closed) ← rangeDots old
  let bound ← rangeBound g
  if closed && bound.isEmpty then refuse "expected range upper bound"
  let place := if start.isEmpty || bound.isEmpty then some (Trees.hull dots) else none
  let form := if start.isEmpty && bound.isEmpty then .plain else PatternForm.range place
  return ⟨form, start ++ dots ++ bound⟩

/-- Patterns inside square brackets. A range with an end missing needs parentheses there. -/
def slicePattern (g : Rules) : Reader (List Tree) :=
  terminated do
    let p ← patternCases g
    match p.form with
    | .range (some dots) =>
      failAt dots
        (.refused "range pattern is not allowed unparenthesized inside slice pattern" false)
    | _ => return p.tokens

def fieldPattern (g : Rules) : Reader (List Tree) := do
  let boxed ← wordWhen "box"
  let byRef ← wordWhen "ref"
  let mutable ← wordWhen "mut"
  let modifiers := boxed ++ byRef ++ mutable
  if modifiers.isEmpty then
    let (tokens, named) ← member
    if !named || (← look (.op ":")) then
      let colon ← op ":"
      return tokens ++ colon ++ (← patterns g)
    else return tokens
  else return modifiers ++ [(← name).tree]

def structPattern (g : Rules) : Reader (List Tree) :=
  loop (fun (done : List Tree) => do
    if ← look .ended then return .done done
    let attrs ← outerAttrTokens g
    if ← look (.op "..") then return .done (done ++ attrs ++ (← op ".."))
    let field ← fieldPattern g
    if ← look .ended then return .done (done ++ attrs ++ field)
    let comma ← op ","
    return .again (done ++ attrs ++ field ++ comma)) []

def plainPattern (p : Reader (List Tree)) : Reader Pattern := do return ⟨.plain, ← p⟩

def pathPattern (g : Rules) : Reader Pattern := do
  let p ← qpath g true
  let plain := match p with
    | .plain p => p.isPlain
    | .qualified .. => false
  if plain && (← look startsInvocation) then return ⟨.plain, p.tokens ++ (← invocation).1⟩
  if ← look (.group .brace) then
    return ⟨.plain, p.tokens ++ (← grouped .brace (structPattern g))⟩
  else if ← look (.group .paren) then
    return ⟨.plain, p.tokens ++ (← grouped .paren (terminated (patterns g)))⟩
  else if ← look (.op "..") then rangeEnd g true p.tokens
  else return ⟨.plain, p.tokens⟩

def namePattern (g : Rules) : Reader (List Tree) := do
  let byRef ← wordWhen "ref"
  let mutable ← wordWhen "mut"
  let name ← if ← look (.word "self") then anyWord else name
  let sub ← whenLook (.op "@") (sequence [op "@", g.anyPattern])
  return byRef ++ mutable ++ name.tree :: sub

def literalPattern (g : Rules) : Reader Pattern := do
  let start ← rangeBound g
  if ← look (.op "..") then rangeEnd g true start else return ⟨.plain, start⟩

def startsPathPattern : Look :=
  .anyOf [.and .name (.second (.anyOf [.op "::", .op "!", .group .brace, .group .paren, .op ".."])),
    .and (.word "self") (.second (.op "::")), .op "::", .op "<", .word "Self", .word "super",
    .word "crate"]

def patternRule (g : Rules) : Reader Pattern := do
  if ← look startsPathPattern then pathPattern g
  else if ← look (.word "_") then plainPattern (word "_")
  else if ← look (.word "box") then
    return ⟨.written, ← verbatim (sequence [word "box", g.anyPattern])⟩
  else if ← look (.anyOf [.op "-", .literal, .word "const"]) then literalPattern g
  else if ← look (.anyOf [.word "ref", .word "mut", .word "self", .name]) then
    plainPattern (namePattern g)
  else if ← look (.op "&") then plainPattern (sequence [op "&", wordWhen "mut", g.anyPattern])
  else if ← look (.group .paren) then plainPattern (grouped .paren (terminated (patterns g)))
  else if ← look (.group .bracket) then plainPattern (grouped .bracket (slicePattern g))
  else if ← look (.and (.op "..") (.not (.op "..."))) then rangeEnd g false []
  else
    expected ["identifier", "`::`", "`<`", "`_`", "literal", "`const`", "`ref`", "`mut`", "`&`",
      "parentheses", "square brackets", "`..`", "`const`"]

end Delegation.Reader
