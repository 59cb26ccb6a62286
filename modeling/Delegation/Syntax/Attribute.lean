import Delegation.Syntax.Path

namespace Delegation.Reader

/-- The path of an attribute; `unsafe` may stand in its place. -/
def attrPath : Reader Path := do
  if ← look (.word "unsafe") then return .ofIdent (← anyWord) else modPath

def attrValue (g : Rules) : Reader (List Tree) := fun s =>
  match literalHere? s.rest with
  | some (tokens, []) => .ok tokens { s with rest := [] }
  | _ =>
    if Look.and (.op "#") (.second (.group .bracket)) s.rest then
      refuse "unexpected attribute inside of attribute" s
    else g.anyExpr s

def attrArgs (g : Rules) : Reader AttrArgs := do
  if ← look (.anyOf [.group .paren, .group .bracket, .group .brace]) then
    let (delim, inner, span) ← wholeGroup
    return .list delim inner span
  else if ← look (.and (.op "=") (.and (.not (.op "==")) (.not (.op "=>")))) then
    let eq ← opSpan "="
    return .value eq (← attrValue g)
  else return .none

def attrBody (g : Rules) (pound : Span) (inner : Option Span) : Reader Attr := do
  let ((path, args), span) ← enclosed .bracket do return (← attrPath, ← attrArgs g)
  return ⟨pound, inner, path, args, span⟩

def outerAttr (g : Rules) : Reader Attr := do
  let pound ← opSpan "#"
  attrBody g pound none

def innerAttr (g : Rules) : Reader Attr := do
  let pound ← opSpan "#"
  let bang ← opSpan "!"
  attrBody g pound (some bang)

def outerAttrs (g : Rules) : Reader (List Attr) := manyWhile (.op "#") (outerAttr g)

/-- The start of an attribute inside what it describes. -/
def startsInner : Look := .and (.op "#") (.second (.op "!"))

def innerAttrs (g : Rules) : Reader (List Attr) := manyWhile startsInner (innerAttr g)

def outerAttrTokens (g : Rules) : Reader (List Tree) := do return attrTokens (← outerAttrs g)

def innerAttrTokens (g : Rules) : Reader (List Tree) := do return attrTokens (← innerAttrs g)

end Delegation.Reader
