import Delegation.Syntax.Type

namespace Delegation.Reader

/-- A visibility. Parentheses that do not restrict it belong to what follows. -/
def visibility : Reader Visibility := do
  match group? .invisible (← ahead) with
  | some ([], _, rest) => do
    -- nothing at all, handed on as an empty group
    advance rest
    return .inherited
  | _ =>
    if ← look (.word "pub") then
      let span ← wordSpan "pub"
      match group? .paren (← ahead) with
      | some (inner, parens, rest) =>
        if Look.anyOf [.word "crate", .word "self", .word "super"] inner then
          match word? inner with
          | some (i, []) => do
            advance rest
            return .restricted span parens none (.ofIdent i)
          | _ => return .everywhere span
        else if Look.word "in" inner then
          let ((within, path), _) ← enclosed .paren do return (← wordSpan "in", ← modPath)
          return .restricted span parens (some within) path
        else return .everywhere span
      | none => return .everywhere span
    else return .inherited

/-- A named field. A field named `_` may hold the fields of a struct or union of its own. -/
def namedFieldWith (g : Rules) (fields : Reader (List Tree)) : Reader Field := do
  let attrs ← outerAttrs g
  let vis ← visibility
  let unnamed ← look (.word "_")
  let name ← if unnamed then anyWord else name
  let colon ← opSpan ":"
  let nested ← look (.or (.word "struct") (.and (.word "union") (.second (.group .brace))))
  if unnamed && nested then
    let type ← verbatim (sequence [do return [(← anyWord).tree], grouped .brace fields])
    return ⟨attrs, vis, some (name, colon), .other type⟩
  else return ⟨attrs, vis, some (name, colon), ← g.type true true⟩

/-- The fields of nested structs, at most `fuel` levels deep. -/
def nestedFields (g : Rules) : Nat → Reader (List Tree)
  | 0 => tooDeep
  | fuel + 1 => terminated do return (← namedFieldWith g (nestedFields g fuel)).tokens

def namedField (g : Rules) : Reader Field := fun s =>
  namedFieldWith g (nestedFields g (Trees.weight s.rest)) s

def tupleField (g : Rules) : Reader Field := do
  let attrs ← outerAttrs g
  let vis ← visibility
  return ⟨attrs, vis, none, ← g.type true true⟩

def namedFields (g : Rules) : Reader ((List Field × Bool) × Span) :=
  enclosed .brace (separated .ended "," (namedField g))

def tupleFields (g : Rules) : Reader ((List Field × Bool) × Span) :=
  enclosed .paren (separated .ended "," (tupleField g))

def structBody (g : Rules) : Reader (List Tree × Body) := do
  let hasClause ← look (.word "where")
  let clause ← whereClause g
  if !hasClause && (← look (.group .paren)) then
    let ((fields, trailing), span) ← tupleFields g
    let hasLate ← look (.word "where")
    let clause ← whereClause g
    if ← look (.op ";") then return (clause, .tuple span fields trailing (← opSpan ";"))
    else expected (if hasLate then ["`;`"] else ["`where`", "`;`"])
  else if ← look (.group .brace) then
    let ((fields, trailing), span) ← namedFields g
    return (clause, .named span fields trailing)
  else if ← look (.op ";") then return (clause, .unit (← opSpan ";"))
  else
    expected (if hasClause then ["curly braces", "`;`"]
      else ["`where`", "parentheses", "curly braces", "`;`"])

def structRest (g : Rules) (attrs : List Attr) (vis : Visibility) : Reader Struct := do
  let keyword ← wordSpan "struct"
  let name ← name
  let params ← generics g
  let (clause, body) ← structBody g
  return ⟨attrs, vis, keyword, name, { params with clause := clause }, body⟩

def variant (g : Rules) : Reader (List Tree) := do
  let attrs ← outerAttrTokens g
  let _ ← visibility
  let name ← name
  let fields ← if ← look (.group .brace) then do
      let ((fields, trailing), span) ← namedFields g
      pure [Tree.group .brace (Generics.commas trailing (fields.map Field.tokens)) span]
    else if ← look (.group .paren) then do
      let ((fields, trailing), span) ← tupleFields g
      pure [Tree.group .paren (Generics.commas trailing (fields.map Field.tokens)) span]
    else pure []
  let value ← whenLook (.op "=") (sequence [op "=", g.anyExpr])
  return attrs ++ name.tree :: fields ++ value

def enumRest (g : Rules) : Reader (List Tree) := do
  let keyword ← word "enum"
  let name ← name
  let params ← generics g
  let clause ← whereClause g
  let variants ← grouped .brace (terminated (variant g))
  return keyword ++ name.tree :: params.tokens ++ clause ++ variants

def unionRest (g : Rules) : Reader (List Tree) := do
  let keyword ← word "union"
  let name ← name
  let params ← generics g
  let clause ← whereClause g
  let ((fields, trailing), span) ← namedFields g
  return keyword ++ name.tree :: params.tokens ++ clause ++
    [.group .brace (Generics.commas trailing (fields.map Field.tokens)) span]

def declaration (g : Rules) : Reader Declaration := do
  let attrs ← outerAttrs g
  let vis ← visibility
  if ← look (.word "struct") then return .struct (← structRest g attrs vis)
  else if ← look (.word "enum") then
    let _ ← enumRest g
    return .other attrs
  else if ← look (.word "union") then
    let _ ← unionRest g
    return .other attrs
  else expected ["`struct`", "`enum`", "`union`"]

end Delegation.Reader
