import Delegation.Syntax.Attribute

namespace Delegation.Reader

def boundTokens (g : Rules) : Reader (List Tree) := do return (← g.bound false true).tokens

/-- A colon with what it introduces; a colon with nothing after it is dropped. -/
def colonWith (p : Reader (List Tree)) : Reader (List Tree) := do
  if ← look (.op ":") then
    let colon ← op ":"
    let found ← p
    return if found.isEmpty then [] else colon ++ found
  else return []

def lifetimeParam (attrs : List Tree) : Reader GenericParam := do
  let name ← lifetime
  let bounds ← colonWith (chained (.anyOf [.ended, .op ",", .op ">"]) "+" lifetime)
  return ⟨true, attrs ++ name ++ bounds, name, []⟩

def typeParam (g : Rules) (attrs : List Tree) : Reader GenericParam := do
  let name ← name
  let bounds ← colonWith (chained (.anyOf [.ended, .op ",", .op ">", .op "="]) "+" (boundTokens g))
  let default ← whenLook (.op "=") (sequence [op "=", g.anyType])
  return ⟨false, attrs ++ name.tree :: bounds, [name.tree], default⟩

def constParam (g : Rules) (attrs : List Tree) : Reader GenericParam := do
  let keyword ← word "const"
  let name ← name
  let colon ← op ":"
  let type ← g.anyType
  let default ← whenLook (.op "=") (sequence [op "=", constant g])
  return ⟨false, attrs ++ keyword ++ name.tree :: colon ++ type, [name.tree], default⟩

def genericParam (g : Rules) : Reader GenericParam := do
  let attrs ← outerAttrTokens g
  if ← look .lifetime then lifetimeParam attrs
  else if ← look .name then typeParam g attrs
  else if ← look (.word "const") then constParam g attrs
  else if ← look (.word "_") then
    let i ← anyWord
    return ⟨false, attrs ++ [i.tree], [i.tree], []⟩
  else expected ["lifetime", "identifier", "`const`"]

def generics (g : Rules) : Reader Generics := do
  if ← look (.op "<") then
    let opening ← opSpan "<"
    let (params, trailing) ← separated (.op ">") "," do
      let p ← genericParam g
      return (p.isLifetime, p)
    let closing ← opSpan ">"
    let (params, trailing) := lifetimesFirst params trailing
    return ⟨opening, params, trailing, closing, []⟩
  else return .empty

def boundParam (g : Rules) : Reader GenericParam := do
  let attrs ← outerAttrTokens g
  if ← look .name then typeParam g attrs
  else if ← look .lifetime then lifetimeParam attrs
  else if ← look (.word "const") then constParam g attrs
  else expected ["identifier", "lifetime", "`const`"]

def binder (g : Rules) : Reader (List Tree) := do
  let keyword ← word "for"
  let opening ← op "<"
  let params ← separatedTokens (.op ">") "," do
    let p ← boundParam g
    return p.head ++ p.default
  let closing ← op ">"
  return keyword ++ opening ++ params ++ closing

def binderWhen (g : Rules) : Reader (List Tree) := whenLook (.word "for") (binder g)

def endsClause : Look :=
  .anyOf [.ended, .group .brace, .op ",", .op ";", .and (.op ":") (.not (.op "::")), .op "="]

def predicate (g : Rules) : Reader (List Tree) := do
  if ← look (.and .lifetime (.second (.op ":"))) then
    sequence [lifetime, op ":",
      chained (.anyOf [.ended, .group .brace, .op ",", .op ";", .op ":", .op "="]) "+" lifetime]
  else sequence [binderWhen g, g.anyType, op ":", chained endsClause "+" (boundTokens g)]

/-- A `where` clause, if there is one; a clause without predicates is dropped. -/
def whereClause (g : Rules) : Reader (List Tree) := do
  if ← look (.word "where") then
    let keyword ← word "where"
    if ← look startsParams then
      refuse "generic parameters on `where` clauses are reserved for future use"
    let predicates ← chained endsClause "," (predicate g)
    return if predicates.isEmpty then [] else keyword ++ predicates
  else return []

end Delegation.Reader
