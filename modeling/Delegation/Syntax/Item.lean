import Delegation.Syntax.Expression

namespace Delegation.Reader

def visibilityTokens : Reader (List Tree) := do return (← visibility).tokens

def skipWord (name : String) (ts : List Tree) : List Tree :=
  match word? ts with
  | some (i, rest) => if i.name = name then rest else ts
  | none => ts

def startsFunction (safe : Bool) : Look := fun ts =>
  let ts := skipWord "async" (skipWord "const" ts)
  let ts := if safe && Look.word "safe" ts then skipWord "safe" ts else skipWord "unsafe" ts
  let ts :=
    if Look.word "extern" ts then
      let after := skipWord "extern" ts
      if Look.text after then (skipOne? after).getD after else after
    else ts
  Look.word "fn" ts

def receiver (g : Rules) : Reader (List Tree × Span) := do
  let reference ← whenLook (.op "&") (sequence [op "&", lifetimeWhen])
  let mutable ← wordWhen "mut"
  let place ← here
  let self ← word "self"
  let type ← if reference.isEmpty then whenLook (.op ":") (sequence [op ":", g.anyType])
    else pure []
  return (reference ++ mutable ++ self ++ type, place)

/-- Whether `self` may stand here as an argument. Behind a reference it may also start the path of a
pattern. -/
def startsReceiver (ts : List Tree) : Bool :=
  let skip (p : Look) (ts : List Tree) := if p ts then (skipOne? ts).getD ts else ts
  let referred := Look.op "&" ts
  let ts := if referred then skip .lifetime (skip (.op "&") ts) else ts
  let ts := skip (.word "mut") ts
  Look.word "self" ts && !(referred && Look.second (.op "::") ts)

def functionArgs (g : Rules) : Reader (List Tree) :=
  loop (fun (done, first, hasSelf) => do
    if ← look .ended then return .done done
    let attrs ← outerAttrTokens g
    if ← look (.op "...") then
      let dots ← op "..."
      return .done (done ++ attrs ++ dots ++ (← whenLook (.not .ended) (op ",")))
    let self? ← if ← look startsReceiver then attempt? (receiver g) else pure none
    let arg ← if self?.isSome then do
        let (tokens, place) ← receiver g
        if hasSelf then failAt place (.refused "unexpected second method receiver" false)
        if !first then failAt place (.refused "unexpected method receiver" false)
        pure (some tokens)
      else if ← look (.and .name (.second (.op "<"))) then do
        let span ← here
        pure (some (.ident "_" span :: mark ':' span :: (← g.anyType)))
      else do
        let pattern ← g.anyPattern
        let colon ← op ":"
        if ← look (.op "...") then
          let dots ← op "..."
          let comma ← whenLook (.not .ended) (op ",")
          return .done (done ++ attrs ++ pattern ++ colon ++ dots ++ comma)
        pure (some (pattern ++ colon ++ (← g.anyType)))
    let tokens := arg.getD []
    if ← look .ended then return .done (done ++ attrs ++ tokens)
    let comma ← op ","
    return .again (done ++ attrs ++ tokens ++ comma, false, hasSelf || self?.isSome))
    (([] : List Tree), true, false)

/-- The header of a function, with its `where` clause; `safe` may stand in it where `unsafe` may, if
the flag says so. -/
def signature (g : Rules) (safe : Bool) : Reader (List Tree) := do
  let front ← sequence [wordWhen "const", wordWhen "async",
    whenLook (fun ts => Look.word "unsafe" ts || (safe && Look.word "safe" ts))
      do return [(← anyWord).tree],
    linkage, word "fn"]
  let name ← name
  let params ← generics g
  let args ← grouped .paren (functionArgs g)
  let output ← returnType g true
  let clause ← whereClause g
  return front ++ name.tree :: params.tokens ++ args ++ output ++ clause

def letStatement (g : Rules) : Reader (List Tree) := do
  let front ← sequence [word "let", g.anyPattern, whenLook (.op ":") (sequence [op ":", g.anyType])]
  let value ← whenLook (.op "=") do
    let eq ← op "="
    let e ← g.anyExpr
    -- an `else` after a closing brace would belong to the expression
    let other ← if Trees.endInBrace e then pure []
      else whenLook (.word "else") (sequence [word "else", g.block false])
    return eq ++ e ++ other
  return front ++ value ++ (← op ";")

def startsItem : Look :=
  .anyOf [.word "pub", .and (.word "crate") (.not (.second (.op "::"))), .word "extern",
    .word "use",
    .and (.word "static") (.or (.second (.word "mut")) (.second .name)),
    .and (.word "const") (.not (.anyOf [.second (.group .brace), .second (.word "static"),
      .and (.second (.word "async")) (.not (.third (.anyOf [.word "unsafe", .word "extern",
        .word "fn"]))),
      .second (.word "move"), .second (.op "|")])),
    .and (.word "unsafe") (.not (.second (.group .brace))),
    .and (.word "async") (.second (.anyOf [.word "unsafe", .word "extern", .word "fn"])),
    .word "fn", .word "mod", .word "type", .word "struct", .word "enum",
    .and (.word "union") (.second .name), .and (.word "auto") (.second (.word "trait")),
    .word "trait", .and (.word "default") (.second (.or (.word "unsafe") (.word "impl"))),
    .word "impl", .word "macro"]

def invocationAhead : Reader (Option (List Tree)) :=
  attempt? do
    let _ ← modPath
    let _ ← op "!"
    ahead

/-- An expression whose first operand is kept as it was written. -/
def startsWritten : Look :=
  .and (.not (.group .invisible)) <| .or (.word "become") <| .and startsBuiltin fun ts =>
    let after := ((skipOne? ts).bind skipOne?).bind fun ts => (skipOne? ts).bind skipOne?
    !after.any (Look.anyOf
      [.group .paren, .group .bracket, .op "?", .and (.op ".") (.not (.op ".."))])

def statement (g : Rules) : Reader (List Tree × Bool) := do
  let begins ← ahead
  let attrs ← outerAttrTokens g
  let after? ← invocationAhead
  let itemLike := after?.any (Look.or .name (.word "try"))
  let braced := after?.any fun ts => Look.group .brace ts &&
    !Look.second (.or (.and (.op ".") (.not (.op ".."))) (.op "?")) ts
  if !itemLike && braced then
    let p ← modPath
    let (tokens, _) ← invocation
    return (attrs ++ p.tokens ++ tokens ++ (← opWhen ";"), false)
  else if ← look (.and (.not (.group .invisible)) (.word "let")) then
    return (attrs ++ (← letStatement g), false)
  else if itemLike || (← look startsItem) then
    advance begins
    return ((← g.item).tokens, false)
  else
    let dropped ← look startsWritten
    let e ← leadingExpr g
    let semi ← opWhen ";"
    let needed := semi.isEmpty && e.form != .blockLike && e.form != .braced
    return ((e.withAttrs (if dropped then [] else attrs)).tokens ++ semi, needed)

def statements (g : Rules) : Reader (List Tree) :=
  loop (fun (done : List Tree) => do
    let semis ← manyTokens (.op ";") (op ";")
    if ← look .ended then return .done (done ++ semis)
    let (tokens, needed) ← statement g
    if ← look .ended then return .done (done ++ semis ++ tokens)
    else if needed then refuse "unexpected token, expected `;`"
    else return .again (done ++ semis ++ tokens)) []

def blockRule (g : Rules) (inner : Bool) : Reader (List Tree) :=
  grouped .brace (sequence [if inner then innerAttrTokens g else pure [], statements g])

/-- Names that an import brings in. `root` allows `::` before one; the flag says that none has
it. -/
def useTreeRule (g : Rules) (root : Bool) : Reader (List Tree × Bool) := do
  if ← look (.anyOf [.name, .word "self", .word "super", .word "crate", .word "try"]) then
    let i ← anyWord
    if ← look (.op "::") then
      let sep ← op "::"
      let (tokens, plain) ← g.useTree false
      return (i.tree :: sep ++ tokens, plain)
    else if ← look (.word "as") then
      let keyword ← word "as"
      if ← look (.or .name (.word "_")) then return (i.tree :: keyword ++ [(← anyWord).tree], true)
      else refuse "expected identifier or underscore"
    else return ([i.tree], true)
  else if ← look (.op "*") then return (← op "*", true)
  else if ← look (.group .brace) then
    let ((tokens, plain), span) ← enclosed .brace <| loop (fun (done, plain) => do
      if ← look .ended then return .done (done, plain)
      let atRoot := root && (← look (.op "::"))
      let colons ← if atRoot then op "::" else pure []
      let (tokens, inner) ← g.useTree (root && !atRoot)
      let done := done ++ colons ++ tokens
      let plain := plain && !atRoot && inner
      if ← look .ended then return .done (done, plain)
      let comma ← op ","
      return .again (done ++ comma, plain)) (([] : List Tree), true)
    return ([.group .brace tokens span], plain)
  else expected ["identifier", "`self`", "`super`", "`crate`", "`try`", "`*`", "curly braces"]

def useItem (g : Rules) : Reader (List Tree × Bool) := do
  let keyword ← word "use"
  let leading ← opWhen "::"
  let (tree, plain) ← g.useTree leading.isEmpty
  let semi ← op ";"
  return (keyword ++ leading ++ tree ++ semi, plain)

def externCrate : Reader (List Tree) := do
  let front ← sequence [word "extern", word "crate"]
  let name ← if ← look (.word "self") then anyWord else name
  let rename ← whenLook (.word "as") do
    let keyword ← word "as"
    let i ← if ← look (.word "_") then anyWord else Reader.name
    return keyword ++ [i.tree]
  return front ++ name.tree :: rename ++ (← op ";")

def invocationItem (named : Bool) : Reader (List Tree) := do
  let p ← modPath
  let bang ← op "!"
  let name ← whenLook (fun ts => named && Look.or .name (.word "try") ts) do
    return [(← anyWord).tree]
  let (delim, inner, span) ← wholeGroup
  let semi ← if delim = .brace then pure [] else op ";"
  return p.tokens ++ bang ++ name ++ .group delim inner span :: semi

def startsInvocationItem : Look :=
  .anyOf [.name, .word "self", .word "super", .word "crate", .op "::"]

def invocationStarts : List String := ["identifier", "`self`", "`super`", "`crate`", "`::`"]

structure TypeAlias where
  head : List Tree
  params : Generics
  hasBounds : Bool
  bounds : List Tree
  value : List Tree
  clause : List Tree
  semi : List Tree

inductive ClausePlace where
  | beforeValue
  | afterValue
  | either
deriving DecidableEq, Repr

def typeAlias (g : Rules) (place : ClausePlace) : Reader TypeAlias := do
  let keyword ← word "type"
  let name ← name
  let params ← generics g
  let hasBounds ← look (.op ":")
  let stop : Look := .anyOf [.word "where", .op "=", .op ";"]
  let bounds ← colonWith (separatedTokens stop "+" (boundTokens g))
  let hasClause ← look (.word "where")
  let early ← if place = .afterValue then pure [] else whereClause g
  let value ← whenLook (.op "=") (sequence [op "=", g.anyType])
  let late ← if place = .afterValue || (place = .either && !hasClause) then whereClause g
    else pure []
  let semi ← op ";"
  return ⟨keyword ++ [name.tree], params, hasBounds, bounds, value, early ++ late, semi⟩

/-- A constant after its keyword, whether it has a value, and whether it has no parameters of its
own. `others` are the phrases that could stand in place of its name. -/
def constRest (g : Rules) (others : List String) : Reader (List Tree × Bool × Bool) := do
  let name ← if ← look (.or .name (.word "_")) then anyWord
    else expected (["identifier", "`_`"] ++ others)
  let hasParams ← look (.op "<")
  let _ ← generics g
  let colon ← op ":"
  let type ← g.anyType
  let value ← whenLook (.op "=") (sequence [op "=", g.anyExpr])
  let hasClause ← look (.word "where")
  let _ ← whereClause g
  let semi ← op ";"
  return (name.tree :: colon ++ type ++ value ++ semi, !value.isEmpty, !hasParams && !hasClause)

def implMember (g : Rules) : Reader (List Tree) := do
  let begins ← ahead
  let attrs ← outerAttrTokens g
  let vis ← visibility
  let default ← whenLook (.and (.word "default") (.not (.second (.op "!")))) (word "default")
  let front := attrs ++ vis.tokens ++ default
  if ← look (startsFunction false) then
    let head ← signature g false
    if ← look (.op ";") then
      let _ ← op ";"
      return Trees.between begins (← ahead)
    else return front ++ head ++ (← g.block true)
  else if ← look (.word "const") then
    let keyword ← word "const"
    let (tokens, hasValue, simple) ← constRest g []
    if hasValue && simple then return front ++ keyword ++ tokens
    else return Trees.between begins (← ahead)
  else if ← look (.word "type") then
    let t ← typeAlias g .afterValue
    if t.hasBounds || t.value.isEmpty then return Trees.between begins (← ahead)
    else return front ++ t.head ++ t.params.tokens ++ t.value ++ t.clause ++ t.semi
  else if vis.isInherited && default.isEmpty then
    if ← look startsInvocationItem then return attrs ++ (← invocationItem false)
    else
      expected (["`default`", "`fn`", "`const`", "`type`"] ++ invocationStarts)
  else expected (if default.isEmpty then ["`default`", "`fn`", "`const`", "`type`"]
    else ["`fn`", "`const`", "`type`"])

def traitMember (g : Rules) : Reader (List Tree) := do
  let begins ← ahead
  let attrs ← outerAttrTokens g
  let vis ← visibility
  let default ← wordWhen "default"
  let plain := vis.isInherited && default.isEmpty
  let tokens ← if ← look (startsFunction false) then do
      let head ← signature g false
      if ← look (.group .brace) then pure (some (head ++ (← g.block true)))
      else if ← look (.op ";") then pure (some (head ++ (← op ";")))
      else expected ["curly braces", "`;`"]
    else if ← look (.and (.word "const") (.second
        (.anyOf [.word "async", .word "unsafe", .word "extern", .word "fn"]))) then
      pure (some (← signature g false))
    else if ← look (.word "const") then do
      let keyword ← word "const"
      let (tokens, _, simple) ← constRest g ["`async`", "`unsafe`", "`extern`", "`fn`"]
      pure (if simple then some (keyword ++ tokens) else none)
    else if ← look (.word "type") then do
      let t ← typeAlias g .afterValue
      pure (some (t.head ++ t.params.tokens ++ t.bounds ++ t.value ++ t.clause ++ t.semi))
    else if plain then do
      if ← look startsInvocationItem then pure (some (← invocationItem false))
      else expected (["`fn`", "`const`", "`type`"] ++ invocationStarts)
    else expected ["`fn`", "`const`", "`type`"]
  match tokens with
  | some tokens =>
    if plain then return attrs ++ tokens else return Trees.between begins (← ahead)
  | none => return Trees.between begins (← ahead)

def foreignMember (g : Rules) : Reader (List Tree) := do
  let begins ← ahead
  let attrs ← outerAttrTokens g
  let vis ← visibility
  let front := attrs ++ vis.tokens
  if ← look (startsFunction true) then
    let safe ← look fun ts => Look.word "safe" (skipWord "async" (skipWord "const" ts))
    let head ← signature g true
    if ← look (.group .brace) then
      let _ ← g.block true
      return Trees.between begins (← ahead)
    else
      let semi ← op ";"
      if safe then return Trees.between begins (← ahead) else return front ++ head ++ semi
  else if ← look (.or (.word "static")
      (.and (.or (.word "unsafe") (.word "safe")) (.second (.word "static")))) then
    let safety ← whenLook (.not (.word "static")) do return [(← anyWord).tree]
    let head ← sequence
      [word "static", wordWhen "mut", do return [(← name).tree], op ":", g.anyType]
    let value ← whenLook (.op "=") (sequence [op "=", g.anyExpr])
    let semi ← op ";"
    if safety.isEmpty && value.isEmpty then return front ++ head ++ semi
    else return Trees.between begins (← ahead)
  else if ← look (.word "type") then
    let t ← typeAlias g .either
    if t.hasBounds || !t.value.isEmpty then return Trees.between begins (← ahead)
    else return front ++ t.head ++ t.params.tokens ++ t.clause ++ t.semi
  else if vis.isInherited then
    if ← look startsInvocationItem then return attrs ++ (← invocationItem false)
    else expected (["`fn`", "`static`", "`type`"] ++ invocationStarts)
  else expected ["`fn`", "`static`", "`type`"]

def bodyOf (g : Rules) (member : Reader (List Tree)) : Reader (List Tree) :=
  grouped .brace (sequence [innerAttrTokens g, manyTokens (.not .ended) member])

def foreignItems (g : Rules) : Reader (List Tree) :=
  sequence [wordWhen "unsafe", word "extern", whenLook .text text, bodyOf g (foreignMember g)]

def traitRest (g : Rules) : Reader (List Tree) := do
  let stop : Look := .or (.word "where") (.group .brace)
  let bounds ← colonWith (separatedTokens stop "+" (boundTokens g))
  let clause ← whereClause g
  return bounds ++ clause ++ (← bodyOf g (traitMember g))

def traitItem (g : Rules) : Reader (List Tree) := do
  let front ← sequence [wordWhen "unsafe", wordWhen "auto", word "trait"]
  let name ← name
  let params ← generics g
  let head := front ++ name.tree :: params.tokens
  if front.length > 1 then return head ++ (← traitRest g)
  else if ← look (.anyOf [.group .brace, .op ":", .word "where"]) then
    return head ++ (← traitRest g)
  else if ← look (.op "=") then
    let eq ← op "="
    let bounds ← separatedTokens (.or (.word "where") (.op ";")) "+" do
      return (← g.bound false false).tokens
    let clause ← whereClause g
    return head ++ eq ++ bounds ++ clause ++ (← op ";")
  else expected ["curly braces", "`:`", "`where`", "`=`"]

def shownType : Ty → Ty
  | .group _ elem => shownType elem
  | t => t

/-- An implementation after its attributes; nothing if it must be kept as it was written. -/
def implItem (g : Rules) (attrs : List Tree) : Reader (Option Impl) := do
  let vis ← visibility
  let front ← sequence [wordWhen "default", wordWhen "unsafe", word "impl"]
  let params ← if ← look startsParams then generics g else pure .empty
  let const ← look (.or (.word "const") (.and (.op "?") (.second (.word "const"))))
  if const then
    let _ ← opWhen "?"
    let _ ← word "const"
  let negative ← if ← look (.and (.op "!") (.not (.second (.group .brace)))) then do
      pure (some (← opSpan "!"))
    else pure none
  let first ← g.type true true
  let isFor ← look (.word "for")
  let (trait, self) ← if isFor then do
      let _ ← word "for"
      let self ← g.type true true
      match shownType first with
      | .path (.plain p) => pure (some p, self)
      | _ => pure (none, self)
    else
      match negative with
      | none => pure (none, first)
      | some bang => failAt bang (.refused "inherent impls cannot be negative" false)
  let clause ← whereClause g
  let body ← bodyOf g (implMember g)
  if !vis.isInherited || const || (isFor && trait.isNone) then return none
  else return some ⟨attrs ++ front ++ params.tokens, negative, trait, self, clause ++ body⟩

def moduleItem (g : Rules) (attrs : List Attr) : Reader Item := do
  let vis ← visibility
  let safety ← wordWhen "unsafe"
  let keyword ← wordSpan "mod"
  let name ← if ← look (.word "try") then anyWord else name
  if ← look (.op ";") then
    let semi ← op ";"
    return .fileModule (attrTokens attrs ++ vis.tokens ++ safety ++
      [.ident "mod" keyword, name.tree] ++ semi)
  else if ← look (.group .brace) then
    let ((inner, items), span) ← enclosed .brace do
      return (← innerAttrs g, ← manyWhile (.not .ended) g.item)
    return .module ⟨attrs, vis, safety, keyword, name, inner, span⟩ items
  else expected ["`;`", "curly braces"]

def exampleItem : Reader Unit := do
  let _ ← word "macro"
  let _ ← name
  let args ← look (.group .paren)
  if args then
    let _ ← enclosed .paren remaining
  if ← look (.group .brace) then
    let _ ← enclosed .brace remaining
  else expected (if args then ["curly braces"] else ["parentheses", "curly braces"])

def staticItem (g : Rules) : Reader (Option (List Tree)) := do
  let front ← sequence [word "static", wordWhen "mut", do return [(← name).tree]]
  if ← look (.op "=") then
    let _ ← sequence [op "=", g.anyExpr, op ";"]
    return none
  let head ← sequence [op ":", g.anyType]
  if ← look (.op ";") then
    let _ ← op ";"
    return none
  return some (front ++ head ++ (← sequence [op "=", g.anyExpr, op ";"]))

def itemStarts : List String :=
  ["`fn`", "`extern`", "`use`", "`static`", "`const`", "`unsafe`", "`mod`", "`type`", "`struct`",
    "`enum`", "`union`", "`trait`", "`auto`", "`impl`", "`default`", "`macro`"]

def pastVisibility : Reader (List Tree) := fun s =>
  match visibility s with
  | .ok _ t => .ok t.rest s
  | .fail e => .fail e

def afterVisibility (attrs : List Attr) (p : Reader (List Tree)) : Reader Item := do
  let vis ← visibilityTokens
  return .other (attrTokens attrs ++ vis ++ (← p))

def implOrWritten (g : Rules) (begins : List Tree) (attrs : List Attr) : Reader Item := do
  match ← implItem g (attrTokens attrs) with
  | some i => return .impl i
  | none => return .other (Trees.between begins (← ahead))

def itemRule (g : Rules) : Reader Item := do
  let begins ← ahead
  let attrs ← outerAttrs g
  let next ← pastVisibility
  let seen (p : Look) : Bool := p next
  let written : Reader Item := do return .other (Trees.between begins (← ahead))
  if seen (startsFunction false) then
    let vis ← visibilityTokens
    let head ← signature g false
    if ← look (.op ";") then
      let _ ← op ";"
      written
    else return .other (attrTokens attrs ++ vis ++ head ++ (← g.block true))
  else if seen (.word "extern") then
    if seen (.second (.word "crate")) then afterVisibility attrs externCrate
    else if seen (.second (.group .brace)) then
      return .other (attrTokens attrs ++ (← foreignItems g))
    else if seen (.second .text) then
      if seen (.third (.group .brace)) then return .other (attrTokens attrs ++ (← foreignItems g))
      else do
        advance ((skipOne? next).bind skipOne? |>.getD [])
        expected ["curly braces"]
    else do
      advance ((skipOne? next).getD [])
      expected ["`crate`", "curly braces", "string literal"]
  else if seen (.word "use") then
    let vis ← visibilityTokens
    let (tokens, plain) ← useItem g
    if plain then return .other (attrTokens attrs ++ vis ++ tokens) else written
  else if seen (.word "static") then
    let vis ← visibilityTokens
    match ← staticItem g with
    | some tokens => return .other (attrTokens attrs ++ vis ++ tokens)
    | none => written
  else if seen (.word "const") then
    let vis ← visibilityTokens
    let keyword ← word "const"
    let (tokens, hasValue, simple) ← constRest g []
    if hasValue && simple then return .other (attrTokens attrs ++ vis ++ keyword ++ tokens)
    else written
  else if seen (.word "unsafe") then
    if seen (.second (.or (.word "trait") (.and (.word "auto") (.second (.word "trait"))))) then
      afterVisibility attrs (traitItem g)
    else if seen (.second (.word "impl")) then implOrWritten g begins attrs
    else if seen (.second (.word "extern")) then
      return .other (attrTokens attrs ++ (← foreignItems g))
    else if seen (.second (.word "mod")) then moduleItem g attrs
    else do
      advance ((skipOne? next).getD [])
      expected ["`trait`", "`auto`", "`impl`", "`extern`", "`mod`"]
  else if seen (.word "mod") then moduleItem g attrs
  else if seen (.word "type") then
    let vis ← visibilityTokens
    let t ← typeAlias g .beforeValue
    if t.hasBounds || t.value.isEmpty then written
    else
      return .other (attrTokens attrs ++ vis ++ t.head ++ t.params.tokens ++ t.clause ++ t.value ++
        t.semi)
  else if seen (.word "struct") then
    let vis ← visibility
    return .struct (← structRest g attrs vis)
  else if seen (.word "enum") then afterVisibility attrs (enumRest g)
  else if seen (.and (.word "union") (.second .name)) then afterVisibility attrs (unionRest g)
  else if seen (.or (.word "trait") (.and (.word "auto") (.second (.word "trait")))) then
    afterVisibility attrs (traitItem g)
  else if seen (.or (.word "impl") (.and (.word "default") (.not (.second (.op "!"))))) then
    implOrWritten g begins attrs
  else if seen (.word "macro") then
    advance next
    exampleItem
    written
  else if (← visibility).isInherited then
    if ← look startsInvocationItem then return .other (attrTokens attrs ++ (← invocationItem true))
    else expected (itemStarts ++ invocationStarts)
  else expected itemStarts

end Delegation.Reader
