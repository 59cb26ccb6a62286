import Delegation.Syntax.Generics

namespace Delegation.Reader

def returnType (g : Rules) (plus : Bool) : Reader (List Tree) := do
  if ← look (.op "->") then
    let arrow ← op "->"
    return arrow ++ (← g.type plus true).tokens
  else return []

/-- The path of a trait, which may take arguments in parentheses. They replace empty angle brackets,
and a `::` before them is dropped. -/
def traitPath (g : Rules) : Reader (List Tree) := do
  let path ← path g false
  let bare := match path.segments.getLast? with
    | some (.angled _ _ _ args _ _) => args.isEmpty
    | _ => true
  if bare && (← look (.or (.group .paren) (.and (.op "::") (.third (.group .paren))))) then
    let _ ← opWhen "::"
    let args ← grouped .paren (terminated g.anyType)
    let output ← returnType g false
    let segments := path.segments.dropLast ++
      (path.segments.getLast?.map fun s => Segment.plain s.name).toList
    return (Path.mk path.leading segments).tokens ++ args ++ output
  else return path.tokens

def traitBound (g : Rules) (const : Bool) : Reader (List Tree × Bool) := do
  let lifetimes ← binderWhen g
  let place ← here
  let mut asWritten := false
  let mut constant := []
  if ← look (.group .bracket) then
    let (_, span) ← enclosed .bracket (word "const")
    if !const then failAt span (.refused "`[const]` is not allowed here" false)
    asWritten := true
  else if ← look (.word "const") then
    constant ← word "const"
    if !const then failAt place (.refused "`const` is not allowed here" false)
    asWritten := true
  let question ← here
  let maybe ← opWhen "?"
  let late ← if lifetimes.isEmpty && !maybe.isEmpty then binderWhen g else pure []
  let path ← traitPath g
  if !(lifetimes ++ late).isEmpty && !maybe.isEmpty then
    failAt question
      (.refused "`for<...>` binder not allowed with `?` trait polarity modifier" false)
  return (constant ++ maybe ++ lifetimes ++ path, asWritten)

def captured : Reader (Bool × List Tree) := do
  if ← look .lifetime then return (true, ← lifetime)
  else if ← look (.or .name (.word "Self")) then return (false, [(← anyWord).tree])
  else expected ["lifetime", "identifier", "`>`"]

def capture : Reader (List Tree) := do
  let keyword ← word "use"
  let opening ← op "<"
  let (params, trailing) ← loop (fun (done : List (Bool × List Tree)) => do
    if ← look (.op ">") then return .done (done.reverse, !done.isEmpty)
    let param ← captured
    if ← look (.op ">") then return .done ((param :: done).reverse, false)
    if ← look (.op ",") then
      let _ ← op ","
      return .again (param :: done)
    else expected ["`,`", "`>`"]) []
  let closing ← op ">"
  let (params, trailing) := lifetimesFirst params trailing
  return keyword ++ opening ++ Generics.commas trailing params ++ closing

def boundRule (g : Rules) (captures const : Bool) : Reader Bound := do
  if ← look .lifetime then
    let tokens ← lifetime
    return ⟨false, tokens, (tokens.getLast?.map Tree.span).getD .made⟩
  if ← look (.word "use") then
    let start ← here
    let tokens ← capture
    let last := (tokens.getLast?.map Tree.span).getD .made
    if captures then return ⟨false, tokens, last⟩
    else
      failAt (start.hull last)
        (.refused "`use<...>` precise capturing syntax is not allowed here" false)
  let before ← ahead
  let (tokens, asWritten) ← if ← look (.group .paren) then do
      let ((tokens, asWritten), span) ← enclosed .paren (traitBound g const)
      pure ([Tree.group .paren tokens span], asWritten)
    else traitBound g const
  let after ← ahead
  return ⟨true, if asWritten then Trees.between before after else tokens, .made⟩

def startsBound (const : Bool) : Look := fun ts =>
  Look.anyOf [.anyWord, .op "::", .op "?", .lifetime, .group .paren] ts ||
    (const && Look.or (.group .bracket) (.word "const") ts)

def bounds (g : Rules) (plus captures const : Bool) : Reader (List Bound × List Tree) :=
  loop (fun (found, tokens) => do
    let b ← g.bound captures const
    let found := found ++ [b]
    let tokens := tokens ++ b.tokens
    if plus && (← look (.op "+")) then
      let sep ← op "+"
      if ← look (startsBound const) then return .again (found, tokens ++ sep)
      else return .done (found, tokens ++ sep)
    else return .done (found, tokens)) ([], [])

/-- Bounds of which one at least is a trait; `start` is where the type starts. -/
def traitBounds (g : Rules) (start : Span) (plus captures const : Bool) (complaint : String) :
    Reader (List Tree) := do
  let (found, tokens) ← bounds g plus captures const
  if found.any Bound.isTrait then return tokens
  else
    let last := (found.getLast?.map Bound.last).getD .made
    failAt (start.hull last) (.refused complaint false)

def noTrait : String := "at least one trait is required for an object type"

def traitObject (g : Rules) (plus : Bool) : Reader (List Tree) := do
  let start ← here
  if ← look (.word "dyn") then
    let before ← ahead
    let keyword ← word "dyn"
    let star ← opWhen "*"
    let tokens ← traitBounds g start plus false false noTrait
    let after ← ahead
    return if star.isEmpty then keyword ++ tokens else Trees.between before after
  else traitBounds g start plus false false noTrait

def plusBounds (g : Rules) : Reader (List Tree) :=
  manyTokens (.op "+") do
    let sep ← op "+"
    return sep ++ (← g.bound false false).tokens

inductive ParenType where
  | tuple (tokens : List Tree)
  | object (tokens : List Tree)
  | maybe (tokens : List Tree)
  | single (type : Ty)

def parenType (g : Rules) : Reader ParenType := do
  if ← look .ended then return .tuple []
  if ← look .lifetime then return .object (← traitObject g true)
  if ← look (.op "?") then return .maybe (← traitBound g false).1
  let first ← g.type true true
  if ← look (.op ",") then
    let comma ← op ","
    let rest ← terminated g.anyType
    return .tuple (first.tokens ++ comma ++ rest)
  return .single first

/-- The one trait that a type names, without parentheses of its own. Those around the type take
their place if a `+` follows. -/
def soleTrait? : Ty → Option (List Tree)
  | .path (.plain p) => some p.tokens
  | .bound _ tokens => some tokens
  | _ => none

def parenthesized (g : Rules) (plus : Bool) : Reader Ty := do
  let (content, span) ← enclosed .paren (parenType g)
  match content with
  | .tuple tokens => return .other [.group .paren tokens span]
  | .object tokens => return .paren span (.other tokens)
  | .maybe tokens => do
    let more ← plusBounds g
    if more.isEmpty then return .bound (some span) tokens
    else return .other (.group .paren tokens span :: more)
  | .single first => do
    let more ← look (.op "+")
    match soleTrait? first, plus && more with
    | some trait, true => return .other (.group .paren trait span :: (← plusBounds g))
    | _, _ => return .paren span first

def withArgs (g : Rules) (segments : List Segment) : Reader (List Segment) := do
  match segments.getLast? with
  | some last => do
    let angled ← angledArgs g last.name
    let more ← moreSegments g false
    return segments.dropLast ++ angled :: more
  | none => return segments

/-- An invisible group. A path in it goes on after it, and another type in it can be qualified. -/
def groupType (g : Rules) (generic : Bool) : Reader Ty := do
  let (elem, span) ← enclosed .invisible (g.type true true)
  if ← look (.and (.op "::") (.third .anyWord)) then
    match elem with
    | .path (.plain ⟨leading, segments⟩) => do
      let more ← moreSegments g false
      return .path (.plain ⟨leading, segments ++ more⟩)
    | .path (.qualified opening self via closing members) => do
      let more ← moreSegments g false
      return .path (.qualified opening self via closing (members ++ more))
    | elem => do
      let p ← path g false
      return .path (.qualified span elem none span p.segments)
  else if (generic && (← look (.op "<"))) || (← look (.and (.op "::") (.third (.op "<")))) then
    match elem with
    | .path (.plain ⟨leading, segments⟩) => do
      if (segments.getLast?.map Segment.isPlain).getD false then
        return .path (.plain ⟨leading, ← withArgs g segments⟩)
      else return .group span elem
    | .path (.qualified opening self via closing members) => do
      if (members.getLast?.map Segment.isPlain).getD false then
        return .path (.qualified opening self via closing (← withArgs g members))
      else return .group span elem
    | elem => return .group span elem
  else return .group span elem

def linkage : Reader (List Tree) :=
  whenLook (.word "extern") (sequence [word "extern", whenLook .text text])

/-- An argument of a function type. Receivers are kept as they were written. -/
def functionTypeArg (g : Rules) (allowSelf : Bool) : Reader (List Tree) := do
  let before ← ahead
  let mutSelf ← look (.and (.word "mut") (.second (.word "self")))
  let mutSelf := allowSelf && mutSelf
  if mutSelf then
    let _ ← word "mut"
  let named ← look (.and (.or .name (.or (.word "_")
    (fun ts => allowSelf && Look.word "self" ts)))
    (.and (.second (.op ":")) (.not (.second (.op "::")))))
  let (nameTokens, isSelf) ← if named then do
      let i ← anyWord
      let colon ← op ":"
      pure (i.tree :: colon, allowSelf && i.name == "self")
    else pure ([], false)
  let lateMut ← look (.and (.word "mut") (.second (.word "self")))
  if allowSelf && !isSelf && lateMut then
    let _ ← word "mut"
    let _ ← word "self"
    return Trees.between before (← ahead)
  else if mutSelf && !named then
    let _ ← word "self"
    return Trees.between before (← ahead)
  else
    let type ← g.anyType
    if mutSelf then return Trees.between before (← ahead) else return nameTokens ++ type

def functionTypeArgs (g : Rules) : Reader (List Tree) :=
  loop (fun (done : List Tree) => do
    if ← look .ended then return .done done
    let attrs ← outerAttrTokens g
    if ← look (.or (.op "...") (.and (.or .name (.word "_"))
        (.and (.second (.op ":")) (.third (.op "..."))))) then
      let named ← whenLook (.not (.op "...")) do return (← anyWord).tree :: (← op ":")
      let dots ← op "..."
      let comma ← opWhen ","
      return .done (done ++ attrs ++ named ++ dots ++ comma)
    let arg ← functionTypeArg g done.isEmpty
    if ← look .ended then return .done (done ++ attrs ++ arg)
    let comma ← op ","
    return .again (done ++ attrs ++ arg ++ comma)) []

def functionType (g : Rules) : Reader (List Tree) :=
  sequence [wordWhen "unsafe", linkage, word "fn", grouped .paren (functionTypeArgs g),
    returnType g false]

def invocation : Reader (List Tree × Delim) := do
  let bang ← op "!"
  let (delim, inner, span) ← wholeGroup
  return (bang ++ [.group delim inner span], delim)

def startsInvocation : Look := .and (.op "!") (.not (.op "!="))

def pathType (g : Rules) (lifetimes : List Tree) (plus : Bool) : Reader Ty := do
  match ← qpath g false with
  | .qualified opening self via closing members =>
    return .path (.qualified opening self via closing members)
  | .plain p => do
    if p.isPlain && (← look startsInvocation) then
      return .other (p.tokens ++ (← invocation).1)
    let more ← look (.op "+")
    if !lifetimes.isEmpty || (plus && more) then
      let rest ← if plus then
          loop (fun (done : List Tree) => do
            if ← look (.op "+") then
              let sep ← op "+"
              if ← look (startsBound false) then
                return .again (done ++ sep ++ (← g.bound false false).tokens)
              else return .done (done ++ sep)
            else return .done done) []
        else pure []
      let tokens := lifetimes ++ p.tokens ++ rest
      return if rest.isEmpty then .bound none tokens else .other tokens
    else return .path (.plain p)

def arrayType (g : Rules) : Reader (List Tree) := do
  let elem ← g.anyType
  if ← look (.op ";") then return elem ++ (← op ";") ++ (← g.anyExpr) else return elem

def pointerType (g : Rules) : Reader (List Tree) := do
  let star ← op "*"
  if ← look (.or (.word "const") (.word "mut")) then
    let i ← anyWord
    return star ++ i.tree :: (← g.narrowType)
  else expected ["`const`", "`mut`"]

def referenceType (g : Rules) : Reader Ty := do
  let amp ← opSpan "&"
  let lifetime ← lifetimeWhen
  let mutable ← if ← look (.word "mut") then pure (some (← wordSpan "mut")) else pure none
  return .reference amp lifetime mutable (← g.type false true)

def hiddenType (g : Rules) (plus : Bool) : Reader (List Tree) := do
  let start ← here
  let keyword ← word "impl"
  return keyword ++ (← traitBounds g start plus true true "at least one trait must be specified")

def isTypeWord : Look :=
  .anyOf [.word "super", .word "self", .word "Self", .word "crate"]

/-- What a type may start with, in the order in which it is looked for. -/
def typeStarts : List String :=
  ["`for`", "parentheses", "`fn`", "`unsafe`", "`extern`", "identifier", "`::`", "`<`", "`dyn`",
    "square brackets", "`*`", "`&`", "`!`", "`impl`", "`_`", "lifetime"]

def binderFollows : List String :=
  ["identifier", "`fn`", "`unsafe`", "`extern`", "`super`", "`self`", "`Self`", "`crate`"]

def isFunctionWord : Look := .anyOf [.word "fn", .word "unsafe", .word "extern"]

def startsBuiltin : Look := .and (.word "builtin") (.second (.op "#"))

def builtin : Reader Unit := do
  let _ ← sequence [word "builtin", op "#"]
  let _ ← name
  let _ ← enclosed .paren remaining

def typeRule (g : Rules) (plus generic : Bool) : Reader Ty := do
  if ← look (.group .invisible) then return ← groupType g generic
  let begins ← ahead
  let lifetimes ← binderWhen g
  if !lifetimes.isEmpty && !(← look (.anyOf [.name, isFunctionWord, isTypeWord])) then
    expected binderFollows
  else if ← look (.group .paren) then parenthesized g plus
  else if ← look isFunctionWord then return .other (lifetimes ++ (← functionType g))
  else if ← look startsBuiltin then
    let _ ← builtin
    return .other (Trees.between begins (← ahead))
  else if ← look (.anyOf [.name, isTypeWord, .op "::", .op "<"]) then pathType g lifetimes plus
  else if ← look (.word "dyn") then return .other (← traitObject g plus)
  else if ← look (.group .bracket) then return .other (← grouped .bracket (arrayType g))
  else if ← look (.op "*") then return .other (← pointerType g)
  else if ← look (.op "&") then referenceType g
  else if ← look (.op "!") then return .other (← op "!")
  else if ← look (.word "impl") then return .other (← hiddenType g plus)
  else if ← look (.word "_") then return .other (← word "_")
  else if ← look .lifetime then return .other (← traitObject g plus)
  else expected typeStarts

end Delegation.Reader
