import Delegation.Syntax.Pattern

namespace Delegation.Reader

def binaryOperators : List (String × Precedence) :=
  [("+=", .assign), ("-=", .assign), ("*=", .assign), ("/=", .assign), ("%=", .assign),
    ("^=", .assign), ("&=", .assign), ("|=", .assign), ("<<=", .assign), (">>=", .assign),
    ("&&", .conjunction), ("||", .disjunction), ("<<", .shift), (">>", .shift), ("==", .compare),
    ("<=", .compare), ("!=", .compare), (">=", .compare), ("+", .sum), ("-", .sum),
    ("*", .product), ("/", .product), ("%", .product), ("^", .bitXor), ("&", .bitAnd),
    ("|", .bitOr), ("<", .compare), (">", .compare)]

def binary? (ts : List Tree) : Option (String × Precedence) :=
  binaryOperators.find? fun o => Look.op o.1 ts

def startsAssign : Look := .and (.op "=") (.not (.op "=>"))

def nextPrecedence (ts : List Tree) : Precedence :=
  match binary? ts with
  | some (_, p) => p
  | none =>
    if startsAssign ts then .assign
    else if Look.op ".." ts then .range
    else if Look.word "as" ts then .cast
    else .jump

/-- The right operand of an operator that binds as `p`: it takes everything that binds tighter. -/
def rightOperand (g : Rules) (braces : Bool) (p : Precedence) : Reader Expr := do
  let first ← g.unary braces
  loop (fun (right : Expr) => do
    let ts ← ahead
    let next := nextPrecedence ts
    if p.rank < next.rank || (next == p && p == .assign) then
      let more ← g.operators braces next right
      -- a range takes no operator
      if Trees.flat (← ahead) = Trees.flat ts then return .done more else return .again more
    else return .done right) first

def noRangeEnd (braces : Bool) : Look := fun ts =>
  Look.anyOf [.ended, .op ",", .op ";", .and (.op ".") (.not (.op "..")), .op "?", .op "=>",
    .op "=", .op "+", .op "/", .op "%", .op "^", .op ">", .op "<=", .op "!=", .op "-=", .op "*=",
    .op "&=", .op "|=", .op "<<=", .word "as"] ts ||
    (!braces && Look.group .brace ts)

/-- Tokens with parentheses around a block that stands first, unless attributes set it apart. -/
def shielded : List Tree → List Tree
  | .group .brace inner span :: rest =>
    if startsInner inner then .group .brace inner span :: rest
    else .group .paren [.group .brace inner span] .made :: rest
  | tokens => tokens

/-- The dots of a range and its upper end. Before the braces of a block, an end that is a block or
starts with one is told from them by parentheses. -/
def rangeRest (g : Rules) (braces : Bool) : Reader (List Tree) := do
  let (dots, closed) ← rangeDots false
  if !closed && (← look (noRangeEnd braces)) then return dots
  let stop := (← rightOperand g braces .range).tokens
  return dots ++ if braces then stop else shielded stop

/-- A type that was cast to must not be followed by what would belong to it. -/
def checkCast : Reader Unit := do
  let ts ← ahead
  if Look.and (.op ".") (.not (.op "..")) ts then
    if Look.second (.word "await") ts then refuse "casts cannot be followed by `.await`"
    else if Look.and (.second .name) (.third (.or (.group .paren) (.op "::"))) ts then
      refuse "casts cannot be followed by a method call"
    else refuse "casts cannot be followed by a field access"
  else if Look.op "?" ts then refuse "casts cannot be followed by `?`"
  else if Look.group .bracket ts then refuse "casts cannot be followed by indexing"
  else if Look.group .paren ts then refuse "casts cannot be followed by a function call"
  else return ()

def operatorsRule (g : Rules) (braces : Bool) (floor : Precedence) (left : Expr) : Reader Expr :=
  loop (fun (left : Expr) => do
    if left.form = .range then return .done left
    let ts ← ahead
    match binary? ts with
    | some (text, p) =>
      if p.rank < floor.rank then return .done left
      if p = .compare ∧ left.form = .comparison then
        refuse "comparison operators cannot be chained"
      let sign ← op text
      let right ← rightOperand g braces p
      let form := if p = .compare then Form.comparison else .plain
      return .again (.other form (left.tokens ++ sign ++ right.tokens))
    | none =>
      if floor.rank ≤ Precedence.assign.rank && startsAssign ts then
        let sign ← op "="
        let right ← rightOperand g braces .assign
        return .again (.other .plain (left.tokens ++ sign ++ right.tokens))
      else if floor.rank ≤ Precedence.range.rank && Look.op ".." ts then
        return .again (.other .range (left.tokens ++ (← rangeRest g braces)))
      else if floor.rank ≤ Precedence.cast.rank && Look.word "as" ts then
        let keyword ← word "as"
        let type ← g.type false false
        checkCast
        return .again (.other .plain (left.tokens ++ keyword ++ type.tokens))
      else return .done left) left

def exprAttrs (g : Rules) : Reader (List Tree) := do
  let attrs ← manyWhile (.and (.not (.group .invisible)) (.op "#")) (outerAttr g)
  return attrTokens attrs

def exprList (g : Rules) : Reader (List Tree) := terminated g.anyExpr

def selected (g : Rules) (left : List Tree) : Reader Expr := do
  if ← look (.word "await") then return .other .plain (left ++ (← word "await"))
  let (field, named) ← member
  let generic ← look (.op "::")
  if named && generic then
    let s ← angledArgs g ⟨"", .made⟩
    let args ← grouped .paren (exprList g)
    return .other .plain (left ++ field ++ s.tokens.drop 1 ++ args)
  else if named && (← look (.group .paren)) then
    return .other .plain (left ++ field ++ (← grouped .paren (exprList g)))
  else return .other .plain (left ++ field)

def dotted (g : Rules) (e : Expr) : Reader Expr := do
  let dot ← op "."
  let dotSpan := (dot.head?.map Tree.span).getD .made
  match Numeral.ahead? (← ahead) with
  | some (n, rest) =>
    if n.isFractional then
      match n.positions with
      | .ok (parts, unfinished) => do
        advance rest
        let fields := parts.flatMap fun i => [mark '.' dotSpan, positionTree i n.span]
        if unfinished then selected g (e.tokens ++ fields ++ [mark '.' n.span])
        else return .other .plain (e.tokens ++ fields)
      | .error reason => failAt n.span (.refused reason false)
    else selected g (e.tokens ++ dot)
  | none => selected g (e.tokens ++ dot)

def trailers (g : Rules) (e : Expr) : Reader Expr :=
  loop (fun (e : Expr) => do
    let ts ← ahead
    if Look.group .paren ts then
      let (args, span) ← enclosed .paren (exprList g)
      return .again (.call [] e args span)
    else if e.form ≠ .range && Look.and (.op ".") (.not (.op "..")) ts then
      return .again (← dotted g e)
    else if Look.group .bracket ts then
      return .again (.other .plain (e.tokens ++ (← grouped .bracket g.anyExpr)))
    else if e.form ≠ .range && Look.op "?" ts then
      return .again (.other .plain (e.tokens ++ (← op "?")))
    else return .done e) e

def fieldValue (g : Rules) : Reader (List Tree) := do
  let attrs ← outerAttrTokens g
  let (field, named) ← member
  if !named || (← look (.op ":")) then
    return attrs ++ field ++ (← op ":") ++ (← g.anyExpr)
  else return attrs ++ field

def structLiteral (g : Rules) : Reader (List Tree) :=
  loop (fun (done : List Tree) => do
    if ← look .ended then return .done done
    if ← look (.op "..") then
      let dots ← op ".."
      return .done (done ++ dots ++ (← whenLook (.not .ended) g.anyExpr))
    let field ← fieldValue g
    if ← look .ended then return .done (done ++ field)
    let comma ← op ","
    return .again (done ++ field ++ comma)) []

def pathRest (g : Rules) (braces : Bool) (p : QPath) : Reader Expr := do
  let plain := match p with
    | .plain p => p.isPlain
    | .qualified .. => false
  if plain && (← look startsInvocation) then
    let (tokens, delim) ← invocation
    return .other (if delim = .brace then .braced else .plain) (p.tokens ++ tokens)
  else if braces && (← look (.group .brace)) then
    return .other .plain (p.tokens ++ (← grouped .brace (structLiteral g)))
  else return .path [] p

def segmentCount : QPath → Nat
  | .plain p => p.segments.length
  | .qualified _ _ _ _ members => members.length

/-- An invisible group. A path in it goes on after it. -/
def groupExpr (g : Rules) (braces : Bool) : Reader Expr := do
  let (inner, span) ← enclosed .invisible (g.expr true)
  match inner with
  | .path [] p => do
    let more ← moreSegments g true
    let longer := match p with
      | .plain ⟨leading, segments⟩ => QPath.plain ⟨leading, segments ++ more⟩
      | .qualified opening self via closing members =>
        .qualified opening self via closing (members ++ more)
    match ← pathRest g braces longer with
    | .path attrs q =>
      if segmentCount q = segmentCount p then return .group [] span (.path attrs q)
      else return .path attrs q
    | extended => return extended
  | inner => return .group [] span inner

def parenExpr (g : Rules) : Reader Expr := do
  let (content, span) ← enclosed .paren do
    if ← look .ended then return Sum.inr []
    let first ← g.expr true
    if ← look .ended then return Sum.inl first
    let comma ← op ","
    return Sum.inr (first.tokens ++ comma ++ (← exprList g))
  match content with
  | .inl e => return .paren [] span e
  | .inr tokens => return .other .plain [.group .paren tokens span]

def arrayExpr (g : Rules) : Reader (List Tree) := do
  if ← look .ended then return []
  let first ← g.anyExpr
  if ← look .ended then return first
  else if ← look (.op ",") then return first ++ (← op ",") ++ (← exprList g)
  else if ← look (.op ";") then return first ++ (← op ";") ++ (← g.anyExpr)
  else refuse "expected `,` or `;`"

def closureArg (g : Rules) : Reader (List Tree) := do
  let attrs ← outerAttrTokens g
  let pattern ← g.pattern
  if ← look (.op ":") then
    return attrs ++ pattern.tokens ++ (← sequence [op ":", g.anyType])
  else return pattern.withAttrs attrs

def closure (g : Rules) (braces : Bool) : Reader (List Tree) := do
  let front ← sequence [binderWhen g, wordWhen "const", wordWhen "static", wordWhen "async",
    wordWhen "move", op "|", separatedTokens (.op "|") "," (closureArg g), op "|"]
  if ← look (.op "->") then return front ++ (← op "->") ++ (← g.anyType) ++ (← g.block false)
  else return front ++ (← g.expr braces).tokens

def startsExpr : Look :=
  .anyOf [.and .anyWord (.not (.word "as")), .group .paren, .group .bracket, .group .brace,
    .literal, .and (.op "!") (.not (.op "!=")),
    .and (.op "-") (.and (.not (.op "-=")) (.not (.op "->"))), .and (.op "*") (.not (.op "*=")),
    .and (.op "|") (.not (.op "|=")), .and (.op "&") (.not (.op "&=")), .op "..",
    .and (.op "<") (.and (.not (.op "<=")) (.not (.op "<<="))), .op "::", .lifetime, .op "#"]

def breakExpr (g : Rules) (braces : Bool) : Reader (List Tree) := do
  let keyword ← word "break"
  let start ← here
  if ← look (.and .lifetime (.second (.op ":"))) then
    let e ← g.anyExpr
    let last := (e.getLast?.map Tree.span).getD .made
    failAt (start.hull last) (.refused "parentheses required" false)
  let label ← lifetimeWhen
  let value ← whenLook (fun ts => startsExpr ts && (braces || !Look.group .brace ts))
    g.anyExpr
  return keyword ++ label ++ value

def optionalExpr (g : Rules) : Reader (List Tree) := whenLook startsExpr g.anyExpr

def ifExpr (g : Rules) : Reader (List Tree) :=
  loop (fun (done : List Tree) => do
    let clause ← sequence [word "if", g.headExpr, g.block false]
    if ← look (.word "else") then
      let other ← word "else"
      if ← look (.word "if") then return .again (done ++ clause ++ other)
      else if ← look (.group .brace) then
        return .done (done ++ clause ++ other ++ (← g.block false))
      else expected ["`if`", "curly braces"]
    else return .done (done ++ clause)) []

def forExpr (g : Rules) : Reader (List Tree) :=
  sequence [word "for", patterns g, word "in", g.headExpr, g.block true]

def whileExpr (g : Rules) : Reader (List Tree) := sequence [word "while", g.headExpr, g.block true]

def loopExpr (g : Rules) : Reader (List Tree) := sequence [word "loop", g.block true]

def labelled (g : Rules) : Reader (List Tree) := do
  let label ← sequence [lifetime, op ":"]
  let body ← if ← look (.word "while") then whileExpr g
    else if ← look (.word "for") then forExpr g
    else if ← look (.word "loop") then loopExpr g
    else if ← look (.group .brace) then g.block true
    else refuse "expected loop or block expression"
  return label ++ body

def letExpr (g : Rules) (braces : Bool) : Reader (List Tree) := do
  let front ← sequence [word "let", patterns g, op "="]
  let left ← g.unary braces
  return front ++ (← g.operators braces .compare left).tokens

/-- `for<'a> |x| ...`, a closure with parameters of its own, rather than a loop over values that
match a qualified path. -/
def startsBinder : Look := .and (.word "for") (.second startsParams)

def blockExpr? (g : Rules) (ts : List Tree) : Option (Reader (List Tree)) :=
  if Look.word "if" ts then some (ifExpr g)
  else if Look.word "while" ts then some (whileExpr g)
  else if Look.word "for" ts && !startsBinder ts then some (forExpr g)
  else if Look.word "loop" ts then some (loopExpr g)
  else if Look.word "match" ts then
    some (sequence [word "match", g.headExpr,
      grouped .brace (sequence [innerAttrTokens g, manyTokens (.not .ended) g.arm])])
  else if Look.and (.word "try") (.second (.group .brace)) ts then
    some (sequence [word "try", g.block false])
  else if Look.word "unsafe" ts then some (sequence [word "unsafe", g.block true])
  else if Look.and (.word "const") (.second (.group .brace)) ts then
    some (sequence [word "const", g.block true])
  else if Look.group .brace ts then some (g.block true)
  else none

def startsClosure : Look :=
  .anyOf [.op "|", .word "move", startsBinder,
    .and (.word "const") (.not (.second (.group .brace))), .word "static",
    .and (.word "async") (.or (.second (.op "|")) (.second (.word "move")))]

def startsPathExpr : Look :=
  .anyOf [.name, .op "::", .op "<", .word "self", .word "Self", .word "super", .word "crate",
    .and (.word "try") (.or (.second (.op "!")) (.second (.op "::")))]

def plainExpr (p : Reader (List Tree)) : Reader Expr := do return .other .plain (← p)

def atom (g : Rules) (braces : Bool) : Reader Expr := do
  let ts ← ahead
  if Look.group .invisible ts then groupExpr g braces
  else if Look.literal ts then plainExpr literal
  else if Look.and (.word "async") (.or (.second (.group .brace))
      (.and (.second (.word "move")) (.third (.group .brace)))) ts then
    plainExpr (sequence [word "async", wordWhen "move", g.block false])
  else if Look.and (.word "try") (.second (.group .brace)) ts then
    return .other .blockLike (← sequence [word "try", g.block false])
  else if startsClosure ts then plainExpr (closure g braces)
  else if startsBuiltin ts then return .other .written (← verbatim builtin)
  else if startsPathExpr ts then pathRest g braces (← qpath g true)
  else if Look.group .paren ts then parenExpr g
  else if Look.word "break" ts then plainExpr (breakExpr g braces)
  else if Look.word "continue" ts then plainExpr (sequence [word "continue", lifetimeWhen])
  else if Look.word "return" ts then plainExpr (sequence [word "return", optionalExpr g])
  else if Look.word "become" ts then
    return .other .written (← verbatim (sequence [word "become", g.anyExpr]))
  else if Look.group .bracket ts then plainExpr (grouped .bracket (arrayExpr g))
  else if Look.word "let" ts then plainExpr (letExpr g braces)
  else if Look.word "yield" ts then plainExpr (sequence [word "yield", optionalExpr g])
  else
    match blockExpr? g ts with
    | some p => return .other .blockLike (← p)
    | none =>
      if Look.op ".." ts then return .other .range (← rangeRest g braces)
      else if Look.word "_" ts then plainExpr (word "_")
      else if Look.lifetime ts then return .other .blockLike (← labelled g)
      else refuse "expected an expression"

def firstOperator : List Tree → List Tree
  | .punct c true span :: rest => .punct c true span :: firstOperator rest
  | t :: _ => [t]
  | [] => []

def unaryRule (g : Rules) (braces : Bool) : Reader Expr := do
  let begins ← ahead
  let attrs ← exprAttrs g
  let ts ← ahead
  if !Look.group .invisible ts && Look.op "&" ts then
    let amp ← op "&"
    let raw ← whenLook (.and (.word "raw") (.or (.second (.word "mut")) (.second (.word "const"))))
      (word "raw")
    let mutable ← wordWhen "mut"
    let const ← if raw.isEmpty || !mutable.isEmpty then pure [] else word "const"
    let e ← g.unary braces
    return .other .plain (attrs ++ amp ++ raw ++ mutable ++ const ++ e.tokens)
  else if !Look.group .invisible ts && Look.anyOf [.op "*", .op "!", .op "-"] ts then
    let sign ← if Look.op "*" ts then op "*" else if Look.op "!" ts then op "!" else op "-"
    return .other .plain (attrs ++ sign ++ (← g.unary braces).tokens)
  else
    let e ← trailers g (← atom g braces)
    if e.form = .range && !attrs.isEmpty then
      failAt (Trees.hull (firstOperator e.tokens))
        (.refused "attributes are not allowed on range expressions starting with `..`" false)
    else if e.form = .written then return .other .written (Trees.between begins (← ahead))
    else return e.withAttrs attrs

def exprRule (g : Rules) (braces : Bool) : Reader Expr := do
  let left ← g.unary braces
  g.operators braces .jump left

def goesOn (e : Expr) : Bool := e.shown.form != .blockLike

/-- An expression at the start of a statement or of a match arm: one that ends with a block of its
own ends there, unless a dot or a `?` follows. -/
def leadingExpr (g : Rules) : Reader Expr := do
  let attrs ← exprAttrs g
  let ts ← ahead
  let e ← if Look.group .invisible ts then do
      let atom ← groupExpr g true
      if goesOn atom then trailers g atom else pure atom
    else
      match blockExpr? g ts with
      | some p => do pure (Expr.other .blockLike (← p))
      | none =>
        if Look.lifetime ts then do pure (Expr.other .blockLike (← labelled g)) else g.unary true
  if goesOn e then g.operators true .jump (e.withAttrs attrs)
  else if ← look (.or (.and (.op ".") (.not (.op ".."))) (.op "?")) then
    let e ← trailers g e
    g.operators true .jump (e.withAttrs attrs)
  else return e.withAttrs attrs

def armRule (g : Rules) : Reader (List Tree) := do
  let attrs ← outerAttrTokens g
  let pattern ← patterns g
  let condition ← whenLook (.word "if") (sequence [word "if", g.anyExpr])
  let arrow ← op "=>"
  let e ← leadingExpr g
  let needed := e.form != .blockLike
  let comma ← if needed && !(← look .ended) then op "," else opWhen ","
  return attrs ++ pattern ++ condition ++ arrow ++ e.tokens ++ comma

end Delegation.Reader
