import Delegation.Token.Basic

namespace Delegation

mutual

structure Path where
  leading : Option Span
  segments : List Segment

/-- A name in a path, alone or with arguments in angle brackets. `turbofish` says that `::` stands
before them. Lifetimes come first among the arguments. -/
inductive Segment where
  | plain (name : Ident)
  | angled (name : Ident) (turbofish : Bool) (opening : Span) (args : List Argument)
      (trailing : Bool) (closing : Span)

inductive Argument where
  | type (type : Ty)
  | other (tokens : List Tree)

inductive QPath where
  | plain (path : Path)
  | qualified (opening : Span) (self : Ty) (via : Option Path) (closing : Span)
      (members : List Segment)

/-- A type. `bound` is a single trait that is no mere path: one with lifetimes
of its own, `for<'a> Trait<'a>`, or one in parentheses that may be missing, `(?Trait)`. -/
inductive Ty where
  | path (path : QPath)
  | reference (amp : Span) (lifetime : List Tree) (mutable : Option Span) (elem : Ty)
  | paren (span : Span) (elem : Ty)
  | group (span : Span) (elem : Ty)
  | bound (parens : Option Span) (tokens : List Tree)
  | other (tokens : List Tree)

end

def Segment.name : Segment → Ident
  | .plain name | .angled name .. => name

def Segment.isPlain : Segment → Bool
  | .plain _ => true
  | .angled .. => false

def colons (span : Span) : List Tree := operator [':', ':'] span

mutual

def Path.tokens : Path → List Tree
  | ⟨none, segments⟩ => Segments.tokens segments
  | ⟨some span, segments⟩ => colons span ++ Segments.tokens segments

def Segments.tokens : List Segment → List Tree
  | [] => []
  | s :: rest => s.tokens ++ Segments.tokensAfter rest

def Segments.tokensAfter : List Segment → List Tree
  | [] => []
  | s :: rest => colons .made ++ s.tokens ++ Segments.tokensAfter rest

def Segment.tokens : Segment → List Tree
  | .plain name => [name.tree]
  | .angled name turbofish opening args trailing closing =>
    name.tree :: (if turbofish then colons .made else []) ++ [mark '<' opening] ++
      Arguments.tokens args ++ (if trailing then [mark ',' .made] else []) ++ [mark '>' closing]

def Arguments.tokens : List Argument → List Tree
  | [] => []
  | a :: rest => a.tokens ++ Arguments.tokensAfter rest

def Arguments.tokensAfter : List Argument → List Tree
  | [] => []
  | a :: rest => mark ',' .made :: a.tokens ++ Arguments.tokensAfter rest

def Argument.tokens : Argument → List Tree
  | .type type => type.tokens
  | .other tokens => tokens

def QPath.tokens : QPath → List Tree
  | .plain path => path.tokens
  | .qualified opening self via closing members =>
    mark '<' opening :: self.tokens ++ Via.tokens via ++ [mark '>' closing] ++
      Segments.tokensAfter members

def Via.tokens : Option Path → List Tree
  | none => []
  | some path => .ident "as" .made :: path.tokens

def Ty.tokens : Ty → List Tree
  | .path path => path.tokens
  | .reference amp lifetime mutable elem =>
    mark '&' amp :: lifetime ++ (mutable.map (Tree.ident "mut")).toList ++ elem.tokens
  | .paren span elem => [.group .paren elem.tokens span]
  | .group span elem => [.group .invisible elem.tokens span]
  | .bound none tokens => tokens
  | .bound (some span) tokens => [.group .paren tokens span]
  | .other tokens => tokens

end

def Path.isPlain (p : Path) : Bool := p.segments.all Segment.isPlain

def Path.isName (p : Path) (name : String) : Bool :=
  match p with
  | ⟨none, [.plain n]⟩ => n.name == name
  | _ => false

def Path.ofIdent (name : Ident) : Path := ⟨none, [.plain name]⟩

def Ty.ofIdent (name : Ident) : Ty := .path (.plain (.ofIdent name))

def Ty.inner : Ty → Ty
  | .paren _ elem | .group _ elem => elem.inner
  | t => t

inductive Form where
  | plain
  /-- Kept as it was written, so that no attribute can be added. -/
  | written
  | range
  | comparison
  /-- Ends with a block of its own, so that no semicolon need follow. -/
  | blockLike
  | braced
deriving DecidableEq, Repr

inductive Expr where
  | path (attrs : List Tree) (path : QPath)
  | call (attrs : List Tree) (callee : Expr) (args : List Tree) (span : Span)
  | paren (attrs : List Tree) (span : Span) (inner : Expr)
  | group (attrs : List Tree) (span : Span) (inner : Expr)
  | other (form : Form) (tokens : List Tree)

namespace Expr

def tokens : Expr → List Tree
  | .path attrs p => attrs ++ p.tokens
  | .call attrs callee args span => attrs ++ callee.tokens ++ [.group .paren args span]
  | .paren attrs span inner => attrs ++ [.group .paren inner.tokens span]
  | .group attrs span inner => attrs ++ [.group .invisible inner.tokens span]
  | .other _ tokens => tokens

/-- The expression with attributes in front. They describe all of a range only if parentheses stand
around it. -/
def withAttrs (front : List Tree) : Expr → Expr
  | .path attrs p => .path (front ++ attrs) p
  | .call attrs callee args span => .call (front ++ attrs) callee args span
  | .paren attrs span inner => .paren (front ++ attrs) span inner
  | .group attrs span inner => .group (front ++ attrs) span inner
  | .other .written tokens => .other .written tokens
  | .other .range tokens =>
    if front.isEmpty then .other .range tokens
    else .other .range (front ++ [.group .paren tokens .made])
  | .other form tokens => .other form (front ++ tokens)

def form : Expr → Form
  | .other form _ => form
  | _ => .plain

def inner : Expr → Expr
  | .paren _ _ e | .group _ _ e => e.inner
  | e => e

def shown : Expr → Expr
  | .group _ _ e => e.shown
  | e => e

end Expr

inductive AttrArgs where
  | none
  | list (delim : Delim) (tokens : List Tree) (span : Span)
  | value (eq : Span) (tokens : List Tree)

/-- `#[path args]`, or `#![path args]` if `inner` is the place of a `!`. -/
structure Attr where
  pound : Span
  inner : Option Span
  path : Path
  args : AttrArgs
  span : Span

namespace Attr

def argTokens : AttrArgs → List Tree
  | .none => []
  | .list delim tokens span => [.group delim tokens span]
  | .value eq tokens => mark '=' eq :: tokens

def content (a : Attr) : List Tree := a.path.tokens ++ argTokens a.args

def tokens (a : Attr) : List Tree :=
  mark '#' a.pound :: (a.inner.map (mark '!')).toList ++ [.group .bracket a.content a.span]

def isNamed (a : Attr) (name : String) : Bool := a.path.isName name

def fullName (a : Attr) : String := "::".intercalate (a.path.segments.map fun s => s.name.name)

end Attr

/-- Who may see something: only its module, everyone, or the subtree of a module. `within` is the
place of an `in` before the path. -/
inductive Visibility where
  | inherited
  | everywhere (span : Span)
  | restricted (span : Span) (parens : Span) (within : Option Span) (path : Path)

namespace Visibility

def tokens : Visibility → List Tree
  | .inherited => []
  | .everywhere span => [.ident "pub" span]
  | .restricted span parens within path =>
    [.ident "pub" span, .group .paren ((within.map (Tree.ident "in")).toList ++ path.tokens) parens]

def isInherited : Visibility → Bool
  | .inherited => true
  | _ => false

end Visibility

/-- A generic parameter: `head` is what stands in the header of an implementation, `name` what names
it as an argument, and `default` is left out of both. -/
structure GenericParam where
  isLifetime : Bool
  head : List Tree
  name : List Tree
  default : List Tree

/-- Generic parameters, lifetimes first, and the tokens of a `where` clause. -/
structure Generics where
  opening : Span
  params : List GenericParam
  trailing : Bool
  closing : Span
  clause : List Tree

namespace Generics

def empty : Generics := ⟨.made, [], false, .made, []⟩

def commas (trailing : Bool) : List (List Tree) → List Tree
  | [] => []
  | [ts] => ts ++ (if trailing then [mark ',' .made] else [])
  | ts :: rest => ts ++ mark ',' .made :: commas trailing rest

/-- The parameters in angle brackets, each written by `part`; nothing if there are none. -/
def angled (g : Generics) (part : GenericParam → List Tree) : List Tree :=
  if g.params.isEmpty then []
  else mark '<' g.opening :: commas g.trailing (g.params.map part) ++ [mark '>' g.closing]

def tokens (g : Generics) : List Tree := g.angled fun p => p.head ++ p.default

def headTokens (g : Generics) : List Tree := g.angled GenericParam.head

def nameTokens (g : Generics) : List Tree := g.angled GenericParam.name

end Generics

structure Field where
  attrs : List Attr
  vis : Visibility
  name : Option (Ident × Span)
  type : Ty

def attrTokens (attrs : List Attr) : List Tree := attrs.flatMap Attr.tokens

namespace Field

def nameTokens (f : Field) : List Tree :=
  match f.name with
  | none => []
  | some (name, colon) => [name.tree, mark ':' colon]

def tokens (f : Field) : List Tree :=
  attrTokens f.attrs ++ f.vis.tokens ++ f.nameTokens ++ f.type.tokens

end Field

inductive Body where
  | named (span : Span) (fields : List Field) (trailing : Bool)
  | tuple (span : Span) (fields : List Field) (trailing : Bool) (semi : Span)
  | unit (semi : Span)

def Body.fields : Body → List Field
  | .named _ fields _ | .tuple _ fields _ _ => fields
  | .unit _ => []

structure Struct where
  attrs : List Attr
  vis : Visibility
  keyword : Span
  name : Ident
  generics : Generics
  body : Body

namespace Struct

/-- The body with the `where` clause, which stands after the fields of a tuple struct and before any
other body. -/
def bodyTokens (s : Struct) : List Tree :=
  match s.body with
  | .named span fields trailing =>
    s.generics.clause ++ [.group .brace (Generics.commas trailing (fields.map Field.tokens)) span]
  | .tuple span fields trailing semi =>
    .group .paren (Generics.commas trailing (fields.map Field.tokens)) span ::
      s.generics.clause ++ [mark ';' semi]
  | .unit semi => s.generics.clause ++ [mark ';' semi]

def tokens (s : Struct) : List Tree :=
  attrTokens s.attrs ++ s.vis.tokens ++ [.ident "struct" s.keyword, s.name.tree] ++
    s.generics.tokens ++ s.bodyTokens

end Struct

/-- An implementation block: what stands before the trait, a `!` before the trait, the trait, the
type, and what follows. -/
structure Impl where
  head : List Tree
  negative : Option Span
  trait : Option Path
  self : Ty
  tail : List Tree

namespace Impl

def traitTokens (i : Impl) : List Tree :=
  match i.trait with
  | none => []
  | some path => (i.negative.map (mark '!')).toList ++ path.tokens ++ [.ident "for" .made]

def tokens (i : Impl) : List Tree := i.head ++ i.traitTokens ++ i.self.tokens ++ i.tail

end Impl

structure ModuleHead where
  outer : List Attr
  vis : Visibility
  safety : List Tree
  keyword : Span
  name : Ident
  inner : List Attr
  span : Span

inductive Item where
  | struct (s : Struct)
  | impl (i : Impl)
  | module (head : ModuleHead) (items : List Item)
  /-- A module whose items are in another file. -/
  | fileModule (tokens : List Tree)
  | other (tokens : List Tree)

mutual

def Item.tokens : Item → List Tree
  | .struct s => s.tokens
  | .impl i => i.tokens
  | .module h items =>
    attrTokens h.outer ++ h.vis.tokens ++ h.safety ++ [.ident "mod" h.keyword, h.name.tree] ++
      [.group .brace (attrTokens h.inner ++ Items.tokens items) h.span]
  | .fileModule tokens => tokens
  | .other tokens => tokens

def Items.tokens : List Item → List Tree
  | [] => []
  | i :: rest => i.tokens ++ Items.tokens rest

end

inductive Declaration where
  | struct (s : Struct)
  | other (attrs : List Attr)

def Declaration.attrs : Declaration → List Attr
  | .struct s => s.attrs
  | .other attrs => attrs

end Delegation
