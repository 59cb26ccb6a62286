import Delegation.Derive

namespace Delegation

def deriveName : String := "ParentReducerState"

namespace Attr

def made (name : String) (args : List Tree) : Attr :=
  ⟨.made, none, .ofIdent ⟨name, .made⟩, .list .paren args .made, .made⟩

def derives (a : Attr) : List Path :=
  match a.args with
  | .list _ tokens span =>
    match readWithin (fun g => Reader.separated .ended "," (Reader.path g false)) tokens
        span.closing with
    | .ok (paths, _) => paths
    | .error _ => []
  | _ => []

def deriveFrom (runtime : Path) : Attr :=
  made "derive" (runtime.tokens ++ Code.below [deriveName])

def directive (reducer : Ty) (runtime : Option Path) : Attr :=
  made directiveName
    ([Code.word "of", Code.sign '='] ++ reducer.tokens ++
      match runtime with
      | some path => [Code.sign ',', Code.word "crate", Code.sign '='] ++ path.tokens
      | none => [])

end Attr

namespace Struct

def hasDerive (s : Struct) : Bool :=
  (s.attrs.filter (·.isNamed "derive")).any fun a =>
    a.derives.any fun p => p.segments.getLast?.any fun seg => seg.name.name == deriveName

end Struct

/-- Put an attribute before the first directive, or last if there is none: what a derive defines may
not be used before it. -/
def insertDerive (derive : Attr) (attrs : List Attr) : List Attr :=
  attrs.takeWhile (!·.isNamed directiveName) ++ derive ::
    attrs.dropWhile (!·.isNamed directiveName)

def Struct.withDerive (runtime : Path) (s : Struct) : List Attr :=
  if s.hasDerive then s.attrs else insertDerive (.deriveFrom runtime) s.attrs

/-- The directive to add to a struct that has none naming a reducer. A directive that cannot be read
is left for the derive to report. -/
def Struct.addedDirective (args : Directive) (reducer : Ty) (s : Struct) : List Attr :=
  match Directive.ofAttrs s.attrs with
  | .error _ => []
  | .ok existing =>
    if existing.of.isSome then []
    else [.directive reducer (if existing.runtime.isSome then none else args.runtime)]

def Struct.decorate (args : Directive) (reducer : Ty) (s : Struct) : Struct :=
  { s with attrs := s.withDerive args.runtimePath ++ s.addedDirective args reducer }

def Ty.names (t : Ty) (name : String) : Bool :=
  match t with
  | .path (.plain ⟨none, [s]⟩) => s.name.name == name
  | _ => false

def Item.implementsFor (name : String) : Item → Bool
  | .impl i =>
    i.trait.any (fun p => p.segments.getLast?.any fun s => s.name.name == "Reducer") &&
      match i.self with
      | .path (.plain p) => p.isName name
      | _ => false
  | _ => false

def Item.struct? : Item → Option Struct
  | .struct s => some s
  | _ => none

def candidates (items : List Item) : List Struct :=
  (items.filterMap Item.struct?).filter fun s => isReducerName s.name.name

/-- The reducer of a module: the first candidate that the module implements `Reducer` for, or the
first candidate. -/
def chosen? (items : List Item) : Option Struct :=
  let found := candidates items
  match found.find? fun s => items.any (Item.implementsFor s.name.name) with
  | some s => some s
  | none => found.head?

/-- The reducer found by name. One with parameters must be given, since they could not be named. -/
def findReducer (items : List Item) : Except Failure (Option Ty) :=
  match chosen? items with
  | none => .ok none
  | some s =>
    if s.generics.params.isEmpty then .ok (some (.ofIdent s.name))
    else .error ⟨.genericReducer, Trees.hull s.generics.tokens⟩

def reducerOf (args : Directive) (items : List Item) : Except Failure (Option Ty) :=
  match args.of with
  | some reducer => .ok (some reducer)
  | none => findReducer items

def Item.decorate (args : Directive) (reducer : Ty) : Item → Item
  | .struct s => .struct (if reducer.names s.name.name then s else s.decorate args reducer)
  | item => item

def attach (args : Directive) (items : List Item) : Except Failure (List Item) := do
  match ← reducerOf args items with
  | none => return items
  | some reducer => return items.map (Item.decorate args reducer)

def Item.attach (args : Directive) : Item → Except Failure Item
  | .module head items => do return .module head (← Delegation.attach args items)
  | .fileModule tokens => .ok (.fileModule tokens)
  | item => .error ⟨.notInlineModule, Trees.hull item.tokens⟩

def expandModule (args item : List Tree) : Except Failure (List Tree) := do
  let args ← Directive.ofArgs args
  let item ← Item.ofTokens item
  return (← item.attach args).tokens

def Item.structs? : Item → Option (List Struct)
  | .module _ items => some (items.filterMap Item.struct?)
  | .fileModule _ => some []
  | _ => none

end Delegation
