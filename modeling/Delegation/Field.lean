import Delegation.Options
import Delegation.Modifier

namespace Delegation

inductive Binding where
  | mutable
  | immutable
deriving DecidableEq, Repr

def Ty.binding : Ty → Binding
  | .reference _ _ none _ => .immutable
  | _ => .mutable

structure FieldDecl where
  name : Ident
  type : Ty
  init : Option Expr
  decorations : List String
  modifiers : List Modifier
  action : Option Ident

namespace FieldDecl

def binding (f : FieldDecl) : Binding := f.type.binding

def isIgnored (f : FieldDecl) : Bool := f.decorations.contains ignoreName

/-- The visibilities of a field as they are written: attributes stand before a visibility. -/
def modifiersOf (set : Option Visibility) (vis : Visibility) : List Modifier :=
  (set.map Modifier.setter).toList ++ if vis.isInherited then [] else [.plain vis]

def ofField (f : Field) : Except Failure FieldDecl :=
  match f.name with
  | none => .error ⟨.unnamedField, Trees.hull f.tokens⟩
  | some (name, _) => do
    let options ← FieldOptions.ofAttrs f.attrs
    return ⟨name, f.type, options.init, f.attrs.map Attr.fullName,
      modifiersOf options.set f.vis, options.action⟩

end FieldDecl

def Declaration.namedFields : Declaration → List Field
  | .struct s =>
    match s.body with
    | .named _ fields _ => fields
    | _ => []
  | .other _ => []

end Delegation
