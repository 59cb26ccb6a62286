import Delegation.Field
import Delegation.VariantName

namespace Delegation

def isReducerName (name : String) : Bool := "Reducer".toList.isSuffixOf name.toList

namespace Segment

def isState : Segment → Bool
  | .plain name => name.name == "State"
  | .angled .. => false

def isAlias (s : Segment) : Bool := s.name.name == "StateOf"

def soleType? : Segment → Option Ty
  | .angled _ _ _ [.type t] _ _ => some t
  | _ => none

end Segment

def QPath.last? : QPath → Option Segment
  | .plain path => path.segments.getLast?
  | .qualified _ _ _ _ members => members.getLast?

def Ty.isReducer (t : Ty) : Bool :=
  match t.inner with
  | .path p => p.last?.any fun s => isReducerName s.name.name
  | _ => false

def ownerType (leading : Option Span) (segments : List Segment) : Ty :=
  .path (.plain ⟨leading.map fun _ => .made, segments⟩)

/-- The type `t` of `StateOf<t>` or `t::State`, which is `segment` after the segments `before`. -/
def ownerAt? (leading : Option Span) (before : List Segment) (segment : Segment) : Option Ty :=
  if segment.isAlias then segment.soleType?
  else if segment.isState && !before.isEmpty then some (ownerType leading before)
  else none

def QPath.stateOwner? : QPath → Option Ty
  | .plain path => path.segments.getLast?.bind (ownerAt? path.leading path.segments.dropLast)
  | .qualified _ self _ _ members =>
    match members with
    | [m] => if m.isState then some self else none
    | _ => none

/-- The type whose state a path constructs: a state, or one more segment after a state. -/
def QPath.constructedOwner? : QPath → Option Ty
  | .plain path =>
    let marks (s : Segment) : Bool := s.isState || s.isAlias
    match path.segments.reverse with
    | [] => none
    | last :: before =>
      if marks last then ownerAt? path.leading before.reverse last
      else
        match before with
        | [] => none
        | state :: before =>
          if marks state then ownerAt? path.leading before.reverse state else none
  | .qualified _ self _ _ members =>
    match members with
    | [m] | [m, _] => if m.isState then some self else none
    | _ => none

def Ty.stateOwner? (t : Ty) : Option Ty :=
  match t.inner with
  | .path p => p.stateOwner?.filter Ty.isReducer
  | _ => none

def Ty.optional? (t : Ty) : Option Ty :=
  match t.inner with
  | .path (.plain p) =>
    p.segments.getLast?.bind fun s => if s.name.name = "Option" then s.soleType? else none
  | _ => none

def Expr.stateOwner? (e : Expr) : Option Ty :=
  match e.inner with
  | .call _ callee _ _ =>
    match callee.inner with
    | .path _ p => p.constructedOwner?.filter Ty.isReducer
    | _ => none
  | _ => none

/-- A reducer whose state a field holds, if `optional` in an `Option`. -/
structure Child where
  owner : Ty
  optional : Bool

namespace FieldDecl

def child? (f : FieldDecl) : Option Child :=
  match f.type.stateOwner? with
  | some owner => some ⟨owner, false⟩
  | none =>
    match f.type.optional?.bind Ty.stateOwner? with
    | some owner => some ⟨owner, true⟩
    | none => (f.init.bind Expr.stateOwner?).map (⟨·, false⟩)

end FieldDecl

structure Delegate where
  name : Ident
  child : Ty
  optional : Bool
  vis : Visibility
  variant : Ident

namespace FieldDecl

/-- The child that actions are delegated to: none for a field that is ignored or immutable. -/
def eligible? (f : FieldDecl) : Option Child :=
  if f.isIgnored || f.binding == .immutable then none else f.child?

def variant (f : FieldDecl) : Except NameFault Ident :=
  match f.action with
  | some action => .ok action
  | none => do return ⟨← variantName f.name.name, f.name.span⟩

def delegate? (f : FieldDecl) : Except NameFault (Option Delegate) :=
  match f.eligible? with
  | none => .ok none
  | some child => do
    let variant ← f.variant
    return some ⟨f.name, child.owner, child.optional, resolveVisibility f.modifiers, variant⟩

end FieldDecl

end Delegation
