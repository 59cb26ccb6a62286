import Delegation.Syntax.Basic

namespace Delegation

inductive Modifier where
  | plain (vis : Visibility)
  | setter (vis : Visibility)

namespace Modifier

def setter? : Modifier → Option Visibility
  | .setter vis => some vis
  | .plain _ => none

def plain? : Modifier → Option Visibility
  | .plain vis => some vis
  | .setter _ => none

end Modifier

def Visibility.normal : Visibility → Visibility
  | .restricted span parens none path =>
    if path.isName "self" then .inherited else .restricted span parens none path
  | vis => vis

/-- The first restriction on writing decides; without one, the first visibility; without that, the
method is private. -/
def resolveVisibility (modifiers : List Modifier) : Visibility :=
  match modifiers.findSome? Modifier.setter? with
  | some vis => vis.normal
  | none =>
    match modifiers.findSome? Modifier.plain? with
    | some vis => vis.normal
    | none => .inherited

end Delegation
