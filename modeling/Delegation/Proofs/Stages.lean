import Delegation.Derive
import Delegation.Proofs.Fallible

namespace Delegation

open Fallible

namespace Struct

/-- What is written for a struct whose parent and delegates are known. -/
def rendering (s : Struct) (parent : Ty) (runtime : Path) (found : List Delegate) : List Tree :=
  if found.isEmpty then [] else s.implBlock (found.flatMap (·.method parent runtime))

end Struct

theorem stopAt_eq_ok_iff {failures : List Failure} : stopAt failures = .ok () ↔ failures = [] := by
  cases failures <;> simp [stopAt]

namespace Declaration

variable {d : Declaration} {directive : Directive}

theorem derive_of_unread {e : Failure} (h : Directive.ofAttrs d.attrs = .error e) :
    derive d = .error (.ofFailure e) := by
  rw [derive, Declaration.directive, h, mapError_error, error_bind]

theorem derive_of_read (hd : Directive.ofAttrs d.attrs = .ok directive) :
    derive d = d.validate directive >>= fun _ =>
      match directive.of, d with
      | some parent, .struct s => do
        return s.rendering parent directive.runtimePath (← d.delegates)
      | _, _ => .ok [] := by
  rw [derive, Declaration.directive, hd, mapError_ok, ok_bind]
  congr 1
  funext _
  cases directive.of with
  | none => rfl
  | some parent =>
    cases d with
    | other => rfl
    | struct s =>
      refine congrArg (delegates (.struct s) >>= ·) (funext fun found => ?_)
      rw [Struct.rendering]
      split <;> rfl

theorem derive_of_invalid {trouble : Trouble} (hd : Directive.ofAttrs d.attrs = .ok directive)
    (h : d.validate directive = .error trouble) : derive d = .error trouble := by
  rw [derive_of_read hd, h, error_bind]

theorem derive_of_valid : Directive.ofAttrs d.attrs = .ok directive →
    d.validate directive = .ok () →
    derive d = match directive.of, d with
      | some parent, .struct s => do
        return s.rendering parent directive.runtimePath (← d.delegates)
      | _, _ => .ok [] := by
  intro hd h
  rw [derive_of_read hd, h, ok_bind]

end Declaration

theorem Struct.derive_eq (s : Struct) {d : Directive} (hd : Directive.ofAttrs s.attrs = .ok d) :
    derive (.struct s) = stopAt (d.failures ++ (Declaration.struct s).fieldFailures) >>= fun _ =>
      match d.of with
      | some parent => do
        return s.rendering parent d.runtimePath (← (Declaration.struct s).delegates)
      | none => .ok [] := by
  rw [Declaration.derive_of_read (d := .struct s) hd, Declaration.validate]
  cases d.of <;> rfl

end Delegation
