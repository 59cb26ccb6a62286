import Delegation.Method

namespace Delegation

/-- Why nothing could be generated: mistakes in the input, or a field name from which no variant
can be named. -/
inductive Trouble where
  | failures (first : Failure) (more : List Failure)
  | name (fault : NameFault)

def stopAt : List Failure → Except Trouble Unit
  | [] => .ok ()
  | first :: more => .error (.failures first more)

def Trouble.ofFailure (f : Failure) : Trouble := .failures f []

def Ty.isPlainPath (t : Ty) : Bool :=
  match t.inner with
  | .path (.plain _) => true
  | _ => false

namespace Attr

def isHelper (a : Attr) : Bool := a.isNamed directiveName || a.isNamed ignoreName

def ignoreFailure? (a : Attr) : Option Failure :=
  if a.isNamed ignoreName then
    match a.args with
    | .none => none
    | _ => some ⟨.ignoreArguments, Trees.hull a.content⟩
  else none

end Attr

def Body.isTuple : Body → Bool
  | .tuple .. => true
  | _ => false

def Field.failures (tuple : Bool) (f : Field) : List Failure :=
  f.attrs.filterMap Attr.ignoreFailure? ++
    if tuple then
      (f.attrs.filter Attr.isHelper).map fun a => ⟨.optionsOnTuple, Trees.hull a.tokens⟩
    else []

def Directive.failures (d : Directive) : List Failure :=
  match d.of with
  | some of => if of.isPlainPath then [] else [⟨.ownerNotPath, Trees.hull of.tokens⟩]
  | none => []

namespace Declaration

def fieldFailures : Declaration → List Failure
  | .struct s => s.body.fields.flatMap (Field.failures s.body.isTuple)
  | .other _ => []

def directive (d : Declaration) : Except Trouble Directive :=
  (Directive.ofAttrs d.attrs).mapError .ofFailure

def validate (d : Declaration) (directive : Directive) : Except Trouble Unit :=
  stopAt (directive.failures ++ d.fieldFailures)

/-- Read the fields in order. A name that cannot be made stops at once; wrong options are reported
together at the end. -/
def readDelegates : List Field → Except NameFault (List Failure × List Delegate)
  | [] => .ok ([], [])
  | f :: fields =>
    match FieldDecl.ofField f with
    | .error failure => do
      let (failures, delegates) ← readDelegates fields
      return (failure :: failures, delegates)
    | .ok decl => do
      let found ← decl.delegate?
      let (failures, delegates) ← readDelegates fields
      return (failures, found.toList ++ delegates)

def delegates (d : Declaration) : Except Trouble (List Delegate) := do
  let (failures, found) ← (readDelegates d.namedFields).mapError .name
  stopAt failures
  return found

end Declaration

def Struct.implBlock (s : Struct) (methods : List Tree) : List Tree :=
  [Code.sign '#', Code.brackets [Code.word "automatically_derived"], Code.word "impl"] ++
    s.generics.headTokens ++ s.name.tree :: s.generics.nameTokens ++ s.generics.clause ++
    [Code.braces methods]

/-- What is generated for a declaration; nothing without a parent or without a delegate. -/
def derive (d : Declaration) : Except Trouble (List Tree) := do
  let directive ← d.directive
  d.validate directive
  match directive.of, d with
  | some parent, .struct s =>
    let delegates ← d.delegates
    if delegates.isEmpty then return []
    else return s.implBlock (delegates.flatMap (·.method parent directive.runtimePath))
  | _, _ => return []

end Delegation
