import Delegation.Syntax.Grammar

namespace Delegation

def directiveName : String := "parent_reducer_state"

def ignoreName : String := "parent_reducer_state_ignored"

/-- The reducer whose actions wrap those of the children, and the path of the runtime library. -/
structure Directive where
  of : Option Ty
  runtime : Option Path

def Directive.empty : Directive := ⟨none, none⟩

def defaultRuntime : Path := ⟨some .made, [.plain ⟨"parent_reducer", .made⟩]⟩

def Directive.runtimePath (d : Directive) : Path := d.runtime.getD defaultRuntime

/-- What a field starts from, who may write it, and the action that wraps those of its child. -/
structure FieldOptions where
  init : Option Expr
  set : Option Visibility
  action : Option Ident

def FieldOptions.empty : FieldOptions := ⟨none, none, none⟩

namespace Reader

variable {α σ : Type}

def optionKey : Reader Path := do
  let leading ← leadingColons
  if ← look .anyWord then
    let first ← anyWord
    let more ← manyWhile (.op "::") do
      let _ ← op "::"
      return Segment.plain (← anyWord)
    return ⟨leading, .plain first :: more⟩
  else if ← look .ended then refuse "expected nested attribute"
  else
    let isLiteral ← look .literal
    failHere fun _ => .entry isLiteral

/-- Fail at the option that starts with `key` and began where `begins` was ahead: from its first
name to the last token taken. -/
def refuseOption (begins : List Tree) (key : Path) (cause : Cause) : Reader α := do
  let taken := Trees.between begins (← ahead)
  let first := (key.segments.head?.map fun s => s.name.span).getD .made
  let last := (taken.getLast?.map Tree.back).getD first
  failAt (first.hull last) cause

/-- The value of an option, which must be the first for its key. -/
def once (begins : List Tree) (key : Path) (name : String) (slot : Option α) (value : Reader α) :
    Reader (Option α) := do
  let _ ← op "="
  let v ← value
  if slot.isSome then refuseOption begins key (.duplicateOption name) else return some v

def options (entry : σ → Reader σ) (start : σ) : Reader σ := do
  if ← look .ended then return start
  loop (fun state => do
    let state ← entry state
    if ← look .ended then return .done state
    let _ ← op ","
    if ← look .ended then return .done state
    return .again state) start

def directiveOption (place : OptionPlace) (g : Rules) (d : Directive) : Reader Directive := do
  let begins ← ahead
  let key ← optionKey
  if key.isName "of" then
    return { d with of := ← once begins key "of" d.of (g.type true true) }
  else if key.isName "crate" then
    return { d with runtime := ← once begins key "crate" d.runtime (path g false) }
  else refuseOption begins key (.unsupportedOption place)

def fieldOption (g : Rules) (o : FieldOptions) : Reader FieldOptions := do
  let begins ← ahead
  let key ← optionKey
  if key.isName "init" then
    return { o with init := ← once begins key "init" o.init (g.expr true) }
  else if key.isName "set" then
    return { o with set := ← once begins key "set" o.set visibility }
  else if key.isName "action" then
    return { o with action := ← once begins key "action" o.action name }
  else refuseOption begins key (.unsupportedOption .field)

end Reader

def Path.namesSpan (p : Path) : Span :=
  match p.segments.head?, p.segments.getLast? with
  | some first, some last => first.name.span.hull last.name.span
  | _, _ => .made

def Attr.readOptions {σ : Type} (entry : Rules → σ → Reader σ) (start : σ) (a : Attr) :
    Except Failure σ :=
  match a.args with
  | .none => .error ⟨.noArguments a.fullName, a.path.namesSpan⟩
  | .value eq _ => .error ⟨.valueArguments a.fullName, eq⟩
  | .list _ tokens span => readWithin (fun g => Reader.options (entry g) start) tokens span.closing

def directives (attrs : List Attr) : List Attr := attrs.filter (·.isNamed directiveName)

def Directive.ofAttrs (attrs : List Attr) : Except Failure Directive :=
  (directives attrs).foldlM (Attr.readOptions (Reader.directiveOption .struct)) .empty

def Directive.ofArgs (args : List Tree) : Except Failure Directive :=
  readAll (fun g => Reader.options (Reader.directiveOption .container g) .empty) args

def FieldOptions.ofAttrs (attrs : List Attr) : Except Failure FieldOptions :=
  (directives attrs).foldlM (Attr.readOptions Reader.fieldOption) .empty

end Delegation
