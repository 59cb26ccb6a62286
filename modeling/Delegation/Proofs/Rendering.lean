import Delegation.Proofs.Stages

namespace Delegation

def Trees.member (names : List String) : List Tree :=
  names.flatMap fun name =>
    [.punct ':' true .made, .punct ':' false .made, .ident name .made]

def Path.reducerMember (library : Path) (type : Ty) (member : String) : List Tree :=
  .punct '<' false .made :: type.tokens ++ .ident "as" .made :: library.tokens ++
    Trees.member ["Reducer"] ++ .punct '>' false .made :: Trees.member [member]

namespace Delegate

variable (d : Delegate) (parent : Ty) (library : Path)

def Documents (ts : List Tree) : Prop :=
  ts = [.punct '#' false .made, .group .bracket [.ident "doc" .made, .punct '=' false .made,
    .literal (Text.quoted ("Reduce a child action against `self." ++ d.name.name ++ "`.")) .made]
    .made]

/-- The doc comment, the visibility, `fn name`,
`(&mut self, action: <child as library::Reducer>::Action,)` and `-> library::EffectOf<parent>`. -/
def Signature (ts : List Tree) : Prop :=
  ∃ doc, d.Documents doc ∧
    ts = doc ++ d.vis.tokens ++ [.ident "fn" .made, .ident d.name.name d.name.span,
      .group .paren ([.punct '&' false .made, .ident "mut" .made, .ident "self" .made,
        .punct ',' false .made, .ident "action" .made, .punct ':' false .made] ++
        library.reducerMember d.child "Action" ++ [.punct ',' false .made]) .made,
      .punct '-' true .made, .punct '>' false .made] ++
    library.tokens ++ Trees.member ["EffectOf"] ++
    .punct '<' false .made :: parent.tokens ++ [.punct '>' false .made]

/-- `<child as library::Reducer>::reduce(&<child as ::core::default::Default>::default(), state,
action).map(<parent as library::Reducer>::Action::variant)`. -/
def Reduces (state ts : List Tree) : Prop :=
  ts = library.reducerMember d.child "reduce" ++
    [.group .paren (.punct '&' false .made :: .punct '<' false .made :: d.child.tokens ++
        .ident "as" .made :: Trees.member ["core", "default", "Default"] ++
        .punct '>' false .made :: Trees.member ["default"] ++ [.group .paren [] .made] ++
        .punct ',' false .made :: state ++ [.punct ',' false .made, .ident "action" .made]) .made,
      .punct '.' false .made, .ident "map" .made,
      .group .paren (library.reducerMember parent "Action" ++
        [.punct ':' true .made, .punct ':' false .made,
          .ident d.variant.name d.variant.span]) .made]

/-- `let ::core::option::Option::Some(state) = self.name.as_mut() else
{ return library::Effect::none(); };`. -/
def Unwraps (ts : List Tree) : Prop :=
  ts = .ident "let" .made :: Trees.member ["core", "option", "Option", "Some"] ++
    [.group .paren [.ident "state" .made] .made, .punct '=' false .made,
      .ident "self" .made, .punct '.' false .made, .ident d.name.name d.name.span,
      .punct '.' false .made, .ident "as_mut" .made, .group .paren [] .made, .ident "else" .made,
      .group .brace (.ident "return" .made :: library.tokens ++ Trees.member ["Effect", "none"] ++
        [.group .paren [] .made, .punct ';' false .made]) .made,
      .punct ';' false .made]

/-- The method of a delegate. A child that is there is reduced in its field; one that is optional is
taken out of its `Option` first. -/
inductive Renders : List Tree → Prop where
  | present {signature call : List Tree} (hoptional : d.optional = false)
    (hsignature : d.Signature parent library signature)
    (hcall : d.Reduces parent library [.punct '&' false .made, .ident "mut" .made,
      .ident "self" .made, .punct '.' false .made, .ident d.name.name d.name.span] call) :
    Renders (signature ++ [.group .brace call .made])
  | optional {signature unwrap call : List Tree} (hoptional : d.optional = true)
    (hsignature : d.Signature parent library signature) (hunwrap : d.Unwraps library unwrap)
    (hcall : d.Reduces parent library [.ident "state" .made] call) :
    Renders (signature ++ [.group .brace (unwrap ++ call) .made])

open Code

theorem documents : d.Documents
    [sign '#', brackets [word "doc", sign '=', .literal (Text.quoted d.summary) .made]] := rfl

theorem reduceCall_reduces (state : List Tree) :
    d.Reduces parent library state (d.reduceCall parent library state) := by
  simp [Reduces, reduceCall, childValue, asReducer, seenAs, Path.reducerMember, Trees.member,
    below, colons, operator, word, sign, mark, parens, Ident.tree]

theorem presence_unwraps : d.Unwraps library (d.presence library) := by
  simp [Unwraps, presence, Trees.member, below, colons, operator, word, sign, mark, parens, braces,
    Ident.tree]

theorem method_signature : ∃ signature, d.Signature parent library signature ∧
    d.method parent library = signature ++ [braces (d.body parent library)] := by
  refine ⟨_, ⟨_, d.documents, rfl⟩, ?_⟩
  simp [method, asReducer, seenAs, Path.reducerMember, Trees.member, below, colons, operator, word,
    sign, mark, parens, Ident.tree]

theorem method_renders : d.Renders parent library (d.method parent library) := by
  obtain ⟨signature, hsignature, hmethod⟩ := d.method_signature parent library
  rw [hmethod, body]
  split
  next h =>
    exact .optional h hsignature (d.presence_unwraps library) (d.reduceCall_reduces ..)
  next h => exact .present (by simpa using h) hsignature (d.reduceCall_reduces ..)

end Delegate

def Struct.Block (s : Struct) (methods : List (List Tree)) (out : List Tree) : Prop :=
  out = [.punct '#' false .made, .group .bracket [.ident "automatically_derived" .made] .made,
      .ident "impl" .made] ++
    s.generics.headTokens ++ .ident s.name.name s.name.span :: s.generics.nameTokens ++
    s.generics.clause ++ [.group .brace methods.flatten .made]

theorem Struct.implBlock_block (s : Struct) (methods : List (List Tree)) :
    s.Block methods (s.implBlock methods.flatten) := rfl

end Delegation
