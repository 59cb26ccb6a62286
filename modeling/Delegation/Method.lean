import Delegation.Child
import Delegation.Text.Quoted

namespace Delegation.Code

def word (name : String) : Tree := .ident name .made

def sign (c : Char) : Tree := mark c .made

def parens (ts : List Tree) : Tree := .group .paren ts .made

def braces (ts : List Tree) : Tree := .group .brace ts .made

def brackets (ts : List Tree) : Tree := .group .bracket ts .made

def below : List String → List Tree
  | [] => []
  | name :: names => colons .made ++ word name :: below names

/-- A type seen as a trait, `<type as trait>`. -/
def seenAs (type : Ty) (trait : List Tree) : List Tree :=
  sign '<' :: type.tokens ++ word "as" :: trait ++ [sign '>']

def asReducer (runtime : Path) (type : Ty) : List Tree :=
  seenAs type (runtime.tokens ++ below ["Reducer"])

end Delegation.Code

namespace Delegation.Delegate

open Code

def childValue (d : Delegate) : List Tree :=
  sign '&' :: seenAs d.child (below ["core", "default", "Default"]) ++ below ["default"] ++
    [parens []]

def reduceCall (d : Delegate) (parent : Ty) (runtime : Path) (state : List Tree) : List Tree :=
  asReducer runtime d.child ++ below ["reduce"] ++
    [parens (d.childValue ++ sign ',' :: state ++ [sign ',', word "action"]),
      sign '.', word "map",
      parens (asReducer runtime parent ++ below ["Action"] ++ colons .made ++ [d.variant.tree])]

/-- The state of an optional child, or an early return. -/
def presence (d : Delegate) (runtime : Path) : List Tree :=
  word "let" :: below ["core", "option", "Option", "Some"] ++
    [parens [word "state"], sign '=', word "self", sign '.', d.name.tree, sign '.', word "as_mut",
      parens [], word "else",
      braces (word "return" :: runtime.tokens ++ below ["Effect", "none"] ++ [parens [], sign ';']),
      sign ';']

def body (d : Delegate) (parent : Ty) (runtime : Path) : List Tree :=
  if d.optional then d.presence runtime ++ d.reduceCall parent runtime [word "state"]
  else
    d.reduceCall parent runtime [sign '&', word "mut", word "self", sign '.', d.name.tree]

def summary (d : Delegate) : String :=
  "Reduce a child action against `self." ++ d.name.name ++ "`."

def method (d : Delegate) (parent : Ty) (runtime : Path) : List Tree :=
  [sign '#', brackets [word "doc", sign '=', .literal (Text.quoted d.summary) .made]] ++
    d.vis.tokens ++
    [word "fn", d.name.tree,
      parens ([sign '&', word "mut", word "self", sign ',', word "action", sign ':'] ++
        asReducer runtime d.child ++ below ["Action"] ++ [sign ','])] ++
    operator ['-', '>'] .made ++ runtime.tokens ++ below ["EffectOf"] ++
    sign '<' :: parent.tokens ++ [sign '>', braces (d.body parent runtime)]

end Delegation.Delegate
