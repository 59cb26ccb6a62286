import Delegation.Failure

namespace Delegation

mutual

/-- The tokens of an invisible group with the first visible one in front, or the tree itself. -/
def Tree.shown : Tree → List Tree
  | .group .invisible inner _ => Trees.shown inner
  | t => [t]

def Trees.shown : List Tree → List Tree
  | [] => []
  | t :: ts =>
    match t.shown with
    | [] => Trees.shown ts
    | first :: more => first :: more ++ ts

end

mutual

/-- The visible tokens of the outermost level; an invisible group that is empty counts as one. -/
def Tree.flat : Tree → Nat
  | .group .invisible [] _ => 1
  | .group .invisible inner _ => Trees.flat inner
  | _ => 1

def Trees.flat : List Tree → Nat
  | [] => 0
  | t :: ts => t.flat + Trees.flat ts

end

mutual

def Tree.taken (n : Nat) : Tree → List Tree
  | .group .invisible inner span =>
    if Trees.flat inner ≤ n then [.group .invisible inner span] else Trees.taken n inner
  | t => [t]

/-- The first trees, up to the `n`-th visible token. An invisible group that is taken in part is
taken token by token. -/
def Trees.taken (n : Nat) : List Tree → List Tree
  | [] => []
  | t :: ts => if n = 0 then [] else t.taken n ++ Trees.taken (n - t.flat) ts

end

def Trees.between (earlier later : List Tree) : List Tree :=
  Trees.taken (Trees.flat earlier - Trees.flat later) earlier

mutual

def Tree.endsInBrace : Tree → Bool
  | .group .brace _ _ => true
  | .group .invisible inner _ => Trees.endInBrace inner
  | _ => false

def Trees.endInBrace : List Tree → Bool
  | [] => false
  | [t] => t.endsInBrace
  | _ :: ts => Trees.endInBrace ts

end

mutual

/-- What is wrong with a tree left over in a group with the given delimiters; nothing with an
invisible group of nothing. -/
def Tree.leftIn (delim : Delim) : Tree → Option Failure
  | .group .invisible inner _ => Trees.leftIn .invisible inner
  | t => some ⟨.leftover delim, t.span⟩

def Trees.leftIn (delim : Delim) : List Tree → Option Failure
  | [] => none
  | t :: ts => (t.leftIn delim).or (Trees.leftIn delim ts)

end

/-- The tokens ahead, the place where their group closes, and the first token that an inner group
left unread, which is reported if nothing else is wrong. -/
structure Stream where
  rest : List Tree
  close : Span
  leftover : Option Failure

namespace Stream

def here (s : Stream) : Span :=
  match s.rest with
  | [] => s.close
  | t :: _ => t.front

end Stream

def Look : Type := List Tree → Bool

def keywords : List String :=
  ["_", "abstract", "as", "async", "await", "become", "box", "break", "const", "continue", "crate",
    "do", "dyn", "else", "enum", "extern", "false", "final", "fn", "for", "if", "impl", "in", "let",
    "loop", "macro", "match", "mod", "move", "mut", "override", "priv", "pub", "ref", "return",
    "Self", "self", "static", "struct", "super", "trait", "true", "try", "type", "typeof", "unsafe",
    "unsized", "use", "virtual", "where", "while", "yield"]

def isKeyword (name : String) : Bool := keywords.contains name

def word? (ts : List Tree) : Option (Ident × List Tree) :=
  match Trees.shown ts with
  | .ident name span :: rest => some (⟨name, span⟩, rest)
  | _ => none

def punct? (ts : List Tree) : Option (Char × Bool × Span × List Tree) :=
  match Trees.shown ts with
  | .punct c joint span :: rest => if c = '\'' then none else some (c, joint, span, rest)
  | _ => none

def literal? (ts : List Tree) : Option (String × Span × List Tree) :=
  match Trees.shown ts with
  | .literal text span :: rest => some (text, span, rest)
  | _ => none

def lifetime? (ts : List Tree) : Option (Span × Ident × List Tree) :=
  match Trees.shown ts with
  | .punct '\'' true tick :: .ident name span :: rest => some (tick, ⟨name, span⟩, rest)
  | _ => none

def group? (delim : Delim) (ts : List Tree) : Option (List Tree × Span × List Tree) :=
  match (if delim = .invisible then ts else Trees.shown ts) with
  | .group d inner span :: rest => if d = delim then some (inner, span, rest) else none
  | _ => none

/-- An operator, written as its characters, and what follows; all but the last must be joint. -/
def operator? : List Char → List Tree → Option (List Tree × List Tree)
  | [], _ => none
  | [c], ts =>
    match punct? ts with
    | some (d, _, span, rest) => if d = c then some ([mark c span], rest) else none
    | none => none
  | c :: cs, ts =>
    match punct? ts with
    | some (d, joint, span, rest) =>
      if d = c ∧ joint then
        (operator? cs rest).map fun (op, after) => (.punct c true span :: op, after)
      else none
    | none => none

def skipOne? (ts : List Tree) : Option (List Tree) :=
  match Trees.shown ts with
  | [] => none
  | .punct '\'' true _ :: .ident _ _ :: rest => some rest
  | _ :: rest => some rest

def isNumber (text : String) : Bool := text.toList.head?.any Char.isDigit

def literalHere? (ts : List Tree) : Option (List Tree × List Tree) :=
  match literal? ts with
  | some (text, span, rest) => some ([.literal text span], rest)
  | none =>
    match word? ts with
    | some (i, rest) => if i.name = "true" ∨ i.name = "false" then some ([i.tree], rest) else none
    | none =>
      match operator? ['-'] ts with
      | some (minus, rest) =>
        match literal? rest with
        | some (text, span, after) =>
          if isNumber text then some (minus ++ [.literal text span], after) else none
        | none => none
      | none => none

namespace Look

def ended : Look := List.isEmpty

def op (text : String) : Look := fun ts => (operator? text.toList ts).isSome

def word (name : String) : Look := fun ts => (word? ts).any fun (i, _) => i.name == name

def anyWord : Look := fun ts => (word? ts).isSome

def name : Look := fun ts => (word? ts).any fun (i, _) => !isKeyword i.name

def lifetime : Look := fun ts => (lifetime? ts).isSome

def group (delim : Delim) : Look := fun ts => (group? delim ts).isSome

def text : Look := fun ts =>
  (literal? ts).any fun (t, _, _) => t.startsWith "\"" || t.startsWith "r"

def literal : Look := fun ts => (literalHere? ts).isSome

def phrase (words : String) : Look :=
  match words with
  | "identifier" => name
  | "lifetime" => lifetime
  | "literal" => literal
  | "string literal" => text
  | "parentheses" => group .paren
  | "square brackets" => group .bracket
  | "curly braces" => group .brace
  | words =>
    match words.toList with
    | '\x60' :: quoted =>
      let quoted := String.ofList quoted.dropLast
      if quoted.toList.head?.any fun c => c.isAlpha || c == '_' then word quoted else op quoted
    | _ => fun _ => false

def second (p : Look) : Look := fun ts => (skipOne? ts).any p

def third (p : Look) : Look := fun ts => ((skipOne? ts).bind skipOne?).any p

def or (p q : Look) : Look := fun ts => p ts || q ts

def and (p q : Look) : Look := fun ts => p ts && q ts

def not (p : Look) : Look := fun ts => !p ts

def anyOf (ps : List Look) : Look := fun ts => ps.any (· ts)

end Look

end Delegation
