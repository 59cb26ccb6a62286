namespace Delegation

/-- Lines count from 1, columns from 0 in characters. -/
structure Pos where
  line : Nat
  column : Nat
deriving DecidableEq, Repr, Inhabited

def Pos.le (p q : Pos) : Bool := p.line < q.line || (p.line == q.line && p.column ≤ q.column)

def Pos.step (p : Pos) (c : Char) : Pos :=
  if c = '\n' then ⟨p.line + 1, 0⟩ else ⟨p.line, p.column + 1⟩

/-- A stretch of the source text number `text`. Text 0 is no source text: it is where tokens stand
that were not read but made. -/
structure Span where
  text : Nat
  start : Pos
  stop : Pos
deriving DecidableEq, Repr, Inhabited

namespace Span

def made : Span := ⟨0, ⟨1, 0⟩, ⟨1, 0⟩⟩

def opening (s : Span) : Span :=
  if s.start = s.stop then s else { s with stop := ⟨s.start.line, s.start.column + 1⟩ }

def closing (s : Span) : Span :=
  if s.start = s.stop then s else { s with start := ⟨s.stop.line, s.stop.column - 1⟩ }

/-- The shortest span that holds both, or the first one if they stand in different texts. -/
def hull (s t : Span) : Span :=
  if s.text = t.text then
    ⟨s.text, if s.start.le t.start then s.start else t.start,
      if t.stop.le s.stop then s.stop else t.stop⟩
  else s

end Span

inductive Delim where
  | paren
  | bracket
  | brace
  | invisible
deriving DecidableEq, Repr

/-- A raw identifier keeps its mark in `name`. A joint punctuation character belongs to an operator
that the next character continues. The apostrophe of a lifetime is a joint character before the
name. -/
inductive Tree where
  | ident (name : String) (span : Span)
  | punct (char : Char) (joint : Bool) (span : Span)
  | literal (text : String) (span : Span)
  | group (delim : Delim) (inner : List Tree) (span : Span)
deriving Repr, Inhabited

abbrev Trees := List Tree

namespace Tree

def span : Tree → Span
  | .ident _ s | .punct _ _ s | .literal _ s | .group _ _ s => s

def front : Tree → Span
  | .group _ _ s => s.opening
  | t => t.span

def back : Tree → Span
  | .group _ _ s => s.closing
  | t => t.span

end Tree

mutual

def Tree.weight : Tree → Nat
  | .group _ inner _ => Trees.weight inner + 1
  | _ => 1

def Trees.weight : List Tree → Nat
  | [] => 0
  | t :: ts => t.weight + Trees.weight ts

end

mutual

def Tree.bare : Tree → Tree
  | .ident name _ => .ident name .made
  | .punct char joint _ => .punct char joint .made
  | .literal text _ => .literal text .made
  | .group delim inner _ => .group delim (Trees.bare inner) .made

def Trees.bare : List Tree → List Tree
  | [] => []
  | t :: ts => t.bare :: Trees.bare ts

end

def Trees.hull (ts : List Tree) : Span :=
  match ts.head?, ts.getLast? with
  | some first, some last => first.span.hull last.span
  | _, _ => .made

structure Ident where
  name : String
  span : Span
deriving DecidableEq, Repr, Inhabited

def Ident.tree (i : Ident) : Tree := .ident i.name i.span

def operator (chars : List Char) (span : Span) : List Tree :=
  match chars with
  | [] => []
  | [c] => [.punct c false span]
  | c :: cs => .punct c true span :: operator cs span

def mark (c : Char) (span : Span) : Tree := .punct c false span

end Delegation
