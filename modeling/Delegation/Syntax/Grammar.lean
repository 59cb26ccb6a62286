import Delegation.Syntax.Item

namespace Delegation

/-- The rules, nested at most `depth` times. -/
def rules : Nat → Rules
  | 0 => .stuck
  | depth + 1 =>
    let g := rules depth
    { type := Reader.typeRule g
      bound := Reader.boundRule g
      expr := Reader.exprRule g
      unary := Reader.unaryRule g
      operators := Reader.operatorsRule g
      pattern := Reader.patternRule g
      block := Reader.blockRule g
      arm := Reader.armRule g
      item := Reader.itemRule g
      useTree := Reader.useTreeRule g }

/-- The rules, nested deep enough for the tokens: between two tokens no more than a few rules enter
each other. -/
def rulesFor (ts : List Tree) : Rules := rules (4 * Trees.weight ts + 16)

def readWithin {α : Type} (p : Rules → Reader α) (ts : List Tree) (close : Span) :
    Except Failure α :=
  Reader.run (p (rulesFor ts)) .invisible ts close

def readAll {α : Type} (p : Rules → Reader α) (ts : List Tree) : Except Failure α :=
  readWithin p ts .made

def Ty.ofTokens (ts : List Tree) : Except Failure Ty := readAll (fun g => g.type true true) ts

def Path.ofTokens (ts : List Tree) : Except Failure Path := readAll (Reader.path · false) ts

def Ident.ofTokens (ts : List Tree) : Except Failure Ident := readAll (fun _ => Reader.name) ts

def Ident.anyOfTokens (ts : List Tree) : Except Failure Ident :=
  readAll (fun _ => Reader.anyWord) ts

def Visibility.ofTokens (ts : List Tree) : Except Failure Visibility :=
  readAll (fun _ => Reader.visibility) ts

def Declaration.ofTokens (ts : List Tree) : Except Failure Declaration :=
  readAll Reader.declaration ts

def Item.ofTokens (ts : List Tree) : Except Failure Item := readAll (fun g => g.item) ts

end Delegation
