import Delegation.Token.Basic

namespace Delegation

mutual

def Tree.print : Tree → String
  | .ident name _ => name
  | .punct char _ _ => char.toString
  | .literal text _ => text
  | .group .paren inner _ => "(" ++ Trees.print inner ++ ")"
  | .group .bracket inner _ => "[" ++ Trees.print inner ++ "]"
  | .group .brace [] _ => "\x7b \x7d"
  | .group .brace (t :: ts) _ => "\x7b " ++ t.print ++ Trees.printAfter t ts ++ " \x7d"
  | .group .invisible inner _ => Trees.print inner

def Trees.printAfter : Tree → List Tree → String
  | _, [] => ""
  | .punct _ true _, t :: ts => t.print ++ Trees.printAfter t ts
  | _, t :: ts => " " ++ t.print ++ Trees.printAfter t ts

def Trees.print : List Tree → String
  | [] => ""
  | t :: ts => t.print ++ Trees.printAfter t ts

end

end Delegation
