import Delegation.Text.CamelCase
import Delegation.Text.IdentChar

namespace Delegation

inductive NameFault where
  | empty
  | number
  | invalid (text : String)
deriving DecidableEq, Repr

def NameFault.message : NameFault → String
  | .empty => "Ident is not allowed to be empty; use Option<Ident>"
  | .number => "Ident cannot be a number; use Literal instead"
  | .invalid text => "\"" ++ text ++ "\" is not a valid Ident"

def unraw (name : List Char) : List Char :=
  match name with
  | 'r' :: '#' :: rest => rest
  | _ => name

def checkName (cs : List Char) : Except NameFault String :=
  if cs.isEmpty then .error .empty
  else if cs.all Char.isDigit then .error .number
  else if Text.isIdent cs then .ok (String.ofList cs)
  else .error (.invalid (String.ofList cs))

def variantName (field : String) : Except NameFault String :=
  checkName (Text.upperCamel (unraw field.toList))

end Delegation
