import Delegation.Token.Basic

namespace Delegation

inductive OptionPlace where
  | struct
  | field
  | container
deriving DecidableEq, Repr

inductive Cause where
  /-- None of the phrases that may follow was found; `ended` if there was nothing at all. -/
  | expected (phrases : List String) (ended : Bool)
  | keyword (name : String)
  /-- Tokens are left over before the end of a group, or of the whole input. -/
  | leftover (enclosing : Delim)
  /-- An entry of an option list starts with a literal or another token that is no name. -/
  | entry (literal : Bool)
  | noArguments (name : String)
  | valueArguments (name : String)
  | refused (reason : String) (ended : Bool)
  | unsupportedOption (place : OptionPlace)
  | duplicateOption (key : String)
  | unnamedField
  | ownerNotPath
  | ignoreArguments
  | optionsOnTuple
  | notInlineModule
  | genericReducer
deriving DecidableEq, Repr

def alternatives : List String → String
  | [] => "unexpected token"
  | [a] => "expected " ++ a
  | [a, b] => "expected " ++ a ++ " or " ++ b
  | phrases => "expected one of: " ++ ", ".intercalate phrases

def OptionPlace.unsupported : OptionPlace → String
  | .struct => "unsupported `parent_reducer_state` option on a struct, expected `of` or `crate`"
  | .field =>
    "unsupported `parent_reducer_state` option on a field, expected `init`, `set` or `action`"
  | .container => "unsupported `parent_reducer` option, expected `of` or `crate`"

def whenEnded (ended : Bool) (text : String) : String :=
  if ended then "unexpected end of input, " ++ text else text

def Cause.message : Cause → String
  | .expected [] true => "unexpected end of input"
  | .expected phrases ended => whenEnded ended (alternatives phrases)
  | .keyword name => "expected identifier, found keyword `" ++ name ++ "`"
  | .leftover .paren => "unexpected token, expected `)`"
  | .leftover .bracket => "unexpected token, expected `]`"
  | .leftover .brace => "unexpected token, expected `\x7d`"
  | .leftover .invisible => "unexpected token"
  | .entry true => "unexpected literal in nested attribute, expected ident"
  | .entry false => "unexpected token in nested attribute, expected ident"
  | .noArguments name =>
    "expected attribute arguments in parentheses: #[" ++ name ++ "(...)]"
  | .valueArguments name => "expected parentheses: #[" ++ name ++ "(...)]"
  | .refused reason ended => whenEnded ended reason
  | .unsupportedOption place => place.unsupported
  | .duplicateOption key => "duplicate `" ++ key ++ "` option"
  | .unnamedField => "delegation requires a named field"
  | .ownerNotPath => "`of` expects the parent reducer type, e.g. `of = AppReducer`"
  | .ignoreArguments => "`#[parent_reducer_state_ignored]` takes no arguments"
  | .optionsOnTuple => "parent reducer options require a named field"
  | .notInlineModule => "`#[parent_reducer]` can only be applied to an inline module"
  | .genericReducer => "generic reducers must be named with `#[parent_reducer(of = ...)]`"

structure Failure where
  cause : Cause
  span : Span
deriving DecidableEq, Repr

def Failure.message (f : Failure) : String := f.cause.message

end Delegation
