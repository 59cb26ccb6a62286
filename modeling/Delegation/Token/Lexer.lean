import Delegation.Token.Basic
import Delegation.Token.Literal
import Delegation.Text.Quoted

namespace Delegation

open Text

def isBlank (c : Char) : Bool :=
  let n := c.toNat
  n == 0x20 || (0x09 ≤ n && n ≤ 0x0d) || n == 0x85 || n == 0xa0 || n == 0x1680 ||
    (0x2000 ≤ n && n ≤ 0x200a) || n == 0x200e || n == 0x200f || n == 0x2028 || n == 0x2029 ||
    n == 0x202f || n == 0x205f || n == 0x3000

/-- A line up to its end, and what follows; the end is a line feed, which stays, or a carriage
return before one, which is dropped. -/
def takeLine : List Char → List Char × List Char
  | [] => ([], [])
  | '\n' :: cs => ([], '\n' :: cs)
  | '\r' :: '\n' :: cs => ([], '\n' :: cs)
  | c :: cs => ((c :: (takeLine cs).1), (takeLine cs).2)

/-- A block comment after `depth` openings: its characters up to the matching close, and the
rest. -/
def takeBlock : (depth : Nat) → List Char → Option (List Char × List Char)
  | depth, '/' :: '*' :: cs => (takeBlock (depth + 1) cs).map fun (a, b) => ('/' :: '*' :: a, b)
  | depth, '*' :: '/' :: cs =>
    if depth ≤ 1 then some (['*', '/'], cs)
    else (takeBlock (depth - 1) cs).map fun (a, b) => ('*' :: '/' :: a, b)
  | _, [] => none
  | depth, c :: cs => (takeBlock depth cs).map fun (a, b) => (c :: a, b)

def skipBlockComment (cs : List Char) : Option (List Char) :=
  match cs with
  | '/' :: '*' :: rest => (takeBlock 1 rest).map Prod.snd
  | _ => none

def startsWith (text : String) (cs : List Char) : Bool := text.toList.isPrefixOf cs

def skipPlainComment (cs : List Char) : Option (List Char) :=
  if startsWith "//" cs && (!startsWith "///" cs || startsWith "////" cs) &&
      !startsWith "//!" cs then
    some (takeLine cs).2
  else if startsWith "/**/" cs then some (cs.drop 4)
  else if startsWith "/*" cs && (!startsWith "/**" cs || startsWith "/***" cs) &&
      !startsWith "/*!" cs then
    skipBlockComment cs
  else none

def hasBareReturn : List Char → Bool
  | [] => false
  | '\r' :: cs => !(cs.head? == some '\n') || hasBareReturn cs
  | _ :: cs => hasBareReturn cs

/-- A documentation comment: whether it stands inside what it documents, its text, and the rest. -/
def docComment (cs : List Char) : Option (Bool × List Char × List Char) :=
  let found :=
    if startsWith "//!" cs then
      let (text, rest) := takeLine (cs.drop 3)
      some (true, text, rest)
    else if startsWith "/*!" cs then
      (takeBlock 1 (cs.drop 2)).map fun (text, rest) =>
        (true, (text.drop 1).dropLast.dropLast, rest)
    else if startsWith "///" cs && !startsWith "////" cs then
      let (text, rest) := takeLine (cs.drop 3)
      some (false, text, rest)
    else if startsWith "/**" cs && !startsWith "/***" cs then
      (takeBlock 1 (cs.drop 2)).map fun (text, rest) =>
        (false, (text.drop 1).dropLast.dropLast, rest)
    else none
  found.filter fun (_, text, _) => !hasBareReturn text

def docAttribute (inner : Bool) (text : String) (span : Span) : List Tree :=
  [mark '#' span] ++ (if inner then [mark '!' span] else []) ++
    [.group .bracket [.ident "doc" span, mark '=' span, .literal (quoted text) span] span]

def isPunct (c : Char) : Bool := "~!@#$%^&*-=+|;:,<.>/?'".contains c

def startsPunct (cs : List Char) : Bool :=
  !startsWith "//" cs && !startsWith "/*" cs && cs.head?.any isPunct

def startsRaw (cs : List Char) : Bool := startsWith "r#" cs

def skipName (cs : List Char) : Option (List Char) :=
  if startsRaw cs then
    match Literal.skipIdent (cs.drop 2) with
    | some rest =>
      let name := String.ofList ((cs.drop 2).takeWhile isIdentContinue)
      if ["_", "super", "self", "Self", "crate"].contains name then none else some rest
    | none => none
  else Literal.skipIdent cs

def startsLiteral (cs : List Char) : Bool :=
  ["r\"", "r#\"", "r##", "b\"", "b'", "br\"", "br#", "c\"", "cr\"", "cr#"].any (startsWith · cs)

def punctHere (cs : List Char) : Option (Char × Bool × List Char) :=
  match cs with
  | [] => none
  | c :: rest =>
    if !startsPunct cs then none
    else if c = '\'' then
      match skipName rest with
      | none => none
      | some after =>
        if after.head? == some '\'' || (after.head? == some '#' && !startsRaw rest) then none
        else some (c, true, rest)
    else some (c, startsPunct rest, rest)

inductive Lexeme where
  | opening (delim : Delim)
  | closing (delim : Delim)
  | leaf (tree : Span → Tree)
  | doc (inner : Bool) (text : String)

def delimiter? (c : Char) : Option Lexeme :=
  match c with
  | '(' => some (.opening .paren)
  | ')' => some (.closing .paren)
  | '[' => some (.opening .bracket)
  | ']' => some (.closing .bracket)
  | '\x7b' => some (.opening .brace)
  | '\x7d' => some (.closing .brace)
  | _ => none

def errorMark : String := "(/*ERROR*/)"

def readText (cs rest : List Char) : String := String.ofList (cs.take (cs.length - rest.length))

def lexeme (cs : List Char) : Option (Lexeme × List Char) :=
  match docComment cs with
  | some (inner, text, rest) => some (.doc inner (String.ofList text), rest)
  | none =>
    match cs with
    | [] => none
    | c :: rest =>
      if startsWith errorMark cs then
        some (.leaf (.literal errorMark), cs.drop errorMark.length)
      else
        match delimiter? c with
        | some d => some (d, rest)
        | none =>
          match Literal.skip cs with
          | some after => some (.leaf (.literal (readText cs after)), after)
          | none =>
            match punctHere cs with
            | some (p, joint, after) => some (.leaf (.punct p joint), after)
            | none =>
              if startsLiteral cs then none
              else (skipName cs).map fun after => (.leaf (.ident (readText cs after)), after)

def advance (p : Pos) (cs rest : List Char) : Pos :=
  (cs.take (cs.length - rest.length)).foldl Pos.step p

def lexemes (text : Nat) : (fuel : Nat) → Pos → List Char → Option (List (Lexeme × Span))
  | 0, _, cs => if cs.isEmpty then some [] else none
  | _ + 1, _, [] => some []
  | fuel + 1, p, c :: cs =>
    match skipPlainComment (c :: cs) with
    | some rest => lexemes text fuel (advance p (c :: cs) rest) rest
    | none =>
      if isBlank c then lexemes text fuel (p.step c) cs
      else
        match lexeme (c :: cs) with
        | none => none
        | some (l, rest) =>
          let q := advance p (c :: cs) rest
          (lexemes text fuel q rest).map ((l, ⟨text, p, q⟩) :: ·)

structure OpenGroup where
  delim : Delim
  start : Span
  before : List Tree

def nest : List OpenGroup → List Tree → List (Lexeme × Span) → Option (List Tree)
  | [], done, [] => some done.reverse
  | _ :: _, _, [] => none
  | stack, done, (.leaf tree, span) :: ls => nest stack (tree span :: done) ls
  | stack, done, (.doc inner text, span) :: ls =>
    nest stack ((docAttribute inner text span).reverse ++ done) ls
  | stack, done, (.opening delim, span) :: ls => nest (⟨delim, span, done⟩ :: stack) [] ls
  | [], _, (.closing _, _) :: _ => none
  | g :: stack, done, (.closing delim, span) :: ls =>
    if g.delim = delim then
      nest stack (.group delim done.reverse (g.start.hull span) :: g.before) ls
    else none

/-- The token trees of a text. A byte order mark at its start is skipped. -/
def lex (text : Nat) (source : String) : Option (List Tree) :=
  let chars := source.toList
  let start : Pos := ⟨1, 0⟩
  let found := match chars with
    | '\ufeff' :: cs => lexemes text (cs.length + 1) (start.step '\ufeff') cs
    | cs => lexemes text (cs.length + 1) start cs
  found.bind (nest [] [])

mutual

/-- The name `__G` before a group in parentheses stands for an invisible group of the same
tokens. -/
def Tree.hideGroups : Tree → Tree
  | .group delim inner span => .group delim (Trees.hideGroups inner) span
  | t => t

def Trees.hideGroups : List Tree → List Tree
  | [] => []
  | t :: ts =>
    match t, ts with
    | .ident "__G" _, .group .paren inner span :: rest =>
      .group .invisible (Trees.hideGroups inner) span :: Trees.hideGroups rest
    | t, ts => t.hideGroups :: Trees.hideGroups ts

end

def readSource (text : Nat) (source : String) : Option (List Tree) :=
  (lex text source).map Trees.hideGroups

end Delegation
