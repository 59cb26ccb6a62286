import Delegation.Syntax.Stream
import Delegation.Syntax.Basic

namespace Delegation

def Cause.isTooDeep : Cause → Bool
  | .refused reason _ => reason == "nested too deeply"
  | _ => false

inductive Reply (α : Type) where
  | ok (value : α) (next : Stream)
  | fail (failure : Failure)

def Reader (α : Type) : Type := Stream → Reply α

namespace Reader

variable {α β σ : Type}

instance : Monad Reader where
  pure a := fun s => .ok a s
  bind p f := fun s =>
    match p s with
    | .ok a t => f a t
    | .fail e => .fail e

def failAt (span : Span) (cause : Cause) : Reader α := fun _ => .fail ⟨cause, span⟩

def failHere (cause : Bool → Cause) : Reader α := fun s => .fail ⟨cause s.rest.isEmpty, s.here⟩

/-- None of the phrases can be read here. One that does stand here was turned down for what follows
it, and is not named. -/
def expected (phrases : List String) : Reader α := fun s =>
  .fail ⟨.expected (phrases.filter fun p => !Look.phrase p s.rest) s.rest.isEmpty, s.here⟩

def nothing : Reader α := fun s =>
  match s.rest with
  | [] => .fail ⟨.expected [] true, s.close⟩
  | t :: _ => .fail ⟨.expected [] false, t.span⟩

def refuse (reason : String) : Reader α := failHere (.refused reason)

def look (p : Look) : Reader Bool := fun s => .ok (p s.rest) s

def ahead : Reader (List Tree) := fun s => .ok s.rest s

def here : Reader Span := fun s => .ok s.here s

def advance (rest : List Tree) : Reader Unit := fun s => .ok () { s with rest := rest }

def tooDeep : Reader α := refuse "nested too deeply"

/-- Read without taking anything, and without failing. That the rules are not nested deep enough is
no answer, and passed on. -/
def attempt? (p : Reader α) : Reader (Option α) := fun s =>
  match p s with
  | .ok a _ => .ok (some a) s
  | .fail e => if e.cause.isTooDeep then .fail e else .ok none s

/-- An operator. That it is missing is said in the same words at the end of the tokens, and at the
punctuation character that stands in its place if one does. -/
def op (text : String) : Reader (List Tree) := fun s =>
  match operator? text.toList s.rest with
  | some (tokens, rest) => .ok tokens { s with rest := rest }
  | none =>
    let place := match punct? s.rest with
      | some (_, _, span, _) => span
      | none => s.here
    .fail ⟨.expected ["`" ++ text ++ "`"] false, place⟩

def opSpan (text : String) : Reader Span := do
  let tokens ← op text
  return (tokens.head?.map Tree.span).getD .made

def word (name : String) : Reader (List Tree) := fun s =>
  match word? s.rest with
  | some (i, rest) =>
    if i.name = name then .ok [i.tree] { s with rest := rest }
    else .fail ⟨.expected ["`" ++ name ++ "`"] false, s.here⟩
  | none => .fail ⟨.expected ["`" ++ name ++ "`"] s.rest.isEmpty, s.here⟩

def wordSpan (name : String) : Reader Span := do
  let tokens ← word name
  return (tokens.head?.map Tree.span).getD .made

def name : Reader Ident := fun s =>
  match word? s.rest with
  | some (i, rest) =>
    if isKeyword i.name then .fail ⟨.keyword i.name, s.here⟩ else .ok i { s with rest := rest }
  | none => .fail ⟨.expected ["identifier"] s.rest.isEmpty, s.here⟩

def anyWord : Reader Ident := fun s =>
  match word? s.rest with
  | some (i, rest) => .ok i { s with rest := rest }
  | none => .fail ⟨.expected ["ident"] s.rest.isEmpty, s.here⟩

def lifetime : Reader (List Tree) := fun s =>
  match lifetime? s.rest with
  | some (tick, i, rest) => .ok [.punct '\'' true tick, i.tree] { s with rest := rest }
  | none => .fail ⟨.expected ["lifetime"] s.rest.isEmpty, s.here⟩

def whenLook (p : Look) (tokens : Reader (List Tree)) : Reader (List Tree) := do
  if ← look p then tokens else return []

def opWhen (text : String) : Reader (List Tree) := whenLook (.op text) (op text)

def wordWhen (name : String) : Reader (List Tree) := whenLook (.word name) (word name)

def lifetimeWhen : Reader (List Tree) := whenLook .lifetime lifetime

def sequence : List (Reader (List Tree)) → Reader (List Tree)
  | [] => return []
  | p :: ps => do
    let ts ← p
    let rest ← sequence ps
    return ts ++ rest

def delimName : Delim → String
  | .paren => "parentheses"
  | .bracket => "square brackets"
  | .brace => "curly braces"
  | .invisible => "invisible group"

/-- A group, its content read by `p`. What `p` leaves is kept in mind as left over. -/
def enclosed (delim : Delim) (p : Reader α) : Reader (α × Span) := fun s =>
  match group? delim s.rest with
  | none => .fail ⟨.expected [delimName delim] s.rest.isEmpty, s.here⟩
  | some (inner, span, rest) =>
    match p ⟨inner, span.closing, s.leftover⟩ with
    | .fail e => .fail e
    | .ok a t =>
      .ok (a, span) ⟨rest, s.close, t.leftover.or (Trees.leftIn delim t.rest)⟩

def grouped (delim : Delim) (p : Reader (List Tree)) : Reader (List Tree) := do
  let (tokens, span) ← enclosed delim p
  return [.group delim tokens span]

def wholeGroup : Reader (Delim × List Tree × Span) := fun s =>
  match s.rest with
  | .group delim inner span :: rest =>
    if delim = .invisible then .fail ⟨.expected ["delimiter"] false, s.here⟩
    else .ok (delim, inner, span) { s with rest := rest }
  | _ => .fail ⟨.expected ["delimiter"] s.rest.isEmpty, s.here⟩

def remaining : Reader (List Tree) := fun s => .ok s.rest { s with rest := [] }

inductive Round (σ β : Type) where
  | again (state : σ)
  | done (value : β)

def rounds (step : σ → Reader (Round σ β)) : Nat → σ → Reader β
  | 0, _ => refuse "too many rounds"
  | fuel + 1, a => do
    match ← step a with
    | .again b => rounds step fuel b
    | .done b => return b

/-- Rounds until one is the last. Every round but the last takes a token, so that the tokens ahead
bound their number. -/
def loop (step : σ → Reader (Round σ β)) (start : σ) : Reader β := fun s =>
  rounds step (Trees.weight s.rest + 2) start s

/-- Values with separators between them up to where `stop` holds; a last separator may follow. The
flag says that one does. -/
def separated (stop : Look) (separator : String) (p : Reader α) : Reader (List α × Bool) :=
  loop (fun (done : List α) => do
    if ← look stop then return .done (done.reverse, !done.isEmpty)
    let a ← p
    if ← look stop then return .done ((a :: done).reverse, false)
    let _ ← op separator
    return .again (a :: done)) []

def separatedTokens (stop : Look) (separator : String) (p : Reader (List Tree)) :
    Reader (List Tree) :=
  loop (fun (done : List Tree) => do
    if ← look stop then return .done done
    let ts ← p
    if ← look stop then return .done (done ++ ts)
    let sep ← op separator
    return .again (done ++ ts ++ sep)) []

/-- Tokens with separators between them as long as separators follow; a last one may be followed by
what `stop` describes. -/
def chained (stop : Look) (separator : String) (p : Reader (List Tree)) : Reader (List Tree) :=
  loop (fun (done : List Tree) => do
    if ← look stop then return .done done
    let ts ← p
    if ← look (.op separator) then
      let sep ← op separator
      return .again (done ++ ts ++ sep)
    else return .done (done ++ ts)) []

def terminated (p : Reader (List Tree)) : Reader (List Tree) := separatedTokens .ended "," p

def manyWhile (more : Look) (p : Reader α) : Reader (List α) :=
  loop (fun (done : List α) => do
    if ← look more then
      let a ← p
      return .again (a :: done)
    else return .done done.reverse) []

def manyTokens (more : Look) (p : Reader (List Tree)) : Reader (List Tree) := do
  let parts ← manyWhile more p
  return parts.flatten

def verbatim (p : Reader α) : Reader (List Tree) := do
  let before ← ahead
  let _ ← p
  let after ← ahead
  return Trees.between before after

def run (p : Reader α) (enclosing : Delim) (ts : List Tree) (close : Span) : Except Failure α :=
  match p ⟨ts, close, none⟩ with
  | .fail e => .error e
  | .ok a t =>
    match t.leftover with
    | some e => .error e
    | none =>
      match Trees.leftIn enclosing t.rest with
      | some e => .error e
      | none => .ok a

end Reader

end Delegation
