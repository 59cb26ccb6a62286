namespace Delegation.Text

/-- The maximal runs of characters that satisfy `keep`; `run` is the run so far, backwards. -/
def runsFrom (keep : Char → Bool) : List Char → List Char → List (List Char)
  | run, [] => if run.isEmpty then [] else [run.reverse]
  | run, c :: cs =>
    if keep c then runsFrom keep (c :: run) cs
    else if run.isEmpty then runsFrom keep [] cs
    else run.reverse :: runsFrom keep [] cs

def runs (keep : Char → Bool) (cs : List Char) : List (List Char) := runsFrom keep [] cs

inductive Case where
  | fresh
  | lower
  | upper
deriving DecidableEq, Repr

def Case.next (case : Case) (c : Char) : Case :=
  if c.isLower then .lower else if c.isUpper then .upper else case

/-- Words of a run; `word` is the word so far, backwards. A word ends before a capital that follows
a small letter, and before the last of several capitals if a small letter follows it. -/
def wordsFrom : Case → List Char → List Char → List (List Char)
  | _, _, [] => []
  | _, word, [c] => [(c :: word).reverse]
  | case, word, c :: d :: cs =>
    if case.next c = .lower ∧ d.isUpper then
      (c :: word).reverse :: wordsFrom .fresh [] (d :: cs)
    else if case = .upper ∧ c.isUpper ∧ d.isLower then
      word.reverse :: wordsFrom .fresh [c] (d :: cs)
    else wordsFrom (case.next c) (c :: word) (d :: cs)

def words (run : List Char) : List (List Char) := wordsFrom .fresh [] run

def capitalize : List Char → List Char
  | [] => []
  | c :: cs => c.toUpper :: cs.map Char.toLower

def upperCamel (cs : List Char) : List Char :=
  ((runs Char.isAlphanum cs).flatMap words).flatMap capitalize

end Delegation.Text
