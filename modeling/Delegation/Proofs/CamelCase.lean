import Mathlib
import Delegation.Text.CamelCase

namespace Delegation.Text

/-- Whether a character begins a word: the first of a run does, and so does a capital after a small
letter, or the last of several capitals before a small letter. `last` is the case of the letter
before it in its run, from which digits are left out. -/
def begins (last : Option Case) (c : Char) (next : Option Char) : Bool :=
  match last with
  | none => true
  | some .fresh => false
  | some .lower => c.isUpper
  | some .upper => c.isUpper && next.any Char.isLower

/-- The letters and digits of a text in small letters, each with whether it is a letter that begins
a word; `last` as in `begins`. -/
def lettersFrom : Option Case → List Char → List (Char × Bool)
  | _, [] => []
  | last, c :: cs =>
    if c.isAlphanum then
      (c.toLower, c.isAlpha && begins last c cs.head?) ::
        lettersFrom (some ((last.getD .fresh).next c)) cs
    else lettersFrom none cs

def letters (cs : List Char) : List (Char × Bool) := lettersFrom none cs

def write (letter : Char × Bool) : Char := if letter.2 then letter.1.toUpper else letter.1

section Scan

variable {last : Option Case} {c d : Char} {cs : List Char}

theorem lettersFrom_cons (hc : c.isAlphanum = true) : lettersFrom last (c :: cs) =
    (c.toLower, c.isAlpha && begins last c cs.head?) ::
      lettersFrom (some ((last.getD .fresh).next c)) cs := by
  rw [lettersFrom, if_pos hc]

theorem lettersFrom_separator (hc : c.isAlphanum = false) :
    lettersFrom last (c :: cs) = lettersFrom none cs := by
  rw [lettersFrom, if_neg (by simp [hc])]

theorem begins_eq_none (hd : d.isLower = false) : begins last c (some d) = begins last c none := by
  match last with
  | none | some .fresh | some .lower => rfl
  | some .upper => simp [begins, hd]

theorem lettersFrom_lower (hd : d.isUpper = true) :
    lettersFrom (some .lower) (d :: cs) = lettersFrom none (d :: cs) := by
  simp [lettersFrom, begins, Case.next, hd]

theorem lettersFrom_upper (hd : d.isLower = true) :
    lettersFrom (some .upper) (d :: cs) = lettersFrom (some .fresh) (d :: cs) := by
  have hcapital : d.isUpper = false := by simpa using Char.not_isUpper_of_isLower hd
  simp [lettersFrom, begins, Case.next, hd, hcapital]

theorem lettersFrom_append_separator (hc : c.isAlphanum = false) (run : List Char) :
    lettersFrom last (run ++ c :: cs) = lettersFrom last run ++ lettersFrom none cs := by
  have hclasses : (c.isUpper = false ∧ c.isLower = false) ∧ c.isDigit = false := by
    simpa [Char.isAlphanum, Char.isAlpha] using hc
  induction run generalizing last with
  | nil => exact lettersFrom_separator hc
  | cons a run ih =>
    by_cases ha : a.isAlphanum = true
    · have hbegins : begins last a (run ++ c :: cs).head? = begins last a run.head? := by
        cases run with
        | nil => exact begins_eq_none hclasses.1.2
        | cons => rfl
      rw [List.cons_append, lettersFrom_cons ha, lettersFrom_cons ha, hbegins, ih,
        List.cons_append]
    · rw [List.cons_append, lettersFrom_separator (by simpa using ha),
        lettersFrom_separator (by simpa using ha), ih]

end Scan

theorem map_fst_lettersFrom (last : Option Case) (cs : List Char) :
    (lettersFrom last cs).map Prod.fst = (cs.filter Char.isAlphanum).map Char.toLower := by
  induction cs generalizing last with
  | nil => rfl
  | cons c cs ih =>
    by_cases hc : c.isAlphanum = true
    · rw [lettersFrom_cons hc, List.filter_cons_of_pos hc, List.map_cons, List.map_cons, ih]
    · rw [lettersFrom_separator (by simpa using hc), List.filter_cons_of_neg hc, ih]

theorem write_letter (c : Char) (initial : Bool) :
    write (c.toLower, c.isAlpha && initial) = if initial then c.toUpper else c.toLower := by
  cases initial with
  | false => simp [write]
  | true =>
    cases halpha : c.isAlpha with
    | true => simp [write]
    | false =>
      have hcase : c.isUpper = false ∧ c.isLower = false := by simpa [Char.isAlpha] using halpha
      simp [write, Char.toUpper_eq_of_not_isLower, Char.toLower_eq_of_not_isUpper, hcase]

@[simp] theorem capitalize_nil : capitalize [] = [] := rfl

theorem capitalize_append (word : List Char) (c : Char) : capitalize (word ++ [c]) =
    capitalize word ++ [if word.isEmpty then c.toUpper else c.toLower] := by
  cases word <;> simp [capitalize]

theorem capitalize_append_write {word : List Char} {initial : Bool} (h : initial = word.isEmpty)
    (c : Char) : capitalize (word ++ [c]) =
      capitalize word ++ [write (c.toLower, c.isAlpha && initial)] := by
  rw [capitalize_append, write_letter, h]

/-- The case of the letter before the rest of a run, if `word` is the word so far and its last
letter is of that case. -/
def lastOf (case : Case) (word : List Char) : Option Case :=
  if word.isEmpty then none else some case

@[simp] theorem lastOf_nil (case : Case) : lastOf case [] = none := rfl

@[simp] theorem lastOf_cons (case : Case) (c : Char) (word : List Char) :
    lastOf case (c :: word) = some case := rfl

theorem next_lastOf {case : Case} {word : List Char} (h : word = [] → case = .fresh) (c : Char) :
    ((lastOf case word).getD .fresh).next c = case.next c := by
  by_cases hword : word = []
  · simp [lastOf, hword, h hword]
  · simp [lastOf, hword]

theorem begins_lastOf {case : Case} (word : List Char) {c : Char} (next : Option Char)
    (hlower : case = .lower → c.isUpper = false)
    (hupper : ¬ (case = .upper ∧ c.isUpper = true ∧ next.any Char.isLower = true)) :
    begins (lastOf case word) c next = word.reverse.isEmpty := by
  by_cases hword : word = []
  · simp [lastOf, hword, begins]
  · rw [lastOf, if_neg (by simpa using hword), List.isEmpty_eq_false_iff.mpr (by simpa using hword)]
    cases case with
    | fresh => rfl
    | lower => exact hlower rfl
    | upper => simpa [begins] using hupper

/-- The words of a run are written as the scan finds them. After a small letter there is no capital
in a word, for it has ended the word. -/
theorem capitalize_wordsFrom (case : Case) (word : List Char) (c : Char) (cs : List Char)
    (halnum : ∀ a ∈ c :: cs, a.isAlphanum = true) (hfresh : word = [] → case = .fresh)
    (hlower : case = .lower → c.isUpper = false) :
    (wordsFrom case word (c :: cs)).flatMap capitalize =
      capitalize word.reverse ++ (lettersFrom (lastOf case word) (c :: cs)).map write := by
  have hc : c.isAlphanum = true := halnum c List.mem_cons_self
  induction cs generalizing case word c with
  | nil =>
    have hbegins := begins_lastOf word none hlower (by simp)
    rw [wordsFrom, lettersFrom_cons hc, List.map_cons]
    simpa [lettersFrom] using capitalize_append_write hbegins c
  | cons d cs ih =>
    have hrest : ∀ a ∈ d :: cs, a.isAlphanum = true := fun a ha => halnum a (.tail c ha)
    have hd : d.isAlphanum = true := hrest d List.mem_cons_self
    rw [lettersFrom_cons hc, next_lastOf hfresh, List.map_cons]
    by_cases hends : case.next c = .lower ∧ d.isUpper = true
    · -- `c` ends its word
      have hsmall : d.isLower = false := by simpa using Char.not_isLower_of_isUpper hends.2
      have hbegins := begins_lastOf word (some d) hlower (by simp [hsmall])
      have hword := ih .fresh [] d hrest (fun _ => rfl) nofun hd
      rw [wordsFrom, if_pos hends, List.flatMap_cons, hword, hends.1, lettersFrom_lower hends.2,
        List.reverse_cons, capitalize_append_write hbegins]
      simp
    · by_cases hbefore : case = .upper ∧ c.isUpper = true ∧ d.isLower = true
      · -- `c` begins a word
        have hword := ih .fresh [c] d hrest (by simp) nofun hd
        have hnonempty : word ≠ [] := fun h => by simp [hfresh h] at hbefore
        obtain ⟨rfl, hcapital, hsmall⟩ := hbefore
        have hnext : Case.upper.next c = .upper := by
          have hlarge : c.isLower = false := by simpa using Char.not_isLower_of_isUpper hcapital
          simp [Case.next, hlarge]
        have hbegins : begins (lastOf .upper word) c (some d) = true := by
          simp [lastOf, hnonempty, begins, hcapital, hsmall]
        have hfirst : capitalize [c] = [write (c.toLower, c.isAlpha && true)] :=
          @capitalize_append_write [] true rfl c
        rw [wordsFrom, if_neg hends, if_pos ⟨rfl, hcapital, hsmall⟩, List.flatMap_cons, hword,
          hnext, lettersFrom_upper hsmall, List.head?_cons, hbegins, List.reverse_singleton, hfirst]
        simp
      · have hbegins := begins_lastOf word (some d) hlower (by simpa using hbefore)
        have hword := ih (case.next c) (c :: word) d hrest (by simp)
          (fun h => by simpa [h] using hends) hd
        rw [wordsFrom, if_neg hends, if_neg hbefore, hword, List.reverse_cons,
          capitalize_append_write hbegins]
        simp

theorem capitalize_words (run : List Char) (halnum : ∀ a ∈ run, a.isAlphanum = true) :
    (words run).flatMap capitalize = (letters run).map write := by
  cases run with
  | nil => rfl
  | cons c cs => exact capitalize_wordsFrom .fresh [] c cs halnum (fun _ => rfl) nofun

theorem capitalize_runsFrom (run cs : List Char) (halnum : ∀ a ∈ run, a.isAlphanum = true) :
    ((runsFrom Char.isAlphanum run cs).flatMap words).flatMap capitalize =
      (letters (run.reverse ++ cs)).map write := by
  induction cs generalizing run with
  | nil =>
    rw [runsFrom, List.append_nil, ← capitalize_words _ (by simpa using halnum)]
    by_cases hrun : run = []
    · simp [hrun, words, wordsFrom]
    · simp [hrun]
  | cons c cs ih =>
    rw [runsFrom]
    by_cases hc : c.isAlphanum = true
    · rw [if_pos hc, ih (c :: run) (by simpa using ⟨hc, halnum⟩)]
      simp
    · have hseparated : letters (run.reverse ++ c :: cs) = letters run.reverse ++ letters cs :=
        lettersFrom_append_separator (by simpa using hc) run.reverse
      have hrest : ((runsFrom Char.isAlphanum [] cs).flatMap words).flatMap capitalize =
          (letters cs).map write := ih [] nofun
      rw [if_neg hc, hseparated, List.map_append, ← capitalize_words _ (by simpa using halnum),
        ← hrest]
      by_cases hrun : run = []
      · simp [hrun, words, wordsFrom]
      · simp [hrun]

/-- Upper camel case is what the scan finds, with a capital for every letter that begins a word. -/
theorem upperCamel_eq (cs : List Char) : upperCamel cs = (letters cs).map write :=
  capitalize_runsFrom [] cs nofun

theorem read_write {letter : Char × Bool} (hsmall : letter.1.isUpper = false)
    (hinitial : letter.2 = true → letter.1.isAlpha = true) :
    ((write letter).toLower, (write letter).isUpper) = letter := by
  obtain ⟨c, initial⟩ := letter
  cases initial with
  | false => simp [write, hsmall, Char.toLower_eq_of_not_isUpper]
  | true => simp [write, hsmall, hinitial, Char.toLower_eq_of_not_isUpper]

theorem read_lettersFrom (last : Option Case) (cs : List Char) :
    ((lettersFrom last cs).map write).map (fun c => (c.toLower, c.isUpper)) =
      lettersFrom last cs := by
  induction cs generalizing last with
  | nil => rfl
  | cons c cs ih =>
    by_cases hc : c.isAlphanum = true
    · have hread := @read_write (c.toLower, c.isAlpha && begins last c cs.head?) (by simp)
        (by simp +contextual)
      rw [lettersFrom_cons hc, List.map_cons, List.map_cons, ih, hread]
    · rw [lettersFrom_separator (by simpa using hc), ih]

/-- Two texts are written alike exactly if the scan finds the same in them. -/
theorem upperCamel_eq_iff (u v : List Char) :
    upperCamel u = upperCamel v ↔ letters u = letters v := by
  rw [upperCamel_eq, upperCamel_eq]
  constructor
  · intro h
    have hread := congrArg (List.map fun c : Char => (c.toLower, c.isUpper)) h
    rwa [letters, letters, read_lettersFrom, read_lettersFrom] at hread
  · exact congrArg _

def IsSnakeWord (word : List Char) : Prop :=
  ∃ c cs, word = c :: cs ∧ c.isLower = true ∧ ∀ a ∈ cs, a.isLower = true ∨ a.isDigit = true

/-- Words in small letters, joined by single underscores. -/
def IsSnake (cs : List Char) : Prop :=
  ∃ parts, parts ≠ [] ∧ (∀ word ∈ parts, IsSnakeWord word) ∧ cs = ['_'].intercalate parts

theorem not_isAlpha_of_isDigit {c : Char} (h : c.isDigit = true) : c.isAlpha = false := by
  have hdigit : 48 ≤ c.toNat ∧ c.toNat ≤ 57 := by
    simpa [Char.isDigit, UInt32.le_iff_toNat_le] using h
  have hletter : ¬ (65 ≤ c.toNat ∧ c.toNat ≤ 90) ∧ ¬ (97 ≤ c.toNat ∧ c.toNat ≤ 122) := by omega
  simpa [Char.isAlpha, Char.isUpper, Char.isLower, UInt32.le_iff_toNat_le] using hletter

section Small

variable {c : Char} (h : c.isLower = true ∨ c.isDigit = true)

include h

theorem isAlphanum_of_small : c.isAlphanum = true := by
  obtain h | h := h <;> simp [Char.isAlphanum, Char.isAlpha, h]

theorem not_isUpper_of_small : c.isUpper = false := by
  obtain h | h := h
  · simpa using Char.not_isUpper_of_isLower h
  · have hletter : c.isUpper = false ∧ c.isLower = false := by
      simpa [Char.isAlpha] using not_isAlpha_of_isDigit h
    exact hletter.1

theorem next_of_small {case : Case} (hcase : case ≠ .upper) : case.next c ≠ .upper := by
  rw [Case.next, not_isUpper_of_small h]
  split
  · decide
  · exact hcase

end Small

theorem lettersFrom_small {case : Case} {cs : List Char} (hcase : case ≠ .upper)
    (h : ∀ a ∈ cs, a.isLower = true ∨ a.isDigit = true) :
    lettersFrom (some case) cs = cs.map (·, false) := by
  induction cs generalizing case with
  | nil => rfl
  | cons c cs ih =>
    obtain ⟨hc, hcs⟩ := List.forall_mem_cons.mp h
    have hcapital := not_isUpper_of_small hc
    have hbegins : begins (some case) c cs.head? = false := by
      cases case with
      | fresh => rfl
      | lower => exact hcapital
      | upper => exact absurd rfl hcase
    rw [lettersFrom_cons (isAlphanum_of_small hc), Option.getD_some,
      ih (next_of_small hc hcase) hcs, hbegins]
    simp [hcapital, Char.toLower_eq_of_not_isUpper]

def underscored (letter : Char × Bool) : List Char :=
  if letter.2 then ['_', letter.1] else [letter.1]

theorem underscored_word {word : List Char} (h : IsSnakeWord word) :
    (letters word).flatMap underscored = '_' :: word := by
  obtain ⟨c, cs, rfl, hc, hcs⟩ := h
  have hcapital := not_isUpper_of_small (.inl hc)
  have hnext : Case.fresh.next c ≠ .upper := next_of_small (.inl hc) (by decide)
  rw [letters, lettersFrom_cons (isAlphanum_of_small (.inl hc)), Option.getD_none,
    lettersFrom_small hnext hcs]
  simp [underscored, begins, Char.isAlpha, hc, hcapital, Char.toLower_eq_of_not_isUpper,
    List.flatMap_map]

theorem underscored_snake {cs : List Char} (h : IsSnake cs) :
    (letters cs).flatMap underscored = '_' :: cs := by
  obtain ⟨parts, hne, hparts, rfl⟩ := h
  induction parts with
  | nil => exact absurd rfl hne
  | cons word parts ih =>
    obtain ⟨hword, hrest⟩ := List.forall_mem_cons.mp hparts
    cases parts with
    | nil => simpa using underscored_word hword
    | cons word' parts =>
      have hseparated : letters (word ++ '_' :: ['_'].intercalate (word' :: parts)) =
          letters word ++ letters (['_'].intercalate (word' :: parts)) :=
        lettersFrom_append_separator (by decide) word
      rw [List.intercalate_cons_cons, List.append_assoc, List.singleton_append, hseparated,
        List.flatMap_append, underscored_word hword, ih (by simp) hrest, List.cons_append]

/-- A text in snake case is recovered from what the scan finds in it. -/
theorem IsSnake.eq_of_letters {u v : List Char} (hu : IsSnake u) (hv : IsSnake v)
    (h : letters u = letters v) : u = v := by
  have hsame := underscored_snake hu
  rw [h, underscored_snake hv] at hsame
  exact (List.cons.inj hsame).2.symm

end Delegation.Text
