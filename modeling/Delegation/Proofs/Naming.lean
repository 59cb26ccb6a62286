import Delegation.Proofs.CamelCase
import Delegation.Text.Quoted
import Delegation.VariantName

namespace Delegation

namespace Text

section Classes

variable {c : Char}

theorem toNat_of_isAlphanum (h : c.isAlphanum = true) :
    48 ≤ c.toNat ∧ c.toNat ≤ 57 ∨ 65 ≤ c.toNat ∧ c.toNat ≤ 90 ∨ 97 ≤ c.toNat ∧ c.toNat ≤ 122 := by
  have hclasses : (65 ≤ c.toNat ∧ c.toNat ≤ 90 ∨ 97 ≤ c.toNat ∧ c.toNat ≤ 122) ∨
      48 ≤ c.toNat ∧ c.toNat ≤ 57 := by
    simpa [Char.isAlphanum, Char.isAlpha, Char.isUpper, Char.isLower, Char.isDigit,
      UInt32.le_iff_toNat_le] using h
  omega

theorem isAlpha_eq_not_isDigit (h : c.isAlphanum = true) : c.isAlpha = !c.isDigit := by
  cases hdigit : c.isDigit with
  | false => simpa [Char.isAlphanum, hdigit] using h
  | true => rw [not_isAlpha_of_isDigit hdigit, Bool.not_true]

theorem isAlphanum_toLower (c : Char) : c.toLower.isAlphanum = c.isAlphanum := by
  by_cases hcapital : c.isUpper = true
  · have halpha : c.isAlpha = true := by simp [Char.isAlpha, hcapital]
    simp [Char.isAlphanum, halpha]
  · rw [Char.toLower_eq_of_not_isUpper hcapital]

theorem isIdentStart_of_isAlphanum (h : c.isAlphanum = true) : isIdentStart c = c.isAlpha := by
  have hascii : ¬ 128 ≤ c.toNat := by
    have hrange := toNat_of_isAlphanum h
    omega
  have hconnector : c ≠ '_' := by
    rintro rfl
    exact absurd h (by decide)
  simp [isIdentStart, hascii, hconnector]

theorem hidden_bounds : ∀ r ∈ hiddenRanges, r.2 < 32 ∨ 127 ≤ r.1 := by decide +kernel

theorem isHidden_eq_false (hlow : 32 ≤ c.toNat) (hhigh : c.toNat < 127) : isHidden c = false := by
  rw [isHidden, inRanges, List.any_eq_false]
  intro r hr hin
  have hbounds := hidden_bounds r hr
  simp only [Bool.and_eq_true, decide_eq_true_eq] at hin
  omega

theorem escape_of_isAlphanum (h : c.isAlphanum = true) (next : Option Char) :
    escape c next = [c] := by
  unfold escape
  split
  case h_7 =>
    have hrange := toNat_of_isAlphanum h
    rw [isHidden_eq_false (by omega) (by omega), if_neg Bool.false_ne_true]
  -- the characters with escapes of their own are no letters or digits
  all_goals exact absurd h (by decide)

end Classes

theorem quoted_of_isAlphanum {cs : List Char} (h : ∀ c ∈ cs, c.isAlphanum = true) :
    quoted (String.ofList cs) = "\"" ++ String.ofList cs ++ "\"" := by
  have hescape : escapeAll cs = cs := by
    induction cs with
    | nil => rfl
    | cons c cs ih =>
      obtain ⟨hc, hcs⟩ := List.forall_mem_cons.mp h
      rw [escapeAll, escape_of_isAlphanum hc, ih hcs, List.singleton_append]
  rw [quoted, String.toList_ofList, hescape, String.ofList_append]
  simp

/-- What is written has the letters and digits of the text, in their order. -/
theorem map_toLower_upperCamel (cs : List Char) :
    (upperCamel cs).map Char.toLower = (cs.filter Char.isAlphanum).map Char.toLower := by
  have hread := congrArg (List.map Prod.fst) (read_lettersFrom none cs)
  rwa [map_fst_lettersFrom, ← letters, ← upperCamel_eq, List.map_map] at hread

theorem isAlphanum_of_mem_upperCamel {cs : List Char} {c : Char} (h : c ∈ upperCamel cs) :
    c.isAlphanum = true := by
  have hmem : c.toLower ∈ (cs.filter Char.isAlphanum).map Char.toLower := by
    rw [← map_toLower_upperCamel]
    exact List.mem_map_of_mem h
  obtain ⟨a, ha, hsame⟩ := List.mem_map.mp hmem
  rw [← isAlphanum_toLower, ← hsame, isAlphanum_toLower]
  exact (List.mem_filter.mp ha).2

theorem head?_upperCamel (cs : List Char) :
    (upperCamel cs).head? = (cs.filter Char.isAlphanum).head?.map Char.toUpper := by
  rw [upperCamel_eq]
  induction cs with
  | nil => rfl
  | cons c cs ih =>
    by_cases hc : c.isAlphanum = true
    · rw [letters, lettersFrom_cons hc, List.filter_cons_of_pos hc, List.map_cons, write_letter]
      rfl
    · rw [letters, lettersFrom_separator (by simpa using hc), List.filter_cons_of_neg hc]
      exact ih

theorem forall_isDigit_iff {cs : List Char} (h : ∀ c ∈ cs, c.isAlphanum = true) :
    (∀ c ∈ cs, c.isDigit = true) ↔ ∀ c ∈ cs.map Char.toLower, c.isAlpha = false := by
  simp only [List.forall_mem_map, Char.isAlpha_toLower_eq_isAlpha]
  refine forall₂_congr fun c hc => ?_
  rw [isAlpha_eq_not_isDigit (h c hc), Bool.not_eq_false']

theorem upperCamel_digits_iff (cs : List Char) : (∀ c ∈ upperCamel cs, c.isDigit = true) ↔
    ∀ c ∈ cs.filter Char.isAlphanum, c.isDigit = true := by
  rw [forall_isDigit_iff fun c => isAlphanum_of_mem_upperCamel, map_toLower_upperCamel,
    ← forall_isDigit_iff fun c hc => (List.mem_filter.mp hc).2]

theorem isIdent_cons {c : Char} {cs : List Char} (h : ∀ a ∈ c :: cs, a.isAlphanum = true) :
    isIdent (c :: cs) = c.isAlpha := by
  obtain ⟨hc, hcs⟩ := List.forall_mem_cons.mp h
  have hrest : cs.all isIdentContinue = true := by
    rw [List.all_eq_true]
    intro a ha
    simp [isIdentContinue, hcs a ha]
  rw [isIdent, isIdentStart_of_isAlphanum hc, hrest, Bool.and_true]

def initialCapital : List Char → List Char
  | [] => []
  | c :: cs => c.toUpper :: cs

/-- What stands between underscores, where there is something. -/
def underscoredWords (cs : List Char) : List (List Char) :=
  (cs.splitOn '_').filter fun word => !word.isEmpty

section Underscores

variable {word : List Char} (hnone : '_' ∉ word)

include hnone

theorem written_word : (underscoredWords word).flatMap initialCapital = initialCapital word := by
  rw [underscoredWords, List.splitOn_eq_singleton hnone]
  cases word <;> simp [initialCapital]

theorem written_append_underscore (cs : List Char) :
    (underscoredWords (word ++ '_' :: cs)).flatMap initialCapital =
      initialCapital word ++ (underscoredWords cs).flatMap initialCapital := by
  rw [underscoredWords, List.splitOn_append_cons_self_of_not_mem hnone, underscoredWords]
  cases word <;> simp [initialCapital]

end Underscores

theorem upperCamel_append_underscore (word cs : List Char) :
    upperCamel (word ++ '_' :: cs) = upperCamel word ++ upperCamel cs := by
  rw [upperCamel_eq, upperCamel_eq, upperCamel_eq, letters,
    lettersFrom_append_separator (by decide), List.map_append]
  rfl

theorem upperCamel_small {word : List Char}
    (h : ∀ a ∈ word, a.isLower = true ∨ a.isDigit = true) :
    upperCamel word = initialCapital word := by
  rw [upperCamel_eq]
  cases word with
  | nil => rfl
  | cons c cs =>
    obtain ⟨hc, hcs⟩ := List.forall_mem_cons.mp h
    have hnext : Case.fresh.next c ≠ .upper := next_of_small hc (by decide)
    rw [letters, lettersFrom_cons (isAlphanum_of_small hc), Option.getD_none,
      lettersFrom_small hnext hcs, List.map_cons, write_letter, List.map_map]
    simp [initialCapital, begins, Function.comp_def, write]

/-- Small letters, digits and underscores are written word by word. -/
theorem upperCamel_underscored (cs : List Char)
    (h : ∀ c ∈ cs, c.isLower = true ∨ c.isDigit = true ∨ c = '_') :
    upperCamel cs = (underscoredWords cs).flatMap initialCapital := by
  have hsmall {word : List Char} (hsub : word ⊆ cs) (hnone : '_' ∉ word) :
      upperCamel word = initialCapital word := by
    refine upperCamel_small fun c hc => ?_
    obtain hlower | hdigit | rfl := h c (hsub hc)
    · exact .inl hlower
    · exact .inr hdigit
    · exact absurd hc hnone
  by_cases hmem : '_' ∈ cs
  · -- the first underscore ends the first word
    obtain ⟨word, rest, hcs, hnone⟩ := List.eq_append_cons_of_mem hmem
    have hshort : rest.length < cs.length := by
      rw [hcs, List.length_append, List.length_cons]
      omega
    have hrest := upperCamel_underscored rest fun c hc => h c (by simp [hcs, hc])
    have hword := hsmall (by simp [hcs]) hnone
    rw [hcs, upperCamel_append_underscore, hword, hrest, written_append_underscore hnone]
  · rw [written_word hmem, hsmall (List.Subset.refl cs) hmem]
termination_by cs.length

end Text

open Text

def fieldLetters (name : String) : List Char := (unraw name.toList).filter Char.isAlphanum

section Fields

variable {name : String}

theorem variantName_of_nil (h : fieldLetters name = []) : variantName name = .error .empty := by
  have hnone : upperCamel (unraw name.toList) = [] := by
    have hsame := map_toLower_upperCamel (unraw name.toList)
    rw [← fieldLetters, h] at hsame
    exact List.map_eq_nil_iff.mp hsame
  rw [variantName, hnone]
  rfl

theorem upperCamel_of_cons {c : Char} {cs : List Char} (h : fieldLetters name = c :: cs) :
    ∃ rest, upperCamel (unraw name.toList) = c.toUpper :: rest := by
  have hhead := head?_upperCamel (unraw name.toList)
  rw [← fieldLetters, h, List.head?_cons, Option.map_some] at hhead
  exact List.head?_eq_some_iff.mp hhead

theorem isIdent_upperCamel {c : Char} {cs : List Char} (h : fieldLetters name = c :: cs) :
    isIdent (upperCamel (unraw name.toList)) = c.isAlpha := by
  obtain ⟨rest, hrest⟩ := upperCamel_of_cons h
  have halnum : ∀ a ∈ c.toUpper :: rest, a.isAlphanum = true := fun a ha =>
    isAlphanum_of_mem_upperCamel (hrest ▸ ha)
  rw [hrest, isIdent_cons halnum, ← Char.isAlpha_toLower_eq_isAlpha,
    Char.toLower_toUpper_eq_toLower, Char.isAlpha_toLower_eq_isAlpha]

/-- The first letter or digit decides, unless there are digits only. -/
theorem variantName_of_cons {c : Char} {cs : List Char} (h : fieldLetters name = c :: cs) :
    variantName name =
      let text := String.ofList (upperCamel (unraw name.toList))
      if ∀ a ∈ c :: cs, a.isDigit = true then .error .number
      else if c.isAlpha = true then .ok text else .error (.invalid text) := by
  obtain ⟨rest, hrest⟩ := upperCamel_of_cons h
  have hdigits := upperCamel_digits_iff (unraw name.toList)
  have hident := isIdent_upperCamel h
  rw [← fieldLetters, h, hrest] at hdigits
  rw [hrest] at hident
  simp only [variantName, checkName, hrest, List.isEmpty_cons, Bool.false_eq_true, if_false,
    List.all_eq_true, hdigits, hident]

theorem isAlpha_of_fieldLetters {c : Char} {cs : List Char} (h : fieldLetters name = c :: cs) :
    c.isAlpha = !c.isDigit := by
  have hmem : c ∈ fieldLetters name := h ▸ List.mem_cons_self
  exact isAlpha_eq_not_isDigit (List.mem_filter.mp hmem).2

theorem variantName_eq_empty_iff : variantName name = .error .empty ↔ fieldLetters name = [] := by
  refine ⟨fun hname => ?_, variantName_of_nil⟩
  cases h : fieldLetters name with
  | nil => rfl
  | cons c cs =>
    rw [variantName_of_cons h] at hname
    split_ifs at hname <;> cases hname

theorem variantName_eq_number_iff : variantName name = .error .number ↔
    fieldLetters name ≠ [] ∧ ∀ c ∈ fieldLetters name, c.isDigit = true := by
  cases h : fieldLetters name with
  | nil => simp [variantName_of_nil h]
  | cons c cs =>
    rw [variantName_of_cons h]
    split_ifs with hdigits halpha
    · simpa using hdigits
    · simpa using hdigits
    · simpa using hdigits

theorem variantName_eq_invalid_iff {text : String} : variantName name = .error (.invalid text) ↔
    text = String.ofList (upperCamel (unraw name.toList)) ∧
      (∃ c cs, fieldLetters name = c :: cs ∧ c.isDigit = true) ∧
      ∃ c ∈ fieldLetters name, c.isDigit = false := by
  cases h : fieldLetters name with
  | nil => simp [variantName_of_nil h]
  | cons c cs =>
    have hfirst := isAlpha_of_fieldLetters h
    rw [variantName_of_cons h]
    split_ifs with hdigits halpha
    · simpa using fun _ _ => by simpa using hdigits
    · have hletter : c.isDigit = false := by simpa [halpha] using hfirst
      simp [hletter]
    · have hdigit : c.isDigit = true := by simpa [halpha] using hfirst
      have hmixed : ∃ a ∈ c :: cs, a.isDigit = false := by
        simpa only [not_forall, exists_prop, Bool.not_eq_true] using hdigits
      constructor
      · intro htext
        exact ⟨(NameFault.invalid.inj (Except.error.inj htext)).symm, ⟨c, cs, rfl, hdigit⟩, hmixed⟩
      · rintro ⟨rfl, -⟩
        rfl

theorem variantName_eq_ok_iff {text : String} : variantName name = .ok text ↔
    text = String.ofList (upperCamel (unraw name.toList)) ∧
      ∃ c cs, fieldLetters name = c :: cs ∧ c.isAlpha = true := by
  cases h : fieldLetters name with
  | nil => simp [variantName_of_nil h]
  | cons c cs =>
    have hfirst := isAlpha_of_fieldLetters h
    rw [variantName_of_cons h]
    split_ifs with hdigits halpha
    · have hdigit : c.isDigit = true := hdigits c List.mem_cons_self
      simp [hfirst, hdigit]
    · constructor
      · intro htext
        exact ⟨(Except.ok.inj htext).symm, c, cs, rfl, halpha⟩
      · rintro ⟨rfl, -⟩
        rfl
    · simp [halpha]

end Fields

/-- Names that give no variant are those without a letter or digit and those whose first one is a
digit, and the reason says which. Otherwise the variant has the letters and digits of the name, case
aside, and begins with a capital, and `r#` before the name is not looked at. -/
theorem variantName_keeps_letters (name : String) :
    (variantName name = .error .empty ↔ fieldLetters name = []) ∧
    (variantName name = .error .number ↔
      fieldLetters name ≠ [] ∧ ∀ c ∈ fieldLetters name, c.isDigit = true) ∧
    (∀ text, variantName name = .error (.invalid text) ↔
      text = String.ofList (upperCamel (unraw name.toList)) ∧
        (∃ c cs, fieldLetters name = c :: cs ∧ c.isDigit = true) ∧
        ∃ c ∈ fieldLetters name, c.isDigit = false) ∧
    (∀ text, variantName name = .error (.invalid text) →
      (NameFault.invalid text).message = quoted text ++ " is not a valid Ident") ∧
    ((∃ text, variantName name = .ok text) ↔
      ∃ c cs, fieldLetters name = c :: cs ∧ c.isAlpha = true) ∧
    (∀ text, variantName name = .ok text →
      isIdent text.toList = true ∧
      text.toList.map Char.toLower = (fieldLetters name).map Char.toLower ∧
      (∃ c cs, text.toList = c :: cs ∧ c.isUpper = true) ∧
      ((∀ c ∈ unraw name.toList, c.isLower = true ∨ c.isDigit = true ∨ c = '_') →
        text.toList = (underscoredWords (unraw name.toList)).flatMap initialCapital)) ∧
    ('#' ∉ name.toList → variantName ("r#" ++ name) = variantName name) := by
  refine ⟨variantName_eq_empty_iff, variantName_eq_number_iff, fun _ => variantName_eq_invalid_iff,
    fun text h => ?_, ?_, fun text h => ?_, fun hplain => ?_⟩
  · obtain ⟨rfl, -⟩ := variantName_eq_invalid_iff.mp h
    have hjoined : "\" is not a valid Ident" = "\"" ++ " is not a valid Ident" := rfl
    rw [NameFault.message, quoted_of_isAlphanum fun c => isAlphanum_of_mem_upperCamel, hjoined,
      ← String.append_assoc]
  · simp only [variantName_eq_ok_iff, exists_eq_left]
  · obtain ⟨rfl, c, cs, hletters, halpha⟩ := variantName_eq_ok_iff.mp h
    obtain ⟨rest, hrest⟩ := upperCamel_of_cons hletters
    rw [String.toList_ofList]
    refine ⟨?_, map_toLower_upperCamel _, ⟨c.toUpper, rest, hrest, ?_⟩, upperCamel_underscored _⟩
    · rw [isIdent_upperCamel hletters, halpha]
    · rwa [Char.isUpper_toUpper_eq_isAlpha]
  · -- a plain name has no mark to drop, and the marked one becomes the plain one
    have hraw : unraw ("r#" ++ name).toList = name.toList := by
      rw [String.toList_append]
      rfl
    have hname : unraw name.toList = name.toList := by
      unfold unraw
      split
      next rest hrest => exact absurd (by simp [hrest]) hplain
      next => rfl
    rw [variantName, variantName, hraw, hname]

theorem variantName_keeps_letters_sample : variantName "r#type_2list" = .ok "Type2list" ∧
    variantName "_1a" = .error (.invalid "1a") := by
  constructor
  · obtain ⟨-, -, -, -, hnamed, hletters, -⟩ := variantName_keeps_letters "r#type_2list"
    obtain ⟨text, htext⟩ := hnamed.mpr ⟨'t', "ype2list".toList, rfl, rfl⟩
    obtain ⟨-, -, -, hwords⟩ := hletters text htext
    have hlist : text.toList = "Type2list".toList := (hwords (by simp [unraw])).trans rfl
    rw [htext, String.toList_inj.mp hlist]
  · obtain ⟨-, -, hinvalid, -⟩ := variantName_keeps_letters "_1a"
    exact (hinvalid "1a").mpr ⟨rfl, ⟨'1', ['a'], rfl, rfl⟩, 'a', .tail '1' (.head []), rfl⟩

end Delegation
