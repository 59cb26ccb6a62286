import Delegation.Proofs.Mistakes

namespace Delegation

namespace Field

/-- What is said about a mark of the field that has arguments or a value. -/
def MarkMistake (f : Field) (e : Failure) : Prop :=
  ∃ a ∈ f.attrs, a.isNamed ignoreName = true ∧ a.args ≠ .none ∧
    e = ⟨.ignoreArguments, Trees.hull a.content⟩

def Mistake (f : Field) (e : Failure) : Prop := f.MarkMistake e ∨ f.Malformed e

def withoutOptions (f : Field) : Field :=
  { f with attrs := f.attrs.filter fun a => !a.isNamed directiveName }

theorem mem_failures_iff (f : Field) (e : Failure) : e ∈ f.failures false ↔ f.MarkMistake e := by
  simp [failures, MarkMistake, List.mem_filterMap, Attr.ignoreFailure?_eq_some_iff]

theorem failures_withoutOptions (f : Field) :
    f.withoutOptions.failures false = f.failures false := by
  have hother (a : Attr) (h : a.isNamed directiveName = true) : a.ignoreFailure? = none := by
    rw [Attr.ignoreFailure?, if_neg]
    intro hignored
    have hsame := (Attr.fullName_of_isNamed h).symm.trans (Attr.fullName_of_isNamed hignored)
    exact absurd hsame (by decide)
  rw [failures, failures, withoutOptions, List.filterMap_filter]
  congr 1
  apply List.filterMap_congr
  intro a _
  cases h : a.isNamed directiveName with
  | true => simp [hother a h]
  | false => simp

end Field

def Reported (fields : List Field) (failures : List Failure) : Prop :=
  ∃ es, List.Forall₂ Field.Mistake fields es ∧ es.Sublist failures

theorem Reported.append {fields : List Field} {failures : List Failure}
    (h : Reported fields failures) (before : List Failure) :
    Reported fields (before ++ failures) := by
  obtain ⟨es, hes, hsub⟩ := h
  exact ⟨es, hes, hsub.trans (List.sublist_append_right before failures)⟩

/-- If every field is asked in turn, the wrong ones among them are reported. -/
theorem Reported.flatMap {fs fields : List Field} (hsub : fs.Sublist fields)
    (g : Field → List Failure) (hg : ∀ f ∈ fs, ∃ e ∈ g f, f.Mistake e) :
    Reported fs (fields.flatMap g) := by
  induction hsub with
  | slnil => exact ⟨[], .nil, .slnil⟩
  | cons f _ ih =>
    rw [List.flatMap_cons]
    exact (ih hg).append (g f)
  | cons_cons f _ ih =>
    obtain ⟨e, he, hmistake⟩ := hg f (List.mem_cons_self ..)
    obtain ⟨es, hes, hrest⟩ := ih fun f' hf' => hg f' (List.mem_cons_of_mem f hf')
    refine ⟨e :: es, .cons hmistake hes, ?_⟩
    rw [List.flatMap_cons]
    exact (List.singleton_sublist.mpr he).append hrest

namespace Declaration

section Named

variable {s : Struct} {span : Span} {fields : List Field} {trailing : Bool}
  (hbody : s.body = .named span fields trailing)

include hbody

theorem fieldFailures_named : (struct s).fieldFailures = fields.flatMap (Field.failures false) := by
  rw [fieldFailures, hbody]
  rfl

variable {directive : Directive} {parent : Ty} (hof : directive.of = some parent)

include hof

theorem failures_eq_nil_iff : directive.failures ++ (struct s).fieldFailures = [] ↔
    parent.NamesPath ∧ ∀ f ∈ fields, ∀ e, ¬ f.MarkMistake e := by
  have hparent : directive.failures = [] ↔ parent.NamesPath := by
    rw [Directive.failures, hof, ← Ty.isPlainPath_iff]
    simp
  rw [List.append_eq_nil_iff, hparent, fieldFailures_named hbody, List.flatMap_eq_nil_iff]
  simp only [List.eq_nil_iff_forall_not_mem, Field.mem_failures_iff]

theorem validate_ok (hpath : parent.NamesPath) (hmarks : ∀ f ∈ fields, ∀ e, ¬ f.MarkMistake e) :
    (struct s).validate directive = .ok () := by
  rw [validate, (failures_eq_nil_iff hbody hof).mpr ⟨hpath, hmarks⟩]
  rfl

variable (hd : Directive.ofAttrs s.attrs = .ok directive)

include hd

omit hbody hof in
theorem derive_of_failures {first : Failure} {more : List Failure}
    (h : directive.failures ++ (struct s).fieldFailures = first :: more) :
    derive (.struct s) = .error (.failures first more) := by
  apply derive_of_invalid (d := struct s) hd
  rw [validate, h]
  rfl

theorem marks_reported {fs : List Field} (hne : fs ≠ []) (hsub : fs.Sublist fields)
    (hmarks : ∀ f ∈ fs, ∃ e, f.MarkMistake e) : ∃ first more,
      derive (.struct s) = .error (.failures first more) ∧ Reported fs (first :: more) := by
  have hreported : Reported fs (directive.failures ++ (struct s).fieldFailures) := by
    rw [fieldFailures_named hbody]
    apply Reported.append
    apply Reported.flatMap hsub
    intro f hf
    obtain ⟨e, he⟩ := hmarks f hf
    exact ⟨e, (f.mem_failures_iff e).mpr he, .inl he⟩
  cases hfailures : directive.failures ++ (struct s).fieldFailures with
  | nil =>
    obtain ⟨f, hf⟩ := List.exists_mem_of_ne_nil fs hne
    obtain ⟨e, he⟩ := hmarks f hf
    exact absurd he (((failures_eq_nil_iff hbody hof).mp hfailures).2 f (hsub.subset hf) e)
  | cons first more =>
    rw [hfailures] at hreported
    exact ⟨first, more, derive_of_failures hd hfailures, hreported⟩

theorem options_reported (hpath : parent.NamesPath)
    (hmarks : ∀ f ∈ fields, ∀ e, ¬ f.MarkMistake e) (hnamed : ∀ fault, ¬ FailsToName fields fault)
    {fs : List Field} (hne : fs ≠ []) (hsub : fs.Sublist fields)
    (hmistakes : ∀ f ∈ fs, ∃ e, f.Mistake e) : ∃ first more,
      derive (.struct s) = .error (.failures first more) ∧ Reported fs (first :: more) := by
  have hfields : (struct s).namedFields = fields := by rw [namedFields, hbody]
  have hmalformed : ∀ f ∈ fs, ∃ e, f.Malformed e := by
    intro f hf
    obtain ⟨e, hmark | hmalformed⟩ := hmistakes f hf
    · exact absurd hmark (hmarks f (hsub.subset hf) e)
    · exact ⟨e, hmalformed⟩
  have hreported : Reported fs (fields.filterMap Field.malformed?) := by
    rw [List.filterMap_eq_flatMap_toList]
    apply Reported.flatMap hsub
    intro f hf
    obtain ⟨e, he⟩ := hmalformed f hf
    exact ⟨e, by simpa using (f.malformed?_eq_some_iff e).mpr he, .inr he⟩
  have hvalid := validate_ok hbody hof hpath hmarks
  obtain ⟨-, hread⟩ := derive_of_fields (d := struct s) hd hvalid (by rw [hof]; rfl)
  -- the option lists are reached, and every field can be named
  obtain ⟨hreport, -⟩ := hread (by rwa [hfields])
  have hinOrder := malformed_inOrder fields
  rw [hfields] at hreport
  cases hfailures : fields.filterMap Field.malformed? with
  | nil =>
    obtain ⟨es, hes, hnone⟩ := hreported
    rw [hfailures, List.sublist_nil] at hnone
    rw [hnone, List.forall₂_nil_right_iff] at hes
    exact absurd hes hne
  | cons first more =>
    rw [hfailures] at hreported hinOrder
    exact ⟨first, more, hreport first more hinOrder, hreported⟩

theorem derive_withoutOptions
    (h : ¬ (parent.NamesPath ∧ ∀ f ∈ fields, ∀ e, ¬ f.MarkMistake e)) :
    (∃ first more, derive (.struct s) = .error (.failures first more)) ∧
    derive (.struct s) = derive
      (.struct { s with body := .named span (fields.map Field.withoutOptions) trailing }) := by
  let t : Struct := { s with body := .named span (fields.map Field.withoutOptions) trailing }
  have hsame : (struct t).fieldFailures = (struct s).fieldFailures := by
    rw [fieldFailures_named hbody, fieldFailures_named (s := t) rfl, List.flatMap_map]
    congr 1
    funext f
    exact f.failures_withoutOptions
  -- both reports end before the option lists are read
  have hread : Directive.ofAttrs t.attrs = .ok directive := hd
  rw [← failures_eq_nil_iff hbody hof] at h
  obtain ⟨first, more, hfailures⟩ := List.exists_cons_of_ne_nil h
  have hfailures' : directive.failures ++ (struct t).fieldFailures = first :: more := by
    rw [hsame, hfailures]
  rw [derive_of_failures hd hfailures, derive_of_failures hread hfailures']
  exact ⟨⟨first, more, rfl⟩, rfl⟩

/-- Mistakes in the helper attributes of fields are reported together, a message for each field, if
they are all in marks, or if no mark and not the parent is wrong and every field can be named. If
the parent or a mark is wrong, nothing is said about options: the report is the same without them.
If none is wrong and a field cannot be named, only that is said. -/
theorem mistakes_together :
    (∀ fs : List Field, fs ≠ [] → fs.Sublist fields → (∀ f ∈ fs, ∃ e, f.Mistake e) →
      (∀ f ∈ fs, ∃ e, f.MarkMistake e) ∨ parent.NamesPath ∧
        (∀ f ∈ fields, ∀ e, ¬ f.MarkMistake e) ∧ (∀ fault, ¬ FailsToName fields fault) →
      ∃ first more, derive (.struct s) = .error (.failures first more) ∧
        Reported fs (first :: more)) ∧
    (¬ (parent.NamesPath ∧ ∀ f ∈ fields, ∀ e, ¬ f.MarkMistake e) →
      (∃ first more, derive (.struct s) = .error (.failures first more)) ∧
      derive (.struct s) = derive
        (.struct { s with body := .named span (fields.map Field.withoutOptions) trailing })) ∧
    (parent.NamesPath → (∀ f ∈ fields, ∀ e, ¬ f.MarkMistake e) → ∀ fault,
      FailsToName fields fault → derive (.struct s) = .error (.name fault)) := by
  refine ⟨fun fs hne hsub hmistakes hcase => ?_, derive_withoutOptions hbody hof hd,
    fun hpath hmarks fault hfault => ?_⟩
  · obtain hmarks | ⟨hpath, hmarks, hnamed⟩ := hcase
    · exact marks_reported hbody hof hd hne hsub hmarks
    · exact options_reported hbody hof hd hpath hmarks hnamed hne hsub hmistakes
  · have hfields : (struct s).namedFields = fields := by rw [namedFields, hbody]
    obtain ⟨hfails, -⟩ := derive_of_fields (d := struct s) hd (validate_ok hbody hof hpath hmarks)
      (by rw [hof]; rfl)
    exact hfails fault (by rwa [hfields])

end Named

def badMark (name : String) : Field :=
  sampleField [sampleAttr ignoreName (.list .paren [Code.word "x"] .made)] name ["u8"]

theorem fieldsSample_directive (fields : List Field) :
    Directive.ofAttrs (fieldsSample fields).attrs =
      .ok ⟨some (.ofIdent ⟨"TestReducer", .made⟩), none⟩ := rfl

theorem mistakes_together_sample : ∃ first more,
    derive (.struct (fieldsSample [unknownOption "a", unknownOption "b"])) =
      .error (.failures first more) ∧
    Reported [unknownOption "a", unknownOption "b"] (first :: more) := by
  obtain ⟨htogether, -⟩ := mistakes_together (s := fieldsSample [unknownOption "a",
    unknownOption "b"]) rfl rfl (fieldsSample_directive _)
  have hmalformed (name : String) : ∃ e, (unknownOption name).Mistake e :=
    ⟨_, .inr ((Field.malformed_iff _ _).mpr rfl)⟩
  have hclean (name : String) (e : Failure) : ¬ (unknownOption name).MarkMistake e := by
    rw [← Field.mem_failures_iff]
    exact List.not_mem_nil
  refine htogether _ (by simp) (.refl _) ?_ (.inr ⟨⟨_, .bare⟩, ?_, ?_⟩)
  · simpa using ⟨hmalformed "a", hmalformed "b"⟩
  · simpa using ⟨hclean "a", hclean "b"⟩
  · intro fault hfault
    cases readDelegates_error hfault

/-- Beside a mark with arguments, an unknown option of another field is not reported. -/
theorem not_mistakes_together : ¬ ∀ (s : Struct) span fields trailing directive parent
    (fs : List Field), s.body = .named span fields trailing →
    Directive.ofAttrs s.attrs = .ok directive → directive.of = some parent →
    fs.Sublist fields → (∀ f ∈ fs, ∃ e, f.Mistake e) → ∃ first more,
      derive (.struct s) = .error (.failures first more) ∧ Reported fs (first :: more) := by
  intro h
  have hmistakes : ∀ f ∈ [badMark "a", unknownOption "b"], ∃ e, f.Mistake e := by
    have hmark : ∃ e, (badMark "a").Mistake e :=
      ⟨_, .inl ((Field.mem_failures_iff _ _).mp (List.mem_singleton_self _))⟩
    have hoption : ∃ e, (unknownOption "b").Mistake e :=
      ⟨_, .inr ((Field.malformed_iff _ _).mpr rfl)⟩
    simpa using ⟨hmark, hoption⟩
  obtain ⟨first, more, herror, es, hes, hsub⟩ := h
    (fieldsSample [badMark "a", unknownOption "b"]) _ _ _ _ _ _ rfl (fieldsSample_directive _) rfl
    (.refl _) hmistakes
  have hone : more = [] := by
    cases herror
    rfl
  have htwo : es.length = 2 := hes.length_eq.symm
  have hshort : es.length ≤ 1 := by
    rw [hone] at hsub
    exact hsub.length_le
  omega

end Declaration

end Delegation
