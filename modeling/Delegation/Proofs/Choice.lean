import Delegation.Proofs.Additions

namespace Delegation

namespace Impl

def OfReducer (i : Impl) : Prop :=
  ∃ p last, i.trait = some p ∧ p.segments.getLast? = some last ∧ last.name.name = "Reducer"

/-- The type of the block is `name`, whatever its arguments and whatever stands around it. -/
def IsFor (i : Impl) (name : String) : Prop :=
  ∃ s : Segment, Ty.Wraps (.path (.plain ⟨none, [s]⟩)) i.self ∧ s.name.name = name

/-- The type of the block is `name` and nothing else. -/
def IsPlainlyFor (i : Impl) (name : String) : Prop :=
  ∃ n : Ident, i.self = .ofIdent n ∧ n.name = name

end Impl

def Implements (items : List Item) (s : Struct) : Prop :=
  ∃ i, .impl i ∈ items ∧ i.negative = none ∧ i.OfReducer ∧ i.IsFor s.name.name

/-- The items hold a block that is taken for an implementation of `Reducer` for the struct. -/
def SeemsToImplement (items : List Item) (s : Struct) : Prop :=
  ∃ i, .impl i ∈ items ∧ i.OfReducer ∧ i.IsPlainlyFor s.name.name

def IsFirst (items : List Item) (P : Struct → Prop) (s : Struct) : Prop :=
  P s ∧ ∃ before after, items = before ++ .struct s :: after ∧ ∀ t, .struct t ∈ before → ¬ P t

/-- `s` is the first candidate that is implemented, or the first candidate if none is. -/
def Chosen (items : List Item) (Implemented : Struct → Prop) (s : Struct) : Prop :=
  IsFirst items (fun t => EndsWithReducer t.name ∧ Implemented t) s ∨
    (∀ t, .struct t ∈ items → EndsWithReducer t.name → ¬ Implemented t) ∧
      IsFirst items (fun t => EndsWithReducer t.name) s

def Struct.lead (s : Struct) (args : Directive) (head : ModuleHead) (items : List Item) :
    Except Failure Item :=
  if s.generics.params.isEmpty then
    .ok (.module head (items.map (Item.decorate args (.ofIdent s.name))))
  else .error ⟨.genericReducer, Trees.hull s.generics.tokens⟩

theorem IsFirst.mem {items : List Item} {P : Struct → Prop} {s : Struct} (h : IsFirst items P s) :
    .struct s ∈ items := by
  obtain ⟨-, before, after, rfl, -⟩ := h
  simp

section Structs

variable {items : List Item} {p : Struct → Bool} {P : Struct → Prop} (h : ∀ t, p t = true ↔ P t)

include h

theorem find?_structs_eq_some_iff {s : Struct} :
    (items.filterMap Item.struct?).find? p = some s ↔ IsFirst items P s := by
  rw [List.find?_filterMap, Option.bind_eq_some_iff, IsFirst, ← h]
  simp only [List.find?_eq_some_iff_append, Item.struct?_eq_some_iff]
  constructor
  · rintro ⟨_, ⟨hs, before, after, rfl, hbefore⟩, rfl⟩
    refine ⟨by simpa [Item.struct?] using hs, before, after, rfl, fun t ht => ?_⟩
    rw [← h]
    simpa [Item.struct?] using hbefore _ ht
  · rintro ⟨hs, before, after, rfl, hbefore⟩
    refine ⟨_, ⟨by simpa [Item.struct?] using hs, before, after, rfl, fun i hi => ?_⟩, rfl⟩
    cases i with
    | struct t => simpa [Item.struct?, ← h] using hbefore t hi
    | impl | module | fileModule | other => simp [Item.struct?]

theorem find?_structs_eq_none_iff :
    (items.filterMap Item.struct?).find? p = none ↔ ∀ t, .struct t ∈ items → ¬ P t := by
  have hmem (t : Struct) : t ∈ items.filterMap Item.struct? ↔ .struct t ∈ items := by
    simp [List.mem_filterMap, Item.struct?_eq_some_iff]
  simp only [List.find?_eq_none, hmem, h]

end Structs

theorem Path.isName_iff (p : Path) (name : String) :
    p.isName name = true ↔ ∃ n : Ident, p = .ofIdent n ∧ n.name = name := by
  constructor
  · intro h
    unfold isName at h
    split at h
    next n => exact ⟨n, rfl, by simpa using h⟩
    next => cases h
  · rintro ⟨n, rfl, rfl⟩
    exact beq_self_eq_true n.name

theorem Item.implementsFor_iff {name : String} {item : Item} : item.implementsFor name = true ↔
    ∃ i, item = .impl i ∧ i.OfReducer ∧ i.IsPlainlyFor name := by
  cases item with
  | impl i =>
    have hblock : (∃ i', impl i = impl i' ∧ i'.OfReducer ∧ i'.IsPlainlyFor name) ↔
        i.OfReducer ∧ i.IsPlainlyFor name := by simp
    rw [hblock, implementsFor, Bool.and_eq_true]
    refine and_congr (by simp [Impl.OfReducer, Option.any_eq_true]) ?_
    rw [Impl.IsPlainlyFor]
    split
    next p hp =>
      rw [hp, p.isName_iff]
      simp [Ty.ofIdent]
    next hp =>
      rw [Bool.false_eq_true, false_iff]
      rintro ⟨n, hn, -⟩
      exact hp _ hn
  | struct | module | fileModule | other => simp [implementsFor]

theorem any_implementsFor_iff {items : List Item} {s : Struct} :
    items.any (Item.implementsFor s.name.name) = true ↔ SeemsToImplement items s := by
  simp only [List.any_eq_true, Item.implementsFor_iff, SeemsToImplement]
  constructor
  · rintro ⟨_, hmem, i, rfl, hi⟩
    exact ⟨i, hmem, hi⟩
  · rintro ⟨i, hmem, hi⟩
    exact ⟨_, hmem, i, rfl, hi⟩

theorem chosen?_eq_some_iff {items : List Item} {s : Struct} :
    chosen? items = some s ↔ Chosen items (SeemsToImplement items) s := by
  have hcandidate (t : Struct) : isReducerName t.name.name = true ↔ EndsWithReducer t.name :=
    isReducerName_iff t.name
  have himplemented (t : Struct) : decide (isReducerName t.name.name = true ∧
      items.any (Item.implementsFor t.name.name) = true) = true ↔
      EndsWithReducer t.name ∧ SeemsToImplement items t := by
    rw [decide_eq_true_iff, hcandidate, any_implementsFor_iff]
  rw [chosen?, candidates, List.find?_filter, List.head?_filter, Chosen,
    ← find?_structs_eq_some_iff hcandidate, ← find?_structs_eq_some_iff himplemented]
  cases hfind : (items.filterMap Item.struct?).find? fun t =>
      decide (isReducerName t.name.name = true ∧
        items.any (Item.implementsFor t.name.name) = true) with
  | some t =>
    have hfirst := (find?_structs_eq_some_iff himplemented).mp hfind
    refine ⟨.inl, ?_⟩
    rintro (h | ⟨hnone, -⟩)
    · exact h
    · exact absurd hfirst.1.2 (hnone t hfirst.mem hfirst.1.1)
  | none =>
    have hnone := (find?_structs_eq_none_iff himplemented).mp hfind
    simp only [not_and] at hnone
    simp only [reduceCtorEq, false_or]
    exact ⟨fun h => ⟨hnone, h⟩, fun h => h.2⟩

theorem Chosen.congr {items : List Item} {P Q : Struct → Prop} {s : Struct}
    (h : ∀ t, .struct t ∈ items → EndsWithReducer t.name → (P t ↔ Q t)) (hs : Chosen items P s) :
    Chosen items Q s := by
  obtain ⟨⟨hs, hP⟩, before, after, rfl, hbefore⟩ | ⟨hnone, hs⟩ := hs
  · refine .inl ⟨⟨hs, (h s (by simp) hs).mp hP⟩, before, after, rfl, fun t ht => ?_⟩
    rintro ⟨ht', hQ⟩
    exact hbefore t ht ⟨ht', (h t (List.mem_append_left _ ht) ht').mpr hQ⟩
  · exact .inr ⟨fun t ht ht' hQ => hnone t ht ht' ((h t ht ht').mpr hQ), hs⟩

theorem exists_chosen {items : List Item} {t : Struct} (ht : .struct t ∈ items)
    (hreducer : EndsWithReducer t.name) : ∃ s, chosen? items = some s := by
  obtain ⟨s, hs, -⟩ | ⟨-, hnone⟩ := chosen?_cases items
  · exact ⟨s, hs⟩
  · exact absurd hreducer (hnone t ht)

theorem Impl.IsPlainlyFor.isFor {i : Impl} {name : String} (h : i.IsPlainlyFor name) :
    i.IsFor name := by
  obtain ⟨n, hself, hname⟩ := h
  exact ⟨.plain n, hself ▸ .bare, hname⟩

theorem implements_iff {items : List Item} {s : Struct} (h : ∀ i, .impl i ∈ items → i.OfReducer →
    i.IsFor s.name.name → i.negative = none ∧ i.IsPlainlyFor s.name.name) :
    Implements items s ↔ SeemsToImplement items s := by
  constructor
  · rintro ⟨i, hi, -, hreducer, hfor⟩
    exact ⟨i, hi, hreducer, (h i hi hreducer hfor).2⟩
  · rintro ⟨i, hi, hreducer, hplain⟩
    exact ⟨i, hi, (h i hi hreducer hplain.isFor).1, hreducer, hplain.isFor⟩

theorem Item.attach_eq_lead {args : Directive} (hof : args.of = none) (head : ModuleHead)
    {items : List Item} {s : Struct} (h : Chosen items (SeemsToImplement items) s) :
    (Item.module head items).attach args = s.lead args head items := by
  have hreducer : reducerOf args items =
      if s.generics.params.isEmpty then .ok (some (.ofIdent s.name))
      else .error ⟨.genericReducer, Trees.hull s.generics.tokens⟩ := by
    rw [reducerOf, hof, findReducer, chosen?_eq_some_iff.mpr h]
  rw [Item.attach, Delegation.attach, hreducer, Struct.lead]
  split <;> rfl

/-- A struct that leads is named by the directives that are added; one with parameters cannot be. -/
structure Struct.Leads (s : Struct) (args : Directive) (head : ModuleHead) (items : List Item) :
    Prop where
  generic : s.generics.params ≠ [] →
    s.lead args head items = .error ⟨.genericReducer, Trees.hull s.generics.tokens⟩
  adds : s.generics.params = [] → ∃ items', s.lead args head items = .ok (.module head items') ∧
    List.Forall₂ (Item.Adds args (.ofIdent s.name)) items items'

theorem Struct.leads (s : Struct) (args : Directive) (head : ModuleHead) (items : List Item) :
    s.Leads args head items where
  generic h := by simp [lead, h]
  adds h := ⟨_, by simp [lead, h], forall₂_adds args _ items⟩

/-- Without a given reducer the structs of a module are attached to the first candidate that seems
to be implemented, or to the first candidate; if it has parameters, the pass fails. Where every
block for a candidate is positive and names it plainly, this is the first that is implemented,
wherever the blocks stand. -/
theorem Item.attach_chosen_reducer {args : Directive} (hof : args.of = none) (head : ModuleHead)
    (items : List Item) :
    ((∃ t, .struct t ∈ items ∧ EndsWithReducer t.name) →
      ∃! s, Chosen items (SeemsToImplement items) s) ∧
    (∀ s, Chosen items (SeemsToImplement items) s →
      (Item.module head items).attach args = s.lead args head items) ∧
    (∀ s : Struct, s.Leads args head items) ∧
    ((∀ t, .struct t ∈ items → ¬ EndsWithReducer t.name) →
      (Item.module head items).attach args = .ok (.module head items)) ∧
    ((∀ t, .struct t ∈ items → EndsWithReducer t.name → ∀ i, .impl i ∈ items → i.OfReducer →
        i.IsFor t.name.name → i.negative = none ∧ i.IsPlainlyFor t.name.name) →
      ∀ s, Chosen items (Implements items) s →
        (Item.module head items).attach args = s.lead args head items) := by
  refine ⟨?_, fun s => attach_eq_lead hof head, fun s => s.leads args head items,
    fun hnone => ?_, fun hplain s hs => ?_⟩
  · -- any candidate is enough for one to be chosen, though it need not be this one
    rintro ⟨t, ht, hreducer⟩
    obtain ⟨s, hs⟩ := exists_chosen ht hreducer
    refine ⟨s, chosen?_eq_some_iff.mp hs, fun u hu => ?_⟩
    exact Option.some.inj ((chosen?_eq_some_iff.mpr hu).symm.trans hs)
  · have hreducer : reducerOf args items = .ok none := by
      rw [reducerOf, hof, findReducer, chosen?_eq_none hnone]
    exact attach_module_eq_ok.mpr ⟨items, (attach_eq_ok args).mpr (.inl ⟨hreducer, rfl⟩), rfl⟩
  · exact attach_eq_lead hof head
      (hs.congr fun t ht hreducer => implements_iff (hplain t ht hreducer))

namespace Item

def sampleHead : ModuleHead := ⟨[], .inherited, [], .made, ⟨"m", .made⟩, [], .made⟩

def sampleReducer (name : String) (params : List GenericParam) : Struct :=
  ⟨[], .inherited, .made, ⟨name, .made⟩, ⟨.made, params, false, .made, []⟩, .unit .made⟩

def sampleImpl (s : Segment) : Impl :=
  ⟨[Code.word "impl"], none, some (.ofIdent ⟨"Reducer", .made⟩), .path (.plain ⟨none, [s]⟩),
    [Code.braces []]⟩

theorem sampleImpl_ofReducer (s : Segment) : (sampleImpl s).OfReducer := ⟨_, _, rfl, rfl, rfl⟩

theorem sampleImpl_isFor {s : Segment} {name : String} :
    (sampleImpl s).IsFor name ↔ s.name.name = name := by
  simp [Impl.IsFor, Ty.wraps_path_iff, sampleImpl, Ty.inner]

def sampleItems (s : Segment) (params : List GenericParam) : List Item :=
  [.struct (sampleReducer "AReducer" []), .impl (sampleImpl s),
    .struct (sampleReducer "BReducer" params)]

theorem sampleItems_impl {s : Segment} {params : List GenericParam} {i : Impl}
    (hi : .impl i ∈ sampleItems s params) : i = sampleImpl s := by
  simpa [sampleItems] using hi

theorem sampleItems_chosen {s : Segment} {params : List GenericParam}
    (hs : s.name.name = "BReducer") : Chosen (sampleItems s params)
      (Implements (sampleItems s params)) (sampleReducer "BReducer" params) := by
  have himplemented : Implements (sampleItems s params) (sampleReducer "BReducer" params) :=
    ⟨sampleImpl s, by simp [sampleItems], rfl, sampleImpl_ofReducer s, sampleImpl_isFor.mpr hs⟩
  refine .inl ⟨⟨⟨"B", rfl⟩, himplemented⟩, [_, _], [], rfl, ?_⟩
  rintro t ht ⟨-, i, hi, -, -, hfor⟩
  obtain rfl : t = sampleReducer "AReducer" [] := by simpa using ht
  rw [sampleItems_impl hi, sampleImpl_isFor, hs] at hfor
  exact absurd hfor (by decide)

theorem attach_chosen_reducer_sample : ∃ items',
    (Item.module sampleHead (sampleItems (.plain ⟨"BReducer", .made⟩) [])).attach .empty =
      .ok (.module sampleHead items') ∧
    List.Forall₂ (Item.Adds .empty (.ofIdent ⟨"BReducer", .made⟩))
      (sampleItems (.plain ⟨"BReducer", .made⟩) []) items' := by
  obtain ⟨-, -, hleads, -, hintended⟩ := attach_chosen_reducer
    (show Directive.empty.of = none from rfl) sampleHead
    (sampleItems (.plain ⟨"BReducer", .made⟩) [])
  have hlead := hintended (fun t _ _ i hi _ hfor => by
    obtain rfl := sampleItems_impl hi
    exact ⟨rfl, _, rfl, sampleImpl_isFor.mp hfor⟩) _ (sampleItems_chosen rfl)
  obtain ⟨items', hmodule, hadds⟩ := (hleads (sampleReducer "BReducer" [])).adds rfl
  exact ⟨items', hlead.trans hmodule, hadds⟩

/-- An implementation for `BReducer<T>` is overlooked: nothing is reported, and the structs are
attached to an earlier candidate. -/
theorem not_attach_implemented : ¬ ∀ (args : Directive) (head : ModuleHead) (items : List Item)
    (s : Struct), args.of = none → Chosen items (Implements items) s →
      (Item.module head items).attach args = s.lead args head items := by
  intro h
  have hattach := h .empty sampleHead (sampleItems (.angled ⟨"BReducer", .made⟩ false .made
    [.type (.ofIdent ⟨"T", .made⟩)] false .made) [⟨false, [Code.word "T"], [Code.word "T"], []⟩])
    _ rfl (sampleItems_chosen rfl)
  cases hattach

end Item

end Delegation
