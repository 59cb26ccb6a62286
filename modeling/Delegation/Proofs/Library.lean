import Delegation.Proofs.Additions
import Delegation.Proofs.Eligible
import Delegation.Proofs.Handover

namespace Delegation

theorem Completes.attrs_of_named {args : Directive} {reducer : Ty} {s t : Struct}
    (h : Completes args reducer s t) (hnamed : ¬ s.LacksReducer) : t.attrs = s.attrs ∨
      ∃ before after a, s.attrs = before ++ after ∧
        a.IsDerive (args.runtime.getD defaultRuntime) ∧ t.attrs = before ++ a :: after := by
  obtain ⟨before, after, derives, added, hs, ht, -, -, hderives, hadded⟩ := h.attrs
  cases hadded with
  | added hd hnone => exact absurd ⟨_, hd, hnone⟩ hnamed
  | found =>
    cases hderives with
    | found => exact .inl (by simp [hs, ht])
    | @added a _ ha => exact .inr ⟨before, after, a, hs, ha, by simp [ht]⟩

namespace Struct

/-- What becomes of a struct whose directives say `d` and name no library, in a module whose
arguments name `library`. -/
structure Receives (args : Directive) (reducer : Ty) (library : Path) (d : Directive)
    (s s' : Struct) : Prop where
  completes : Completes args reducer s s'
  derives : ¬ s.DerivesState → ∃ a ∈ s'.attrs, a.IsDerive library
  written : d.of = none → ∃ a, s'.attrs.getLast? = some a ∧ a.NamesParent reducer (some library)
  said : d.of = none →
    ((⟨some reducer, some library⟩ : Directive).SaidBy s'.attrs ↔ ReadsBack reducer (some library))
  clear : d.of = none → args.isClear = true →
    Directive.ofAttrs s'.attrs = .ok ⟨some reducer, some library⟩
  added : d.of.isSome = true → s'.attrs = s.attrs ∨ ∃ before after a,
    s.attrs = before ++ after ∧ a.IsDerive library ∧ s'.attrs = before ++ a :: after
  kept : d.of.isSome = true →
    directives s'.attrs = directives s.attrs ∧ Directive.ofAttrs s'.attrs = .ok d
  generates : ∀ d', Directive.ofAttrs s'.attrs = .ok d' → ∀ out, derive (.struct s') = .ok out →
    ∃ fields, (Declaration.struct s').HasFields fields ∧
      (Declaration.struct s').Generates d' fields out

theorem receives_decorate {args d : Directive} {reducer : Ty} {library : Path} {s : Struct}
    (hargs : args.runtime = some library) (hwritten : args.isClear = true →
      reducer.Written ∧ ∀ p ∈ args.runtime, p.Written)
    (hd : Directive.ofAttrs s.attrs = .ok d) (hruntime : d.runtime = none) :
    s.Receives args reducer library d (s.decorate args reducer) where
  completes := s.decorate_completes args reducer
  derives h := by
    rw [← hasDerive_iff] at h
    refine ⟨.deriveFrom library, ?_, Attr.deriveFrom_isDerive library⟩
    rw [decorate, withDerive, if_neg h, insertDerive, Directive.runtimePath, hargs]
    simp
  written hof := by
    refine ⟨.directive reducer (some library), ?_, Attr.directive_namesParent ..⟩
    simp [decorate, addedDirective, hd, hof, hruntime, hargs]
  said hof := by
    have hcompleted : d.completed args reducer = ⟨some reducer, some library⟩ := by
      simp [Directive.completed, hof, hruntime, hargs]
    have hsaid := saidBy_decorate args reducer s hd
    simpa [hcompleted, hof, Directive.addedRuntime, hruntime, hargs] using hsaid
  clear hof hclear := by
    have hcompleted : d.completed args reducer = ⟨some reducer, some library⟩ := by
      simp [Directive.completed, hof, hruntime, hargs]
    rw [← hcompleted]
    exact ofAttrs_decorate_written args reducer s hd (hwritten hclear).1 (hwritten hclear).2
  added hof := by
    have hnamed : ¬ s.LacksReducer := by
      rintro ⟨d', hd', hnone⟩
      obtain rfl := Except.ok.inj (hd.symm.trans hd')
      simp [hnone] at hof
    simpa [hargs] using (s.decorate_completes args reducer).attrs_of_named hnamed
  kept hof := by
    have hnone : s.addedDirective args reducer = [] := by simp [addedDirective, hd, hof]
    have hsame : directives (s.decorate args reducer).attrs = directives s.attrs := by
      rw [directives_decorate, hnone, List.append_nil]
    exact ⟨hsame, by rwa [Directive.ofAttrs, hsame]⟩
  generates d' hd' out hout := by
    obtain ⟨directive, hdirective, hgenerates⟩ := Declaration.generates_of_derive hout
    obtain rfl := Except.ok.inj (hd'.symm.trans hdirective)
    exact ⟨_, Declaration.hasFields_iff.mpr rfl, hgenerates⟩

end Struct

namespace Item

/-- The library that a module names reaches every struct that names neither a library nor a reducer:
it is written beside the reducer, and if that is read back, the methods of the struct name this
library, as its derive does. To a struct that names its reducer only the derive is added. -/
theorem attach_library {ts : List Tree} {args : Directive} (hargs : Directive.ofArgs ts = .ok args)
    {library : Path} (hlibrary : args.runtime = some library)
    (head : ModuleHead) {items items' : List Item}
    (h : (Item.module head items).attach args = .ok (.module head items'))
    (hreducer : args.of = none → ∃ s, .struct s ∈ items ∧ EndsWithReducer s.name) :
    ∃ reducer, (args.of = some reducer ∨ args.of = none ∧
        ∃ s, .struct s ∈ items ∧ EndsWithReducer s.name ∧ reducer = .ofIdent s.name) ∧
      items'.length = items.length ∧ ∀ (i : Nat) s d, items[i]? = some (.struct s) →
        ¬ reducer.IsPlainName s.name.name → Directive.ofAttrs s.attrs = .ok d →
        d.runtime = none →
          ∃ s', items'[i]? = some (.struct s') ∧ s.Receives args reducer library d s' := by
  obtain ⟨_, hitems, hsame⟩ := attach_module_eq_ok.mp h
  cases hsame
  obtain ⟨hnone, -⟩ | ⟨reducer, hsome, rfl⟩ := (attach_eq_ok args).mp hitems
  · obtain ⟨hof, hnone⟩ := reducerOf_eq_none hnone
    obtain ⟨s, hs, hname⟩ := hreducer hof
    exact absurd hname (hnone s hs)
  · refine ⟨reducer, reducerOf_cases hsome, List.length_map .., fun i s d hs hnames hd hruntime =>
      ⟨s.decorate args reducer, ?_, Struct.receives_decorate hlibrary
        (reducerOf_written hargs hsome) hd hruntime⟩⟩
    rw [← Ty.names_iff, Bool.not_eq_true] at hnames
    rw [List.getElem?_map, hs, Option.map_some, Item.decorate, hnames]
    rfl

def childStruct (attrs : List Attr) : Struct :=
  ⟨attrs, .inherited, .made, ⟨"State", .made⟩, .empty,
    .named .made [Declaration.childField] false⟩

def childItems (attrs : List Attr) : List Item :=
  [.struct (bareStruct "AReducer" []), .struct (childStruct attrs)]

theorem childItems_reducer (attrs : List Attr) :
    ∃ s, .struct s ∈ childItems attrs ∧ EndsWithReducer s.name :=
  ⟨bareStruct "AReducer" [], by simp [childItems], ⟨"A", rfl⟩⟩

theorem childStruct_generates {attrs : List Attr} {directive : Directive} {fields : List Field}
    {out : List Tree} {parent : Ty} (hof : directive.of = some parent) (hne : out ≠ [])
    (hfields : (Declaration.struct (childStruct attrs)).HasFields fields)
    (h : (Declaration.struct (childStruct attrs)).Generates directive fields out) :
    ∃ v method, Declaration.childField.Gives v ∧
      v.Renders parent (directive.runtime.getD defaultRuntime) method ∧
      (childStruct attrs).Block [method] out := by
  obtain ⟨s, parent', found, methods, hs, hparent, hgives, hrenders, hblock⟩ := h.block hne
  cases hs
  obtain rfl := Option.some.inj (hof.symm.trans hparent)
  obtain rfl := Declaration.hasFields_iff.mp hfields
  have heligible : (Declaration.struct (childStruct attrs)).namedFields.filter
      (fun f => f.Eligible) = [Declaration.childField] := rfl
  rw [heligible] at hgives
  obtain ⟨v, rfl, hv⟩ := forall₂_single hgives
  obtain ⟨method, rfl, hmethod⟩ := forall₂_single hrenders
  exact ⟨v, method, hv, hmethod, hblock⟩

def parentReducer : Ty := .ofIdent ⟨"AReducer", .made⟩

def childHead : ModuleHead := ⟨[], .inherited, [], .made, ⟨"m", .made⟩, [], .made⟩

def libraryArgs : List Tree :=
  [Code.word "crate", Code.sign '=', .punct ':' true .made, Code.sign ':', Code.word "rt"]

def libraryGiven : Directive := ⟨none, some clearPath⟩

def namedAttrs : List Attr := [.directive parentReducer none]

theorem eq_parentReducer {attrs : List Attr} {reducer : Ty} (h : libraryGiven.of = some reducer ∨
    libraryGiven.of = none ∧ ∃ s, .struct s ∈ childItems attrs ∧ EndsWithReducer s.name ∧
      reducer = .ofIdent s.name) : reducer = parentReducer := by
  obtain hof | ⟨-, s, hs, hname, rfl⟩ := h
  · cases hof
  · simp only [childItems, List.mem_cons, Item.struct.injEq, List.not_mem_nil, or_false] at hs
    obtain rfl | rfl := hs
    · rfl
    · rw [← isReducerName_iff] at hname
      exact absurd (show isReducerName "State" = true from hname) (by decide)

theorem attach_library_sample : Directive.ofArgs libraryArgs = .ok libraryGiven ∧
    (∃ derived directed out, ∃ v : Delegate, ∃ method,
      derived.IsDerive clearPath ∧ directed.NamesParent parentReducer (some clearPath) ∧
      (Item.module childHead (childItems [])).attach libraryGiven =
        .ok (.module childHead (childItems [derived, directed])) ∧
      derive (.struct (childStruct [derived, directed])) = .ok out ∧
      Declaration.childField.Gives v ∧ v.Renders parentReducer clearPath method ∧
      (childStruct [derived, directed]).Block [method] out) ∧
    ∃ derived out, ∃ v : Delegate, ∃ method, derived.IsDerive clearPath ∧
      (Item.module childHead (childItems namedAttrs)).attach libraryGiven =
        .ok (.module childHead (childItems (derived :: namedAttrs))) ∧
      derive (.struct (childStruct (derived :: namedAttrs))) = .ok out ∧
      Declaration.childField.Gives v ∧ v.Renders parentReducer defaultRuntime method ∧
      (childStruct (derived :: namedAttrs)).Block [method] out := by
  have hargs : Directive.ofArgs libraryArgs = .ok libraryGiven := rfl
  have hother : ¬ parentReducer.IsPlainName "State" := by
    rw [← Ty.names_iff]
    decide
  have hreceives {attrs attrs' : List Attr} {d : Directive}
      (hattach : (Item.module childHead (childItems attrs)).attach libraryGiven =
        .ok (.module childHead (childItems attrs')))
      (hd : Directive.ofAttrs attrs = .ok d) (hruntime : d.runtime = none) :
      (childStruct attrs).Receives libraryGiven parentReducer clearPath d (childStruct attrs') := by
    obtain ⟨reducer, hreducer, -, hstructs⟩ :=
      attach_library hargs rfl childHead hattach fun _ => childItems_reducer attrs
    obtain rfl := eq_parentReducer hreducer
    obtain ⟨s', hs', hreceives⟩ := hstructs 1 (childStruct attrs) d rfl hother hd hruntime
    cases hs'
    exact hreceives
  refine ⟨hargs, ?_, ?_⟩
  · let attrs : List Attr := [.deriveFrom clearPath, .directive parentReducer (some clearPath)]
    have hattach : (Item.module childHead (childItems [])).attach libraryGiven =
        .ok (.module childHead (childItems attrs)) := rfl
    have hout : ∃ first rest, derive (.struct (childStruct attrs)) = .ok (first :: rest) :=
      ⟨_, _, rfl⟩
    obtain ⟨first, rest, hout⟩ := hout
    have hstruct := hreceives (d := .empty) hattach rfl rfl
    obtain ⟨fields, hfields, hgenerates⟩ := hstruct.generates _ (hstruct.clear rfl rfl) _ hout
    obtain ⟨v, method, hv, hmethod, hblock⟩ :=
      childStruct_generates rfl (List.cons_ne_nil first rest) hfields hgenerates
    exact ⟨_, _, _, v, method, rfl, rfl, hattach, hout, hv, hmethod, hblock⟩
  · let attrs : List Attr := .deriveFrom clearPath :: namedAttrs
    have hattach : (Item.module childHead (childItems namedAttrs)).attach libraryGiven =
        .ok (.module childHead (childItems attrs)) := rfl
    have hout : ∃ first rest, derive (.struct (childStruct attrs)) = .ok (first :: rest) :=
      ⟨_, _, rfl⟩
    obtain ⟨first, rest, hout⟩ := hout
    have hstruct := hreceives (d := ⟨some parentReducer, none⟩) hattach rfl rfl
    obtain ⟨fields, hfields, hgenerates⟩ := hstruct.generates _ (hstruct.kept rfl).2 _ hout
    obtain ⟨v, method, hv, hmethod, hblock⟩ :=
      childStruct_generates rfl (List.cons_ne_nil first rest) hfields hgenerates
    exact ⟨_, _, v, method, rfl, hattach, hout, hv, hmethod, hblock⟩

/-- A struct that names its reducer and no library gets none, whatever its module names. -/
theorem not_attach_library : ¬ ∀ ts args library head items items' reducer (i : Nat) s s' d,
    Directive.ofArgs ts = .ok args → args.runtime = some library →
    (Item.module head items).attach args = .ok (.module head items') →
    items[i]? = some (.struct s) → items'[i]? = some (.struct s') →
    reducerOf args items = .ok (some reducer) → reducer.names s.name.name = false →
    Directive.ofAttrs s.attrs = .ok d → d.runtime = none →
    ∃ d', Directive.ofAttrs s'.attrs = .ok d' ∧ d'.runtimePath.bare = library.bare := by
  intro h
  have hargs : Directive.ofArgs libraryArgs = .ok libraryGiven := rfl
  have hreducer : reducerOf libraryGiven (childItems namedAttrs) = .ok (some parentReducer) := rfl
  have hread : Directive.ofAttrs (.deriveFrom clearPath :: namedAttrs) =
      .ok ⟨some parentReducer, none⟩ := rfl
  obtain ⟨d, hd, hruntime⟩ := h libraryArgs _ clearPath _ _ _ _ 1 _ _ ⟨some parentReducer, none⟩
    hargs rfl (attach_of_reducerOf childHead _ hreducer) rfl rfl hreducer (by decide) rfl rfl
  cases hread.symm.trans hd
  have hnames := congrArg (fun p : Path => p.segments.map fun s => s.name.name) hruntime
  exact absurd hnames (by decide)

end Item

end Delegation
