import Mathlib.Data.List.Forall2
import Mathlib.Data.List.TakeWhile
import Delegation.Proofs.Decoration
import Delegation.Proofs.Rendering
import Delegation.Proofs.StateType

namespace Delegation

namespace Attr

def ListsPaths (a : Attr) (paths : List Path) : Prop :=
  ∃ delim tokens span trailing, a.args = .list delim tokens span ∧
    readWithin (fun g => Reader.separated .ended "," (Reader.path g false)) tokens span.closing =
      .ok (paths, trailing)

def Is (a : Attr) (name : String) (tokens : List Tree) : Prop :=
  a = ⟨.made, none, ⟨none, [.plain ⟨name, .made⟩]⟩, .list .paren tokens .made, .made⟩

/-- `#[derive(library::ParentReducerState)]`. -/
def IsDerive (a : Attr) (library : Path) : Prop :=
  a.Is "derive" (library.tokens ++ Trees.member ["ParentReducerState"])

/-- `#[parent_reducer_state(of = reducer)]`, with `crate = library` if there is one to name. -/
def NamesParent (a : Attr) (reducer : Ty) : Option Path → Prop
  | none => a.Is "parent_reducer_state"
      ([.ident "of" .made, .punct '=' false .made] ++ reducer.tokens)
  | some library => a.Is "parent_reducer_state"
      ([.ident "of" .made, .punct '=' false .made] ++ reducer.tokens ++
        ([.punct ',' false .made, .ident "crate" .made, .punct '=' false .made] ++ library.tokens))

theorem deriveFrom_isDerive (library : Path) : (deriveFrom library).IsDerive library := rfl

theorem directive_namesParent (reducer : Ty) (runtime : Option Path) :
    (directive reducer runtime).NamesParent reducer runtime := by
  cases runtime with
  | none =>
    simp only [NamesParent, directive, List.append_nil]
    rfl
  | some library => rfl

end Attr

def Ty.IsPlainName (t : Ty) (name : String) : Prop :=
  ∃ s : Segment, t = .path (.plain ⟨none, [s]⟩) ∧ s.name.name = name

theorem Ty.names_iff (t : Ty) (name : String) : t.names name = true ↔ t.IsPlainName name := by
  unfold names IsPlainName
  split
  next s => simp
  next hne =>
    rw [Bool.false_eq_true, false_iff]
    rintro ⟨s, rfl, -⟩
    exact hne s rfl

namespace Struct

/-- A derive of the struct can be read and names, by whatever path, what the pass would derive. -/
def DerivesState (s : Struct) : Prop :=
  ∃ a ∈ s.attrs, a.isNamed "derive" = true ∧ ∃ paths, a.ListsPaths paths ∧
    ∃ p ∈ paths, ∃ last, p.segments.getLast? = some last ∧ last.name.name = "ParentReducerState"

def LacksReducer (s : Struct) : Prop :=
  ∃ d, Directive.ofAttrs s.attrs = .ok d ∧ d.of = none

/-- The derive of the library, if the struct has none. -/
inductive AddsDerive (args : Directive) (s : Struct) : List Attr → Prop where
  | found : s.DerivesState → AddsDerive args s []
  | added {a : Attr} : ¬ s.DerivesState → a.IsDerive (args.runtime.getD defaultRuntime) →
      AddsDerive args s [a]

/-- The reducer, if the struct lacks one, beside the library unless the struct names one. -/
inductive AddsDirective (args : Directive) (reducer : Ty) (s : Struct) : List Attr → Prop where
  | found : ¬ s.LacksReducer → AddsDirective args reducer s []
  | added {d : Directive} {a : Attr} : Directive.ofAttrs s.attrs = .ok d → d.of = none →
      a.NamesParent reducer (if d.runtime.isSome then none else args.runtime) →
      AddsDirective args reducer s [a]

end Struct

/-- `t` is `s` with what it lacks. A derive goes before the first directive, or last if there is
none; a directive goes after everything. -/
structure Completes (args : Directive) (reducer : Ty) (s t : Struct) : Prop where
  rest : t = { s with attrs := t.attrs }
  attrs : ∃ before after derives added, s.attrs = before ++ after ∧
    t.attrs = before ++ derives ++ after ++ added ∧
    (∀ a ∈ before, a.isNamed directiveName = false) ∧
    (∀ a ∈ after.head?, a.isNamed directiveName = true) ∧
    s.AddsDerive args derives ∧ s.AddsDirective args reducer added

inductive Item.Adds (args : Directive) (reducer : Ty) : Item → Item → Prop where
  | kept {i : Item} :
    (∀ s, i = .struct s → reducer.IsPlainName s.name.name) → Adds args reducer i i
  | completed {s t : Struct} : ¬ reducer.IsPlainName s.name.name → Completes args reducer s t →
      Adds args reducer (.struct s) (.struct t)

/-- What becomes of the items of a module. The reducer is the given one, or one of the structs whose
name ends in `Reducer`; without any of them nothing is added. -/
inductive Attached (args : Directive) (items : List Item) : List Item → Prop where
  | given {reducer : Ty} {items' : List Item} : args.of = some reducer →
      List.Forall₂ (Item.Adds args reducer) items items' → Attached args items items'
  | found {s : Struct} {items' : List Item} : args.of = none → .struct s ∈ items →
      EndsWithReducer s.name → s.generics.params = [] →
      List.Forall₂ (Item.Adds args (.ofIdent s.name)) items items' → Attached args items items'
  | none : args.of = none → (∀ s, .struct s ∈ items → ¬ EndsWithReducer s.name) →
      Attached args items items

theorem Attr.listsPaths_iff (a : Attr) {p : Path} :
    p ∈ a.derives ↔ ∃ paths, a.ListsPaths paths ∧ p ∈ paths := by
  unfold derives ListsPaths
  split
  next delim tokens span hargs =>
    simp only [hargs, AttrArgs.list.injEq]
    constructor
    · intro hp
      split at hp
      next paths trailing hread =>
        exact ⟨paths, ⟨delim, tokens, span, trailing, ⟨rfl, rfl, rfl⟩, hread⟩, hp⟩
      next => cases hp
    · rintro ⟨paths, ⟨_, _, _, trailing, ⟨rfl, rfl, rfl⟩, hread⟩, hp⟩
      simpa [hread] using hp
  next hargs =>
    simp only [List.not_mem_nil, false_iff, not_exists, not_and]
    rintro paths ⟨delim, tokens, span, trailing, heq, -⟩
    exact absurd heq (hargs delim tokens span)

namespace Struct

theorem hasDerive_iff (s : Struct) : s.hasDerive = true ↔ s.DerivesState := by
  simp only [hasDerive, DerivesState, List.any_eq_true, List.mem_filter, Attr.listsPaths_iff,
    Option.any_eq_true, beq_iff_eq]
  constructor
  · rintro ⟨a, ⟨ha, hname⟩, p, ⟨paths, hpaths, hp⟩, last, hlast⟩
    exact ⟨a, ha, hname, paths, hpaths, p, hp, last, hlast⟩
  · rintro ⟨a, ha, hname, paths, hpaths, p, hp, last, hlast⟩
    exact ⟨a, ⟨ha, hname⟩, p, ⟨paths, hpaths, hp⟩, last, hlast⟩

theorem adds_derive (args : Directive) (s : Struct) :
    s.AddsDerive args (if s.hasDerive then [] else [.deriveFrom args.runtimePath]) := by
  cases h : s.hasDerive with
  | true => exact .found (s.hasDerive_iff.mp h)
  | false =>
    refine .added (fun hderives => ?_) (Attr.deriveFrom_isDerive _)
    simp [s.hasDerive_iff.mpr hderives] at h

theorem adds_directive (args : Directive) (reducer : Ty) (s : Struct) :
    s.AddsDirective args reducer (s.addedDirective args reducer) := by
  unfold addedDirective
  split
  next e hread => exact .found fun ⟨d, hd, _⟩ => by cases hread.symm.trans hd
  next d hread =>
    cases hof : d.of with
    | some parent =>
      refine .found fun ⟨d', hd', hnone⟩ => ?_
      obtain rfl := Except.ok.inj (hread.symm.trans hd')
      simp [hof] at hnone
    | none => exact .added hread hof (Attr.directive_namesParent ..)

theorem decorate_completes (args : Directive) (reducer : Ty) (s : Struct) :
    Completes args reducer s (s.decorate args reducer) where
  rest := rfl
  attrs := by
    refine ⟨s.attrs.takeWhile (!·.isNamed directiveName),
      s.attrs.dropWhile (!·.isNamed directiveName),
      if s.hasDerive then [] else [.deriveFrom args.runtimePath], s.addedDirective args reducer,
      List.takeWhile_append_dropWhile.symm, ?_, ?_, ?_, s.adds_derive args,
      s.adds_directive args reducer⟩
    · rw [decorate, withDerive]
      split <;> simp [insertDerive]
    · intro a ha
      simpa using List.mem_takeWhile_imp ha
    · intro a ha
      have hstop := List.head?_dropWhile_not (fun a : Attr => !a.isNamed directiveName) s.attrs
      rw [Option.mem_def.mp ha] at hstop
      simpa using hstop

end Struct

namespace Item

theorem adds_decorate (args : Directive) (reducer : Ty) (i : Item) :
    Adds args reducer i (i.decorate args reducer) := by
  cases i with
  | struct s =>
    rw [decorate]
    split
    next hnames => exact .kept fun t ht => by cases ht; exact (reducer.names_iff _).mp hnames
    next hnames =>
      rw [Ty.names_iff] at hnames
      exact .completed hnames (s.decorate_completes args reducer)
  | impl | module | fileModule | other => exact .kept fun s hs => by cases hs

end Item

theorem Item.struct?_eq_some_iff {item : Item} {s : Struct} :
    item.struct? = some s ↔ item = .struct s := by
  cases item <;> simp [struct?]

theorem mem_candidates_iff {items : List Item} {s : Struct} :
    s ∈ candidates items ↔ .struct s ∈ items ∧ EndsWithReducer s.name := by
  simp [candidates, List.mem_filter, List.mem_filterMap, Item.struct?_eq_some_iff,
    isReducerName_iff]

theorem chosen?_cases (items : List Item) :
    (∃ s, chosen? items = some s ∧ .struct s ∈ items ∧ EndsWithReducer s.name) ∨
      chosen? items = none ∧ ∀ s, .struct s ∈ items → ¬ EndsWithReducer s.name := by
  cases hchosen : chosen? items with
  | some s => exact .inl ⟨s, rfl, mem_candidates_iff.mp (mem_candidates_of_chosen? hchosen)⟩
  | none =>
    have hnone : candidates items = [] := by
      rw [chosen?] at hchosen
      split at hchosen
      next => cases hchosen
      next => exact List.head?_eq_none_iff.mp hchosen
    refine .inr ⟨rfl, fun s hs hname => ?_⟩
    have hmem := mem_candidates_iff.mpr ⟨hs, hname⟩
    rw [hnone] at hmem
    cases hmem

theorem chosen?_eq_none {items : List Item}
    (h : ∀ s, .struct s ∈ items → ¬ EndsWithReducer s.name) : chosen? items = none := by
  obtain ⟨s, -, hs, hname⟩ | ⟨hnone, -⟩ := chosen?_cases items
  · exact absurd hname (h s hs)
  · exact hnone

theorem exists_of_findReducer {items : List Item} {reducer : Ty}
    (h : findReducer items = .ok (some reducer)) :
    ∃ s, .struct s ∈ items ∧ EndsWithReducer s.name ∧ reducer = .ofIdent s.name := by
  obtain ⟨s, hs, rfl⟩ := exists_candidate_of_findReducer h
  obtain ⟨hmem, hname⟩ := mem_candidates_iff.mp hs
  exact ⟨s, hmem, hname, rfl⟩

theorem reducerOf_cases {args : Directive} {items : List Item} {reducer : Ty}
    (h : reducerOf args items = .ok (some reducer)) : args.of = some reducer ∨
      args.of = none ∧ ∃ s, .struct s ∈ items ∧ EndsWithReducer s.name ∧
        reducer = .ofIdent s.name := by
  cases hof : args.of with
  | some given =>
    rw [reducerOf, hof] at h
    exact .inl (Option.some.inj (Except.ok.inj h) ▸ rfl)
  | none =>
    rw [reducerOf, hof] at h
    exact .inr ⟨rfl, exists_of_findReducer h⟩

theorem reducerOf_eq_none {args : Directive} {items : List Item}
    (h : reducerOf args items = .ok none) :
    args.of = none ∧ ∀ s, .struct s ∈ items → ¬ EndsWithReducer s.name := by
  cases hof : args.of with
  | some given => simp [reducerOf, hof] at h
  | none =>
    refine ⟨rfl, ?_⟩
    rw [reducerOf, hof, findReducer] at h
    obtain ⟨s, hchosen, -⟩ | ⟨-, hnone⟩ := chosen?_cases items
    · simp only [hchosen] at h
      split at h <;> cases h
    · exact hnone

def rewriteAt (f : Item → Item) (i : Nat) : EStateM Failure (List Item) Unit :=
  modify (·.modify i f)

/-- The pass over items that are rewritten where they stand, one after the other. What has been
rewritten stays so if it fails later. -/
def attachInPlace (args : Directive) : EStateM Failure (List Item) Unit := do
  let items ← get
  match reducerOf args items with
  | .error failure => throw failure
  | .ok none => return
  | .ok (some reducer) =>
    (List.range' 0 items.length).forM (rewriteAt (Item.decorate args reducer))

theorem forM_rewriteAt (f : Item → Item) (done rest : List Item) :
    ((List.range' done.length rest.length).forM (rewriteAt f)).run (done ++ rest) =
      .ok () (done ++ rest.map f) := by
  -- `done` has been rewritten, and the positions go on behind it
  induction rest generalizing done with
  | nil => simp
  | cons i rest ih =>
    have hmodify : (done ++ i :: rest).modify done.length f = (done ++ [f i]) ++ rest := by
      rw [List.modify_eq_take_drop]
      simp
    have hnext := ih (done ++ [f i])
    rw [List.length_append, List.length_singleton] at hnext
    rw [List.length_cons, List.range'_succ]
    change ((List.range' (done.length + 1) rest.length).forM (rewriteAt f)).run
      ((done ++ i :: rest).modify done.length f) = _
    rw [hmodify, hnext]
    simp

theorem attachInPlace_run (args : Directive) (items : List Item) :
    (attachInPlace args).run items =
      match attach args items with
      | .ok items' => .ok () items'
      | .error failure => .error failure items := by
  unfold attach
  change (match reducerOf args items with
    | .error failure => throw failure
    | .ok none => return
    | .ok (some reducer) =>
      (List.range' 0 items.length).forM (rewriteAt (Item.decorate args reducer)) :
      EStateM Failure (List Item) Unit).run items = _
  cases reducerOf args items with
  | error failure => rfl
  | ok found =>
    cases found with
    | none => rfl
    | some reducer => exact forM_rewriteAt (Item.decorate args reducer) [] items

inductive Item.Attaches (args : Directive) : Item → Except Failure Item → Prop where
  | module {head : ModuleHead} {items items' : List Item} : Attached args items items' →
      Attaches args (.module head items) (.ok (.module head items'))
  | generic {head : ModuleHead} {items : List Item} {s : Struct} : args.of = none →
      .struct s ∈ items → EndsWithReducer s.name → s.generics.params ≠ [] →
      Attaches args (.module head items)
        (.error ⟨.genericReducer, Trees.hull s.generics.tokens⟩)
  | file {tokens : List Tree} : Attaches args (.fileModule tokens) (.ok (.fileModule tokens))
  | other {m : Item} : (∀ head items, m ≠ .module head items) →
      (∀ tokens, m ≠ .fileModule tokens) →
      Attaches args m (.error ⟨.notInlineModule, Trees.hull m.tokens⟩)

theorem forall₂_adds (args : Directive) (reducer : Ty) (items : List Item) :
    List.Forall₂ (Item.Adds args reducer) items (items.map (Item.decorate args reducer)) := by
  rw [List.forall₂_map_right_iff]
  exact List.forall₂_same.mpr fun i _ => i.adds_decorate args reducer

theorem Item.attaches_module (args : Directive) (head : ModuleHead) (items : List Item) :
    (Item.module head items).Attaches args ((Item.module head items).attach args) := by
  cases hof : args.of with
  | some reducer =>
    have hreducer : reducerOf args items = .ok (some reducer) := by rw [reducerOf, hof]
    rw [attach_of_reducerOf head items hreducer]
    exact .module (.given hof (forall₂_adds args reducer items))
  | none =>
    have hreducer : reducerOf args items = findReducer items := by rw [reducerOf, hof]
    obtain ⟨s, hchosen, hs, hname⟩ | ⟨hchosen, hnone⟩ := chosen?_cases items
    · rw [findReducer, hchosen] at hreducer
      by_cases hparams : s.generics.params = []
      · simp only [hparams, List.isEmpty_nil, if_true] at hreducer
        rw [attach_of_reducerOf head items hreducer]
        exact .module (.found hof hs hname hparams (forall₂_adds args _ items))
      · simp only [List.isEmpty_iff, hparams, if_false] at hreducer
        rw [Item.attach, Delegation.attach, hreducer]
        exact .generic hof hs hname hparams
    · rw [findReducer, hchosen] at hreducer
      rw [Item.attach, Delegation.attach, hreducer]
      exact .module (.none hof hnone)

theorem Item.attaches (args : Directive) (m : Item) : m.Attaches args (m.attach args) := by
  cases m with
  | module head items => exact Item.attaches_module args head items
  | fileModule tokens => exact .file
  | struct | impl | other => exact .other nofun nofun

theorem Completes.sublist {args : Directive} {reducer : Ty} {s t : Struct}
    (h : Completes args reducer s t) : s.attrs.Sublist t.attrs := by
  obtain ⟨before, after, derives, added, hs, ht, -⟩ := h.attrs
  rw [hs, ht, List.append_assoc, List.append_assoc]
  exact (List.Sublist.refl before).append
    ((List.sublist_append_left after added).trans (List.sublist_append_right derives _))

theorem Completes.length_le {args : Directive} {reducer : Ty} {s t : Struct}
    (h : Completes args reducer s t) : t.attrs.length ≤ s.attrs.length + 2 := by
  obtain ⟨before, after, derives, added, hs, ht, -, -, hderives, hadded⟩ := h.attrs
  have hone : derives.length ≤ 1 := by cases hderives <;> simp
  have hone' : added.length ≤ 1 := by cases hadded <;> simp
  rw [hs, ht]
  simp only [List.length_append]
  omega

/-- The pass over a module only adds what a struct lacks: every item stays where it is, and only
structs that are not the reducer get attributes, at most two each. A module without items here or
without a reducer stays as it is, and so does one on which the pass fails. -/
theorem Item.attach_adds (args : Directive) :
    (∀ m : Item, m.Attaches args (m.attach args)) ∧
    (∀ reducer s t, Completes args reducer s t →
      s.attrs.Sublist t.attrs ∧ t.attrs.length ≤ s.attrs.length + 2) ∧
    ∀ items, (attachInPlace args).run items =
      match Delegation.attach args items with
      | .ok items' => .ok () items'
      | .error failure => .error failure items :=
  ⟨Item.attaches args, fun _ _ _ h => ⟨h.sublist, h.length_le⟩, attachInPlace_run args⟩

namespace Item

def crateAttr : Attr :=
  ⟨.made, none, .ofIdent ⟨"parent_reducer_state", .made⟩, .list .paren
    [.ident "crate" .made, .punct '=' false .made, .ident "rt" .made] .made, .made⟩

def emptyAttr : Attr := ⟨.made, none, .ofIdent ⟨"parent_reducer_state", .made⟩, .none, .made⟩

def bareStruct (name : String) (attrs : List Attr) : Struct :=
  ⟨attrs, .inherited, .made, ⟨name, .made⟩, .empty, .unit .made⟩

def bareModule (structs : List Struct) : Item :=
  .module ⟨[], .inherited, [], .made, ⟨"m", .made⟩, [], .made⟩ (structs.map .struct)

def bothGiven : Directive := ⟨some (.ofIdent ⟨"TestReducer", .made⟩), some (.ofIdent ⟨"rt", .made⟩)⟩

def paramReducer : Struct :=
  { bareStruct "AReducer" [] with
    generics := ⟨.made, [⟨false, [.ident "T" .made], [.ident "T" .made], []⟩], false, .made, []⟩ }

theorem attach_adds_sample : ∃ derive directive derive' directive' : Attr,
    (derive.IsDerive defaultRuntime ∧ directive.NamesParent (.ofIdent ⟨"AReducer", .made⟩) none) ∧
    (derive'.IsDerive (.ofIdent ⟨"rt", .made⟩) ∧ directive'.NamesParent
      (.ofIdent ⟨"TestReducer", .made⟩) (some (.ofIdent ⟨"rt", .made⟩))) ∧
    (bareModule [bareStruct "AReducer" [], bareStruct "S" [crateAttr]]).attach .empty =
      .ok (bareModule [bareStruct "AReducer" [],
        bareStruct "S" [derive, crateAttr, directive]]) ∧
    [crateAttr].Sublist [derive, crateAttr, directive] ∧
    (bareModule [bareStruct "AReducer" [], bareStruct "S" [derive], bareStruct "T" [directive],
      bareStruct "U" [emptyAttr]]).attach bothGiven =
      .ok (bareModule [bareStruct "AReducer" [derive', directive'],
        bareStruct "S" [derive, directive'], bareStruct "T" [derive', directive],
        bareStruct "U" [derive', emptyAttr]]) ∧
    (bareModule [bareStruct "S" []]).Attaches .empty (.ok (bareModule [bareStruct "S" []])) ∧
    ∃ e, (attachInPlace .empty).run [.struct paramReducer] = .error e [.struct paramReducer] ∧
      e.cause = .genericReducer := by
  obtain ⟨hattaches, hcompletes, hinPlace⟩ := attach_adds .empty
  have hcompleted : Completes .empty (.ofIdent ⟨"AReducer", .made⟩) (bareStruct "S" [crateAttr])
      (bareStruct "S" [.deriveFrom defaultRuntime, crateAttr,
        .directive (.ofIdent ⟨"AReducer", .made⟩) none]) := Struct.decorate_completes ..
  exact ⟨.deriveFrom defaultRuntime, .directive (.ofIdent ⟨"AReducer", .made⟩) none, .deriveFrom _,
    .directive _ _, ⟨rfl, Attr.directive_namesParent ..⟩, ⟨rfl, Attr.directive_namesParent ..⟩,
    rfl, (hcompletes _ _ _ hcompleted).1, rfl, hattaches _, _, hinPlace _, rfl⟩

end Item

end Delegation
