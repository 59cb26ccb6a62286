import Delegation.Proofs.Choice

namespace Delegation

namespace Ty

/-- The type is `name` with any arguments, in any parentheses and invisible groups. -/
def MeansName (t : Ty) (name : String) : Prop := ∃ u : Ty, u.IsPlainName name ∧ Wraps u t

theorem MeansName.eq_of_names {t : Ty} {name other : String} (h : t.MeansName name)
    (hnames : t.names other = true) : other = name := by
  obtain ⟨s, rfl, rfl⟩ := (t.names_iff other).mp hnames
  obtain ⟨_, ⟨s', rfl, rfl⟩, hwraps⟩ := h
  cases hwraps
  rfl

end Ty

def Struct.Derives (args : Directive) (s : Struct) : Prop :=
  s.DerivesState ∨ ∃ a ∈ s.attrs, a.IsDerive (args.runtime.getD defaultRuntime)

section Completed

variable {args : Directive} {reducer : Ty} {s t : Struct}

theorem Completes.derives (h : Completes args reducer s t) : t.Derives args := by
  obtain ⟨before, after, derives, added, hs, ht, -, -, hderives, -⟩ := h.attrs
  cases hderives with
  | found hfound =>
    obtain ⟨a, ha, hderive⟩ := hfound
    exact .inl ⟨a, h.sublist.subset ha, hderive⟩
  | @added a _ ha => exact .inr ⟨a, by rw [ht]; simp, ha⟩

theorem Completes.eq_iff (h : Completes args reducer s t) :
    t = s ↔ s.DerivesState ∧ ¬ s.LacksReducer := by
  obtain ⟨before, after, derives, added, hs, ht, -, -, hderives, hadded⟩ := h.attrs
  constructor
  · -- nothing was added, for the attributes are no more than before
    rintro rfl
    have hlength := congrArg List.length (hs.symm.trans ht)
    simp only [List.length_append] at hlength
    have hnone : derives = [] ∧ added = [] := by
      constructor <;> apply List.eq_nil_of_length_eq_zero <;> omega
    obtain ⟨rfl, rfl⟩ := hnone
    cases hderives with
    | found hfound =>
      cases hadded with
      | found hnamed => exact ⟨hfound, hnamed⟩
  · rintro ⟨hfound, hnamed⟩
    have hattrs : t.attrs = s.attrs := by
      cases hderives with
      | added hmissing => exact absurd hfound hmissing
      | found =>
        cases hadded with
        | added hd hnone => exact absurd ⟨_, hd, hnone⟩ hnamed
        | found => simp [hs, ht]
    rw [h.rest, hattrs]

end Completed

namespace Item

/-- In a module whose reducer means a name, every struct of another name ends up with the derive. A
struct of this name is left unchanged if the reducer is the plain name, as it is if it was found in
the module; otherwise it gets what it lacks, like every other one. -/
theorem attach_spares {args : Directive} (head : ModuleHead) {items : List Item} {reducer : Ty}
    (hreducer : reducerOf args items = .ok (some reducer)) {name : String}
    (hname : reducer.MeansName name) :
    (args.of = none → reducer.IsPlainName name) ∧
    ∃ items', (Item.module head items).attach args = .ok (.module head items') ∧
      items'.length = items.length ∧ ∀ (i : Nat) s, items[i]? = some (.struct s) →
        ∃ s', items'[i]? = some (.struct s') ∧
          (s.name.name ≠ name → s'.Derives args ∧ Completes args reducer s s') ∧
          (s.name.name = name →
            (reducer.IsPlainName name → s' = s) ∧
            (¬ reducer.IsPlainName name → Completes args reducer s s') ∧
            (s' = s ↔ reducer.IsPlainName name ∨ s.DerivesState ∧ ¬ s.LacksReducer)) := by
  refine ⟨fun hof => ?_, ?_⟩
  · rw [reducerOf, hof] at hreducer
    obtain ⟨s, -, -, rfl⟩ := exists_of_findReducer hreducer
    obtain ⟨_, hplain, hwraps⟩ := hname
    cases hwraps
    exact hplain
  · refine ⟨_, attach_of_reducerOf head items hreducer, List.length_map .., fun i s hs =>
      ⟨s.passed args reducer, ?_, ?_, ?_⟩⟩
    · rw [List.getElem?_map, hs]
      rfl
    · intro hother
      have hpassed : s.passed args reducer = s.decorate args reducer := by
        rw [Struct.passed, if_neg fun hnames => hother (hname.eq_of_names hnames)]
      rw [hpassed]
      exact ⟨(s.decorate_completes args reducer).derives, s.decorate_completes args reducer⟩
    · rintro rfl
      by_cases hplain : reducer.IsPlainName s.name.name
      · have hkept : s.passed args reducer = s := by
          rw [Struct.passed, if_pos ((reducer.names_iff _).mpr hplain)]
        exact ⟨fun _ => hkept, fun hhidden => absurd hplain hhidden,
          iff_of_true hkept (.inl hplain)⟩
      · have hpassed : s.passed args reducer = s.decorate args reducer := by
          rw [Struct.passed, if_neg fun hnames => hplain ((reducer.names_iff _).mp hnames)]
        have hcompletes := s.decorate_completes args reducer
        rw [hpassed]
        refine ⟨fun h => absurd h hplain, fun _ => hcompletes, ?_⟩
        rw [hcompletes.eq_iff, or_iff_right hplain]

def pairItems : List Item :=
  [.struct (sampleReducer "AReducer" []), .struct (sampleReducer "State" [])]

theorem attach_spares_sample : ∃ items',
    (Item.module sampleHead pairItems).attach .empty = .ok (.module sampleHead items') ∧
      items'[0]? = some (.struct (sampleReducer "AReducer" [])) ∧
      ∃ s', items'[1]? = some (.struct s') ∧ s'.Derives .empty := by
  have hreducer : reducerOf .empty pairItems = .ok (some (.ofIdent ⟨"AReducer", .made⟩)) := rfl
  have hname : (Ty.ofIdent ⟨"AReducer", .made⟩).MeansName "AReducer" :=
    ⟨_, ⟨.plain _, rfl, rfl⟩, .bare⟩
  obtain ⟨hplain, items', hattach, -, hstructs⟩ := attach_spares sampleHead hreducer hname
  obtain ⟨s, hs, -, hspared⟩ := hstructs 0 _ rfl
  obtain ⟨t, ht, hderives, -⟩ := hstructs 1 _ rfl
  rw [(hspared rfl).1 (hplain rfl)] at hs
  exact ⟨items', hattach, hs, t, ht, (hderives (by decide)).1⟩

def parenArgs : List Tree :=
  [Code.word "of", Code.sign '=', Code.parens [Code.word "AReducer"]]

theorem not_attach_spares : ¬ ∀ ts args head items items' reducer name (i : Nat) s,
    Directive.ofArgs ts = .ok args → args.of = some reducer → reducer.MeansName name →
    (Item.module head items).attach args = .ok (.module head items') →
    items[i]? = some (.struct s) → s.name.name = name → items'[i]? = some (.struct s) := by
  intro h
  have hargs : Directive.ofArgs parenArgs =
      .ok ⟨some (.paren .made (.ofIdent ⟨"AReducer", .made⟩)), none⟩ := rfl
  have hkept := h parenArgs _ sampleHead pairItems _ _ "AReducer" 0 _ hargs rfl
    ⟨_, ⟨.plain _, rfl, rfl⟩, .paren _ .bare⟩ (attach_of_reducerOf sampleHead pairItems rfl) rfl rfl
  cases hkept

end Item

end Delegation
