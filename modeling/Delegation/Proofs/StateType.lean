import Delegation.Child

namespace Delegation

inductive Ty.Wraps (t : Ty) : Ty → Prop where
  | bare : Wraps t t
  | paren (span : Span) {u : Ty} : Wraps t u → Wraps t (.paren span u)
  | group (span : Span) {u : Ty} : Wraps t u → Wraps t (.group span u)

def EndsWithReducer (name : Ident) : Prop := ∃ stem, name.name = stem ++ "Reducer"

inductive QPath.NamesReducer : QPath → Prop where
  | plain (leading : Option Span) (before : List Segment) {last : Segment} :
      EndsWithReducer last.name → NamesReducer (.plain ⟨leading, before ++ [last]⟩)
  | qualified (opening : Span) (self : Ty) (via : Option Path) (closing : Span)
      (before : List Segment) {last : Segment} :
      EndsWithReducer last.name →
      NamesReducer (.qualified opening self via closing (before ++ [last]))

/-- A path that names the state of a type, if that type is a reducer: `<O as Trait>::State` and
`<O>::State`, `StateOf<O>` behind any segments, and `O::State`. -/
inductive QPath.NamesState : QPath → Ty → Prop where
  | qualified (opening : Span) (owner : Ty) (via : Option Path) (closing : Span) {name : Ident} :
      name.name = "State" → NamesState (.qualified opening owner via closing [.plain name]) owner
  | alias (leading : Option Span) (before : List Segment) {name : Ident} (turbofish : Bool)
      (opening : Span) (owner : Ty) (trailing : Bool) (closing : Span) :
      name.name = "StateOf" →
      NamesState
        (.plain ⟨leading,
          before ++ [.angled name turbofish opening [.type owner] trailing closing]⟩) owner
  | member (leading : Option Span) {before : List Segment} {name : Ident} :
      before ≠ [] → name.name = "State" →
      NamesState (.plain ⟨leading, before ++ [.plain name]⟩) (ownerType leading before)

namespace Ty

def NamesReducer (t : Ty) : Prop := ∃ p : QPath, Wraps (.path p) t ∧ p.NamesReducer

def SpellsState (t owner : Ty) : Prop :=
  ∃ p : QPath, Wraps (.path p) t ∧ p.NamesState owner ∧ owner.NamesReducer

/-- `Option<T>` behind any segments, where `T` spells the state. -/
def SpellsOption (t owner : Ty) : Prop :=
  ∃ leading before name turbofish opening elem trailing closing,
    Wraps (.path (.plain
      ⟨leading, before ++ [.angled name turbofish opening [.type elem] trailing closing]⟩)) t ∧
    name.name = "Option" ∧ elem.SpellsState owner

theorem wraps_inner (t : Ty) : Wraps t.inner t := by
  fun_induction inner t with
  | case1 span elem ih => exact .paren span ih
  | case2 span elem ih => exact .group span ih
  | case3 t => exact .bare

theorem Wraps.inner_eq {t u : Ty} (h : Wraps t u) : u.inner = t.inner := by
  induction h with
  | bare => rfl
  | paren span _ ih | group span _ ih => rw [inner, ih]

theorem wraps_iff {core : Ty} (hcore : core.inner = core) (t : Ty) :
    Wraps core t ↔ t.inner = core :=
  ⟨fun h => h.inner_eq.trans hcore, fun h => h ▸ t.wraps_inner⟩

theorem wraps_path_iff (p : QPath) (t : Ty) : Wraps (.path p) t ↔ t.inner = .path p :=
  wraps_iff rfl t

end Ty

theorem isReducerName_iff (name : Ident) :
    isReducerName name.name = true ↔ EndsWithReducer name := by
  rw [isReducerName, List.isSuffixOf_iff_suffix]
  constructor
  · rintro ⟨stem, h⟩
    refine ⟨String.ofList stem, ?_⟩
    rw [← String.toList_inj, ← h]
    simp
  · rintro ⟨stem, h⟩
    exact ⟨stem.toList, by rw [h, String.toList_append]⟩

theorem QPath.namesReducer_iff (p : QPath) :
    p.NamesReducer ↔ ∃ last, p.last? = some last ∧ EndsWithReducer last.name := by
  constructor
  · rintro (⟨leading, before, h⟩ | ⟨opening, self, via, closing, before, h⟩)
    · exact ⟨_, List.getLast?_concat, h⟩
    · exact ⟨_, List.getLast?_concat, h⟩
  · rintro ⟨last, hlast, h⟩
    cases p with
    | plain path =>
      cases path with
      | mk leading segments =>
        obtain ⟨before, rfl⟩ := List.getLast?_eq_some_iff.mp hlast
        exact .plain leading before h
    | qualified opening self via closing members =>
      obtain ⟨before, rfl⟩ := List.getLast?_eq_some_iff.mp hlast
      exact .qualified opening self via closing before h

theorem Ty.isReducer_iff (t : Ty) : t.isReducer = true ↔ t.NamesReducer := by
  simp only [NamesReducer, wraps_path_iff, QPath.namesReducer_iff, isReducer]
  split
  next p hp => simp [hp, Option.any_eq_true, isReducerName_iff]
  next hp =>
    have hnone : ∀ p, t.inner ≠ .path p := hp
    simp [hnone]

namespace Segment

theorem soleType?_eq_some_iff (s : Segment) (t : Ty) : s.soleType? = some t ↔
    ∃ name turbofish opening trailing closing,
      s = .angled name turbofish opening [.type t] trailing closing := by
  constructor
  · intro h
    unfold soleType? at h
    split at h
    next name turbofish opening u trailing closing =>
      obtain rfl : u = t := by simpa using h
      exact ⟨name, turbofish, opening, trailing, closing, rfl⟩
    next => cases h
  · rintro ⟨name, turbofish, opening, trailing, closing, rfl⟩
    rfl

theorem isState_iff (s : Segment) : s.isState = true ↔ ∃ name, s = .plain name ∧
    name.name = "State" := by
  cases s with
  | plain name => simp [isState]
  | angled => simp [isState]

end Segment

/-- A segment called `StateOf` is the alias or nothing; only then does a segment `State` count. -/
theorem ownerAt?_eq_some_iff (leading : Option Span) (before : List Segment) (s : Segment)
    (owner : Ty) : ownerAt? leading before s = some owner ↔
      (∃ name turbofish opening trailing closing, name.name = "StateOf" ∧
        s = .angled name turbofish opening [.type owner] trailing closing) ∨
      (∃ name, name.name = "State" ∧ s = .plain name ∧ before ≠ [] ∧
        owner = ownerType leading before) := by
  by_cases halias : s.name.name = "StateOf"
  · have hs : s.isAlias = true := by simpa [Segment.isAlias] using halias
    simp only [ownerAt?, hs, if_true, Segment.soleType?_eq_some_iff]
    constructor
    · rintro ⟨name, turbofish, opening, trailing, closing, rfl⟩
      exact .inl ⟨name, turbofish, opening, trailing, closing, halias, rfl⟩
    · rintro (⟨name, turbofish, opening, trailing, closing, -, rfl⟩ | ⟨name, hname, rfl, -⟩)
      · exact ⟨name, turbofish, opening, trailing, closing, rfl⟩
      · simp [Segment.name, hname] at halias
  · have hs : s.isAlias = false := by simpa [Segment.isAlias] using halias
    simp only [ownerAt?, hs, Bool.false_eq_true, if_false]
    constructor
    · intro h
      split at h
      next hstate =>
        obtain ⟨hstate, hbefore⟩ := (Bool.and_eq_true _ _).mp hstate
        obtain ⟨name, rfl, hname⟩ := s.isState_iff.mp hstate
        exact .inr ⟨name, hname, rfl, by simpa using hbefore, by simpa [eq_comm] using h⟩
      next => cases h
    · rintro (⟨name, turbofish, opening, trailing, closing, hname, rfl⟩ |
        ⟨name, hname, rfl, hbefore, rfl⟩)
      · exact absurd hname halias
      · simp [Segment.isState, hname, hbefore]

theorem QPath.stateOwner?_eq_some_iff (p : QPath) (owner : Ty) :
    p.stateOwner? = some owner ↔ p.NamesState owner := by
  constructor
  · intro h
    cases p with
    | plain path =>
      obtain ⟨last, hlast, h⟩ := Option.bind_eq_some_iff.mp h
      cases path with
      | mk leading segments =>
        obtain ⟨before, rfl⟩ := List.getLast?_eq_some_iff.mp hlast
        rw [List.dropLast_concat] at h
        obtain ⟨name, turbofish, opening, trailing, closing, hname, rfl⟩ |
          ⟨name, hname, rfl, hbefore, rfl⟩ := (ownerAt?_eq_some_iff leading before last owner).mp h
        · exact .alias leading before turbofish opening owner trailing closing hname
        · exact .member leading hbefore hname
    | qualified opening self via closing members =>
      simp only [stateOwner?] at h
      split at h
      next m =>
        split at h
        next hm =>
          obtain ⟨name, rfl, hname⟩ := m.isState_iff.mp hm
          obtain rfl : self = owner := by simpa using h
          exact .qualified opening self via closing hname
        next => cases h
      next => cases h
  · rintro (⟨opening, owner, via, closing, h⟩ | ⟨leading, before, turbofish, opening, owner,
      trailing, closing, h⟩ | ⟨leading, hbefore, h⟩)
    · simp [stateOwner?, Segment.isState, h]
    · simpa [stateOwner?] using (ownerAt?_eq_some_iff _ _ _ _).mpr
        (.inl ⟨_, turbofish, opening, trailing, closing, h, rfl⟩)
    · simpa [stateOwner?] using (ownerAt?_eq_some_iff _ _ _ _).mpr
        (.inr ⟨_, h, rfl, hbefore, rfl⟩)

namespace Ty

theorem stateOwner?_eq_some_iff (t owner : Ty) :
    t.stateOwner? = some owner ↔ t.SpellsState owner := by
  simp only [SpellsState, wraps_path_iff, ← QPath.stateOwner?_eq_some_iff, ← isReducer_iff,
    stateOwner?]
  split
  next p hp => simp [hp, Option.filter_eq_some_iff]
  next hp =>
    have hnone : ∀ p, t.inner ≠ .path p := hp
    simp [hnone]

theorem optional?_eq_some_iff (t elem : Ty) : t.optional? = some elem ↔
    ∃ leading before name turbofish opening trailing closing,
      Wraps (.path (.plain
        ⟨leading, before ++ [.angled name turbofish opening [.type elem] trailing closing]⟩)) t ∧
      name.name = "Option" := by
  simp only [wraps_path_iff]
  constructor
  · intro h
    unfold optional? at h
    split at h
    next path hp =>
      obtain ⟨last, hlast, h⟩ := Option.bind_eq_some_iff.mp h
      split at h
      next hname =>
        obtain ⟨before, hsegments⟩ := List.getLast?_eq_some_iff.mp hlast
        obtain ⟨name, turbofish, opening, trailing, closing, rfl⟩ :=
          (last.soleType?_eq_some_iff elem).mp h
        cases path with
        | mk leading segments =>
          obtain rfl : segments = _ := hsegments
          exact ⟨leading, before, name, turbofish, opening, trailing, closing, hp, hname⟩
      next => cases h
    next => cases h
  · rintro ⟨leading, before, name, turbofish, opening, trailing, closing, hp, hname⟩
    simp [optional?, hp, hname, Segment.name, Segment.soleType?]

theorem spellsOption_iff (t owner : Ty) :
    t.SpellsOption owner ↔ t.optional?.bind stateOwner? = some owner := by
  simp only [Option.bind_eq_some_iff, optional?_eq_some_iff, stateOwner?_eq_some_iff]
  constructor
  · rintro ⟨leading, before, name, turbofish, opening, elem, trailing, closing, hw, hname, h⟩
    exact ⟨elem, ⟨leading, before, name, turbofish, opening, trailing, closing, hw, hname⟩, h⟩
  · rintro ⟨elem, ⟨leading, before, name, turbofish, opening, trailing, closing, hw, hname⟩, h⟩
    exact ⟨leading, before, name, turbofish, opening, elem, trailing, closing, hw, hname, h⟩

theorem SpellsOption.stateOwner?_eq_none {t owner : Ty} (h : t.SpellsOption owner) :
    t.stateOwner? = none := by
  obtain ⟨leading, before, name, turbofish, opening, elem, trailing, closing, hw, hname, -⟩ := h
  rw [wraps_path_iff] at hw
  simp [stateOwner?, hw, QPath.stateOwner?, ownerAt?, Segment.isAlias, Segment.isState,
    Segment.name, hname]

end Ty

end Delegation
