import Mathlib.Data.List.Basic
import Delegation.Proofs.Fallible
import Delegation.Proofs.StateType

namespace Delegation

open Fallible

inductive Expr.Wraps (e : Expr) : Expr → Prop where
  | bare : Wraps e e
  | paren (attrs : List Tree) (span : Span) {u : Expr} : Wraps e u → Wraps e (.paren attrs span u)
  | group (attrs : List Tree) (span : Span) {u : Expr} : Wraps e u → Wraps e (.group attrs span u)

/-- A segment that is searched for: `State` without arguments, or anything called `StateOf`. -/
def Segment.LooksLikeState (s : Segment) : Prop :=
  (∃ name, s = .plain name ∧ name.name = "State") ∨ s.name.name = "StateOf"

/-- A path that constructs the state of a type, if that type is a reducer: a path that names the
state, or one with a further segment. Behind an unqualified path the further segment must not look
like a state, since the search starts from the end. -/
inductive QPath.ConstructsState : QPath → Ty → Prop where
  | qualified (opening : Span) (owner : Ty) (via : Option Path) (closing : Span) {name : Ident}
      (further : Option Segment) :
      name.name = "State" →
      ConstructsState (.qualified opening owner via closing (.plain name :: further.toList)) owner
  | alias (leading : Option Span) (before : List Segment) {name : Ident} (turbofish : Bool)
      (opening : Span) (owner : Ty) (trailing : Bool) (closing : Span) {further : Option Segment} :
      name.name = "StateOf" → (∀ s ∈ further, ¬ s.LooksLikeState) →
      ConstructsState
        (.plain ⟨leading, before ++
          .angled name turbofish opening [.type owner] trailing closing :: further.toList⟩) owner
  | member (leading : Option Span) {before : List Segment} {name : Ident}
      {further : Option Segment} :
      before ≠ [] → name.name = "State" → (∀ s ∈ further, ¬ s.LooksLikeState) →
      ConstructsState (.plain ⟨leading, before ++ .plain name :: further.toList⟩)
        (ownerType leading before)

namespace Expr

def Calls (e : Expr) (p : QPath) : Prop :=
  ∃ attrs callee args span front,
    Wraps (.call attrs callee args span) e ∧ Wraps (.path front p) callee

def ConstructsState (e : Expr) (owner : Ty) : Prop :=
  ∃ p : QPath, e.Calls p ∧ p.ConstructsState owner ∧ owner.NamesReducer

theorem wraps_inner (e : Expr) : Wraps e.inner e := by
  fun_induction inner e with
  | case1 attrs span e ih => exact .paren attrs span ih
  | case2 attrs span e ih => exact .group attrs span ih
  | case3 e => exact .bare

theorem Wraps.inner_eq {e u : Expr} (h : Wraps e u) : u.inner = e.inner := by
  induction h with
  | bare => rfl
  | paren attrs span _ ih | group attrs span _ ih => rw [inner, ih]

theorem wraps_iff {core e : Expr} (hcore : core.inner = core) : Wraps core e ↔ e.inner = core :=
  ⟨fun h => h.inner_eq.trans hcore, fun h => h ▸ e.wraps_inner⟩

theorem wraps_call_iff {attrs args : List Tree} {callee e : Expr} {span : Span} :
    Wraps (.call attrs callee args span) e ↔ e.inner = .call attrs callee args span :=
  wraps_iff rfl

theorem wraps_path_iff {front : List Tree} {p : QPath} {e : Expr} :
    Wraps (.path front p) e ↔ e.inner = .path front p :=
  wraps_iff rfl

theorem Calls.unique {e : Expr} {p q : QPath} (hp : e.Calls p) (hq : e.Calls q) : p = q := by
  obtain ⟨_, _, _, _, _, hcall, hpath⟩ := hp
  obtain ⟨_, _, _, _, _, hcall', hpath'⟩ := hq
  rw [wraps_call_iff] at hcall hcall'
  cases hcall.symm.trans hcall'
  rw [wraps_path_iff] at hpath hpath'
  cases hpath.symm.trans hpath'
  rfl

theorem stateOwner?_of_calls {e : Expr} {p : QPath} (h : e.Calls p) :
    e.stateOwner? = p.constructedOwner?.filter Ty.isReducer := by
  obtain ⟨attrs, callee, args, span, front, hcall, hpath⟩ := h
  simp only [stateOwner?, wraps_call_iff.mp hcall, wraps_path_iff.mp hpath]

theorem calls_of_stateOwner? {e : Expr} {owner : Ty} (h : e.stateOwner? = some owner) :
    ∃ p, e.Calls p := by
  unfold stateOwner? at h
  split at h
  next attrs callee args span hcall =>
    split at h
    next front p hpath =>
      exact ⟨p, attrs, callee, args, span, front, wraps_call_iff.mpr hcall,
        wraps_path_iff.mpr hpath⟩
    next => cases h
  next => cases h

end Expr

theorem Segment.looksLikeState_iff (s : Segment) :
    s.LooksLikeState ↔ (s.isState || s.isAlias) = true := by
  rw [LooksLikeState, ← s.isState_iff, Bool.or_eq_true, isAlias, beq_iff_eq]

theorem ownerAt?_eq_none {leading : Option Span} {before : List Segment} {s : Segment}
    (h : ¬ s.LooksLikeState) : ownerAt? leading before s = none := by
  rw [s.looksLikeState_iff, Bool.or_eq_true, not_or] at h
  simp [ownerAt?, h.1, h.2]

namespace QPath

section Unqualified

variable {leading : Option Span} {before : List Segment} {s last : Segment}

theorem constructedOwner?_last (h : last.LooksLikeState) :
    (plain ⟨leading, before ++ [last]⟩).constructedOwner? = ownerAt? leading before last := by
  rw [last.looksLikeState_iff] at h
  simp [constructedOwner?, h]

theorem constructedOwner?_further (h : ¬ last.LooksLikeState) :
    (plain ⟨leading, before ++ [s, last]⟩).constructedOwner? = ownerAt? leading before s := by
  have hlast := h
  rw [last.looksLikeState_iff, Bool.not_eq_true] at hlast
  by_cases hs : s.LooksLikeState
  · rw [s.looksLikeState_iff] at hs
    simp [constructedOwner?, hlast, hs]
  · rw [ownerAt?_eq_none hs]
    rw [s.looksLikeState_iff, Bool.not_eq_true] at hs
    simp [constructedOwner?, hlast, hs]

theorem constructedOwner?_single (h : ¬ last.LooksLikeState) :
    (plain ⟨leading, [last]⟩).constructedOwner? = none := by
  rw [last.looksLikeState_iff, Bool.not_eq_true] at h
  simp [constructedOwner?, h]

/-- The search finds the last segment or the one before it, or nothing. -/
theorem constructedOwner?_cases (leading : Option Span) (segments : List Segment) {owner : Ty}
    (h : (plain ⟨leading, segments⟩).constructedOwner? = some owner) :
    ∃ before s further, segments = before ++ s :: Option.toList further ∧
      (∀ c ∈ further, ¬ c.LooksLikeState) ∧ ownerAt? leading before s = some owner := by
  obtain rfl | ⟨front, last, rfl⟩ := segments.eq_nil_or_concat'
  · cases h
  · by_cases hlast : last.LooksLikeState
    · rw [constructedOwner?_last hlast] at h
      exact ⟨front, last, none, rfl, by simp, h⟩
    · obtain rfl | ⟨before, s, rfl⟩ := front.eq_nil_or_concat'
      · rw [List.nil_append, constructedOwner?_single hlast] at h
        cases h
      · rw [List.append_assoc, List.singleton_append, constructedOwner?_further hlast] at h
        exact ⟨before, s, some last, by simp, by simpa using hlast, h⟩

theorem constructedOwner?_of_further (hs : s.LooksLikeState) {further : Option Segment}
    (h : ∀ c ∈ further, ¬ c.LooksLikeState) :
    (plain ⟨leading, before ++ s :: further.toList⟩).constructedOwner? =
      ownerAt? leading before s := by
  cases further with
  | none => exact constructedOwner?_last hs
  | some c => exact constructedOwner?_further (h c rfl)

end Unqualified

theorem constructedOwner?_eq_some_iff (p : QPath) (owner : Ty) :
    p.constructedOwner? = some owner ↔ p.ConstructsState owner := by
  constructor
  · intro h
    cases p with
    | plain path =>
      cases path with
      | mk leading segments =>
        obtain ⟨before, s, further, rfl, hfurther, h⟩ := constructedOwner?_cases leading segments h
        obtain ⟨name, turbofish, opening, trailing, closing, hname, rfl⟩ |
          ⟨name, hname, rfl, hbefore, rfl⟩ := (ownerAt?_eq_some_iff leading before s owner).mp h
        · exact .alias leading before turbofish opening owner trailing closing hname hfurther
        · exact .member leading hbefore hname hfurther
    | qualified opening self via closing members =>
      have hmember {m : Segment} (further : Option Segment)
          (h : (if m.isState then some self else none) = some owner) :
          (qualified opening self via closing (m :: further.toList)).ConstructsState owner := by
        split at h
        next hm =>
          obtain ⟨name, rfl, hname⟩ := m.isState_iff.mp hm
          obtain rfl : self = owner := by simpa using h
          exact .qualified opening self via closing further hname
        next => cases h
      simp only [constructedOwner?] at h
      split at h
      next m => exact hmember none h
      next m s => exact hmember (some s) h
      next => cases h
  · rintro (⟨opening, owner, via, closing, further, h⟩ |
      ⟨leading, before, turbofish, opening, owner, trailing, closing, h, hfurther⟩ |
      ⟨leading, hbefore, h, hfurther⟩)
    · cases further <;> simp [constructedOwner?, Segment.isState, h]
    · rw [constructedOwner?_of_further (by exact .inr h) hfurther, ownerAt?_eq_some_iff]
      exact .inl ⟨_, turbofish, opening, trailing, closing, h, rfl⟩
    · rw [constructedOwner?_of_further (.inl ⟨_, rfl, h⟩) hfurther, ownerAt?_eq_some_iff]
      exact .inr ⟨_, h, rfl, hbefore, rfl⟩

end QPath

theorem Expr.stateOwner?_eq_some_iff (e : Expr) (owner : Ty) :
    e.stateOwner? = some owner ↔ e.ConstructsState owner := by
  constructor
  · intro h
    obtain ⟨p, hp⟩ := calls_of_stateOwner? h
    rw [stateOwner?_of_calls hp, Option.filter_eq_some_iff, QPath.constructedOwner?_eq_some_iff,
      Ty.isReducer_iff] at h
    exact ⟨p, hp, h⟩
  · rintro ⟨p, hp, h, howner⟩
    rw [stateOwner?_of_calls hp, Option.filter_eq_some_iff, QPath.constructedOwner?_eq_some_iff,
      Ty.isReducer_iff]
    exact ⟨h, howner⟩

section Positions

variable {leading : Option Span} {before after segments : List Segment} {s : Segment}

end Positions

section Initializer

variable {f : FieldDecl} (hstate : ∀ owner, ¬ f.type.SpellsState owner)
  (hoption : ∀ owner, ¬ f.type.SpellsOption owner)

include hstate hoption

theorem FieldDecl.child?_eq_initializer :
    f.child? = (f.init.bind Expr.stateOwner?).map (⟨·, false⟩) := by
  simp only [← Ty.stateOwner?_eq_some_iff] at hstate
  simp only [Ty.spellsOption_iff] at hoption
  rw [← Option.eq_none_iff_forall_ne_some] at hstate hoption
  rw [child?, hstate, hoption]

theorem FieldDecl.child?_eq_some_iff (owner : Ty) :
    f.child? = some ⟨owner, false⟩ ↔ ∃ e, f.init = some e ∧ e.ConstructsState owner := by
  rw [child?_eq_initializer hstate hoption]
  simp [Option.bind_eq_some_iff, Expr.stateOwner?_eq_some_iff]

theorem FieldDecl.child?_eq_none (h : ∀ e owner, f.init = some e → ¬ e.ConstructsState owner) :
    f.child? = none := by
  rw [child?_eq_initializer hstate hoption, Option.map_eq_none_iff, Option.bind_eq_none_iff]
  intro e he
  rw [Option.eq_none_iff_forall_ne_some]
  intro owner
  rw [ne_eq, Expr.stateOwner?_eq_some_iff]
  exact h e owner he

end Initializer

namespace FieldDecl

def sample (init : Expr) : FieldDecl :=
  ⟨⟨"child", .made⟩, .ofIdent ⟨"Counter", .made⟩, some init, [directiveName], [], none⟩

def samplePath (names : List String) : QPath :=
  .plain ⟨none, names.map fun n => .plain ⟨n, .made⟩⟩

def sampleCall (names : List String) : Expr := .call [] (.path [] (samplePath names)) [] .made

theorem not_spells_sample (init : Expr) : (∀ o, ¬ (sample init).type.SpellsState o) ∧
    ∀ o, ¬ (sample init).type.SpellsOption o := by
  have hstate : (sample init).type.stateOwner? = none := rfl
  have hoption : (sample init).type.optional?.bind Ty.stateOwner? = none := rfl
  simp [← Ty.stateOwner?_eq_some_iff, Ty.spellsOption_iff, hstate, hoption]

end FieldDecl

def Segment.inExpr : Segment → Segment
  | .plain name => .plain name
  | .angled name _ opening args trailing closing => .angled name true opening args trailing closing

namespace QPath

/-- A path as it is written in an expression. The types and the trait inside it stay as they are. -/
def inExpr : QPath → QPath
  | plain path => plain ⟨path.leading, path.segments.map Segment.inExpr⟩
  | qualified opening self via closing members =>
    qualified opening self via closing (members.map Segment.inExpr)

/-- The path itself, or with one more name. -/
def further (p : QPath) (name : Option Ident) : QPath :=
  match p with
  | plain path => plain ⟨path.leading, path.segments ++ (name.map Segment.plain).toList⟩
  | qualified opening self via closing members =>
    qualified opening self via closing (members ++ (name.map Segment.plain).toList)

def IsQualified : QPath → Prop
  | plain _ => False
  | qualified .. => True

end QPath

def Ty.inExpr : Ty → Ty
  | .path p => .path p.inExpr
  | t => t

def Ident.IsStateWord (i : Ident) : Prop := i.name = "State" ∨ i.name = "StateOf"

@[simp] theorem Segment.inExpr_name (s : Segment) : s.inExpr.name = s.name := by
  cases s <;> rfl

@[simp] theorem Segment.inExpr_inExpr (s : Segment) : s.inExpr.inExpr = s.inExpr := by
  cases s <;> rfl

theorem Segment.looksLikeState_plain (i : Ident) :
    (Segment.plain i).LooksLikeState ↔ i.IsStateWord := by
  simp [LooksLikeState, Ident.IsStateWord, Segment.name]

theorem Ident.IsStateWord.not_reducer {i : Ident} (h : i.IsStateWord) : ¬ EndsWithReducer i := by
  rw [← isReducerName_iff]
  obtain h | h := h
  all_goals
    rw [h]
    decide

theorem ownerType_inExpr (leading : Option Span) (segments : List Segment) :
    (ownerType leading (segments.map Segment.inExpr)).inExpr =
      (ownerType leading segments).inExpr := by
  simp [ownerType, Ty.inExpr, QPath.inExpr]

theorem QPath.NamesReducer.inExpr {p : QPath} (h : p.NamesReducer) : p.inExpr.NamesReducer := by
  obtain ⟨leading, before, h⟩ | ⟨opening, self, via, closing, before, h⟩ := h
  · rw [QPath.inExpr, List.map_append]
    exact .plain leading _ (by rwa [Segment.inExpr_name])
  · rw [QPath.inExpr, List.map_append]
    exact .qualified opening self via closing _ (by rwa [Segment.inExpr_name])

theorem ownerType_namesReducer {leading : Option Span} {segments : List Segment} :
    (ownerType leading segments).NamesReducer ↔
      (QPath.plain ⟨leading.map fun _ => .made, segments⟩).NamesReducer := by
  simp [Ty.NamesReducer, Ty.wraps_path_iff, ownerType, Ty.inner]

section Spelling

variable {T : QPath} {owner : Ty}

theorem QPath.NamesState.constructsState (h : T.NamesState owner) (howner : owner.NamesReducer)
    {name : Option Ident} (hname : T.IsQualified ∨ ∀ i ∈ name, ¬ i.IsStateWord) :
    ∃ o : Ty, (T.inExpr.further name).ConstructsState o ∧ o.NamesReducer ∧
      o.inExpr = owner.inExpr := by
  have hfurther (hname : False ∨ ∀ i ∈ name, ¬ i.IsStateWord) :
      ∀ s ∈ name.map Segment.plain, ¬ s.LooksLikeState := by
    intro s hs
    obtain ⟨i, hi, rfl⟩ := Option.map_eq_some_iff.mp hs
    rw [Segment.looksLikeState_plain]
    exact hname.resolve_left id i hi
  obtain ⟨opening, owner, via, closing, hstate⟩ | ⟨leading, before, turbofish, opening, owner,
    trailing, closing, halias⟩ | ⟨leading, hbefore, hstate⟩ := h
  · exact ⟨owner, .qualified opening owner via closing _ hstate, howner, rfl⟩
  · refine ⟨owner, ?_, howner, rfl⟩
    simp only [inExpr, further, List.map_append, List.append_assoc]
    exact .alias leading _ true opening owner trailing closing halias (hfurther hname)
  · refine ⟨_, ?_, ?_, ownerType_inExpr leading _⟩
    · simp only [inExpr, further, List.map_append, List.append_assoc]
      exact .member leading (by simpa using hbefore) hstate (hfurther hname)
    · rw [ownerType_namesReducer] at howner ⊢
      exact howner.inExpr

theorem QPath.NamesState.exists_last (h : T.NamesState owner) (hT : ¬ T.IsQualified) :
    ∃ leading before s, T = .plain ⟨leading, before ++ [s]⟩ ∧ s.name.IsStateWord := by
  obtain ⟨opening, owner, via, closing, hstate⟩ | ⟨leading, before, turbofish, opening, owner,
    trailing, closing, halias⟩ | ⟨leading, hbefore, hstate⟩ := h
  · exact absurd trivial hT
  · exact ⟨leading, before, _, rfl, .inr halias⟩
  · exact ⟨leading, _, _, rfl, .inl hstate⟩

/-- Behind an unqualified path a constructor that is called as the search is takes the place of the
state, and what stands before it is no reducer. -/
theorem QPath.NamesState.not_constructsState (h : T.NamesState owner) (hT : ¬ T.IsQualified)
    {i : Ident} (hi : i.IsStateWord) {o : Ty}
    (hconstructs : (T.inExpr.further (some i)).ConstructsState o) : ¬ o.NamesReducer := by
  obtain ⟨leading, before, s, rfl, hs⟩ := h.exists_last hT
  rw [← constructedOwner?_eq_some_iff] at hconstructs
  change (plain ⟨leading, (before ++ [s]).map Segment.inExpr ++ [.plain i]⟩).constructedOwner? =
    some o at hconstructs
  rw [constructedOwner?_last ((Segment.looksLikeState_plain i).mpr hi), ownerAt?_eq_some_iff]
    at hconstructs
  obtain ⟨_, _, _, _, _, -, halias⟩ | ⟨_, -, -, -, rfl⟩ := hconstructs
  · -- an alias has an argument, and the name that was added has none
    cases halias
  · rw [ownerType_namesReducer, namesReducer_iff]
    rintro ⟨last, hlast, hreducer⟩
    obtain rfl : s.inExpr = last := by simpa [last?] using hlast
    rw [Segment.inExpr_name] at hreducer
    exact hs.not_reducer hreducer

end Spelling

/-- A type that spells a state and a call of one of its constructors mean the same reducer: in an
initializer the path of the type is found, alone or before a constructor. Only behind an unqualified
path a constructor called `State` or `StateOf` is taken for the state, and then nothing is found. -/
theorem FieldDecl.child_of_constructor_call {f : FieldDecl}
    (hstate : ∀ o, ¬ f.type.SpellsState o) (hoption : ∀ o, ¬ f.type.SpellsOption o) {T : QPath}
    {owner : Ty} (hT : (Ty.path T).SpellsState owner) {e : Expr} (he : f.init = some e)
    {name : Option Ident} (hcalls : e.Calls (T.inExpr.further name)) :
    (f.child? = none ↔ ¬ T.IsQualified ∧ ∃ i ∈ name, i.IsStateWord) ∧
    (f.child? ≠ none → ∃ o, f.child? = some ⟨o, false⟩ ∧ o.inExpr = owner.inExpr) := by
  obtain ⟨p, hp, hnames, howner⟩ := hT
  obtain rfl : p = T := by simpa [Ty.wraps_path_iff, Ty.inner, eq_comm] using hp
  by_cases hhidden : ¬ p.IsQualified ∧ ∃ i ∈ name, i.IsStateWord
  · have hfound : f.child? = none := by
      refine child?_eq_none hstate hoption fun e' o he' => ?_
      obtain rfl : e = e' := Option.some.inj (he.symm.trans he')
      rintro ⟨q, hq, hconstructs, hreducer⟩
      obtain rfl := hq.unique hcalls
      obtain ⟨hqualified, i, hi, hword⟩ := hhidden
      obtain rfl := Option.mem_def.mp hi
      exact hnames.not_constructsState hqualified hword hconstructs hreducer
    exact ⟨iff_of_true hfound hhidden, fun h => absurd hfound h⟩
  · have hname : p.IsQualified ∨ ∀ i ∈ name, ¬ i.IsStateWord := by
      by_cases hqualified : p.IsQualified
      · exact .inl hqualified
      · exact .inr fun i hi hword => hhidden ⟨hqualified, i, hi, hword⟩
    obtain ⟨o, hconstructs, hreducer, hsame⟩ := hnames.constructsState howner hname
    have hfound : f.child? = some ⟨o, false⟩ :=
      (child?_eq_some_iff hstate hoption o).mpr ⟨e, he, _, hcalls, hconstructs, hreducer⟩
    exact ⟨iff_of_false (by simp [hfound]) hhidden, fun _ => ⟨o, hfound, hsame⟩⟩

namespace FieldDecl

theorem samplePath_spells : (Ty.path (samplePath ["FooReducer", "State"])).SpellsState
    (.ofIdent ⟨"FooReducer", .made⟩) :=
  (Ty.stateOwner?_eq_some_iff _ _).mp rfl

theorem child_of_constructor_new : ∃ o : Ty,
    (sample (sampleCall ["FooReducer", "State", "new"])).child? = some ⟨o, false⟩ ∧
      o.inExpr = (Ty.ofIdent ⟨"FooReducer", .made⟩).inExpr := by
  obtain ⟨hstate, hoption⟩ := not_spells_sample (sampleCall ["FooReducer", "State", "new"])
  have hcalls : (sampleCall ["FooReducer", "State", "new"]).Calls
      ((samplePath ["FooReducer", "State"]).inExpr.further (some ⟨"new", .made⟩)) :=
    ⟨[], _, [], .made, [], .bare, .bare⟩
  obtain ⟨hnone, hsome⟩ :=
    child_of_constructor_call hstate hoption samplePath_spells rfl hcalls
  refine hsome fun h => ?_
  obtain ⟨-, i, hi, hword⟩ := hnone.mp h
  cases hi
  exact absurd hword (by simp [Ident.IsStateWord])

/-- A constructor called `State` hides the state: `FooReducer::State::State()` is not found. -/
theorem not_child_of_constructor_call : ¬ ∀ (f : FieldDecl) (T : QPath) (owner : Ty) (e : Expr) i,
    (∀ o, ¬ f.type.SpellsState o) → (∀ o, ¬ f.type.SpellsOption o) →
    (Ty.path T).SpellsState owner → f.init = some e → e.Calls (T.inExpr.further (some i)) →
    ∃ o : Ty, f.child? = some ⟨o, false⟩ ∧ o.inExpr = owner.inExpr := by
  intro h
  obtain ⟨hstate, hoption⟩ := not_spells_sample (sampleCall ["FooReducer", "State", "State"])
  obtain ⟨o, ho, -⟩ := h _ (samplePath ["FooReducer", "State"]) _
    (sampleCall ["FooReducer", "State", "State"]) ⟨"State", .made⟩ hstate hoption samplePath_spells
    rfl ⟨[], _, [], .made, [], .bare, .bare⟩
  have hnone : (sample (sampleCall ["FooReducer", "State", "State"])).child? = none := rfl
  cases hnone.symm.trans ho

end FieldDecl

end Delegation
