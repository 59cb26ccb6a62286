import Delegation.Proofs.Clear

namespace Delegation

open Fallible

mutual

theorem Tree.weight_bare (t : Tree) : t.bare.weight = t.weight := by
  match t with
  | .ident .. | .punct .. | .literal .. => rfl
  | .group _ inner _ => rw [Tree.bare, Tree.weight, Tree.weight, Trees.weight_bare inner]

theorem Trees.weight_bare (ts : List Tree) : Trees.weight (Trees.bare ts) = Trees.weight ts := by
  match ts with
  | [] => rfl
  | t :: ts =>
    rw [Trees.bare, Trees.weight, Trees.weight, Tree.weight_bare t, Trees.weight_bare ts]

end

namespace Item

def decorated (args : Directive) : Item → List Struct
  | .module _ items =>
    match reducerOf args items with
    | .ok (some reducer) =>
      (items.filterMap Item.struct?).filter fun s => !reducer.names s.name.name
    | _ => []
  | _ => []

/-- A second pass finds the derives of the first: by their path, or because none had to be added. -/
def KeepsDerives (args : Directive) (item : Item) : Prop :=
  (Attr.deriveFrom args.runtimePath).isDerive = true ∨
    ∀ s ∈ item.decorated args, s.hasDerive = true

theorem keepsDerives_iff {args : Directive} {reducer : Ty} {head : ModuleHead} {items : List Item}
    (h : reducerOf args items = .ok (some reducer)) :
    (Item.module head items).KeepsDerives args ↔
      ∀ i ∈ items, i.isRepeated args reducer = false := by
  have hmem (s : Struct) : s ∈ (Item.module head items).decorated args ↔
      .struct s ∈ items ∧ reducer.names s.name.name = false := by
    simp only [decorated, h, List.mem_filter, List.mem_filterMap, Bool.not_eq_true']
    refine and_congr_left fun _ => ⟨?_, fun hs => ⟨_, hs, rfl⟩⟩
    rintro ⟨i, hi, hs⟩
    cases i with
    | struct t =>
      cases hs
      exact hi
    | impl | module | fileModule | other => cases hs
  simp only [KeepsDerives, hmem]
  constructor
  · intro hkeeps i hi
    cases i with
    | struct s => simp only [isRepeated, Struct.isRepeated]; grind
    | impl | module | fileModule | other => rfl
  · intro hall
    by_cases hderive : (Attr.deriveFrom args.runtimePath).isDerive = true
    · exact .inl hderive
    · refine .inr ?_
      rintro s ⟨hs, hnames⟩
      have := hall _ hs
      simp only [isRepeated, Struct.isRepeated] at this
      grind

theorem weight_deriveFrom_pos (runtime : Path) :
    0 < Trees.weight (Attr.deriveFrom runtime).tokens := by
  simp only [Attr.deriveFrom, Attr.made, Attr.tokens, Trees.weight_append]
  exact Nat.add_pos_right _ (by simp [Trees.weight, Tree.weight])

theorem attach_decorated {args : Directive} {reducer : Ty} (head : ModuleHead)
    {items : List Item} (h : reducerOf args items = .ok (some reducer)) {once : Item}
    (honce : once = .module head (items.map (Item.decorate args reducer))) :
    ∃ twice, once.attach args = .ok twice ∧
      (twice = once ↔ (Item.module head items).KeepsDerives args) ∧
      (Trees.bare twice.tokens = Trees.bare once.tokens ↔
        (Item.module head items).KeepsDerives args) := by
  have htwice : once.attach args = .ok (.module head
      ((items.map (Item.decorate args reducer)).map (Item.decorate args reducer))) := by
    rw [honce]
    exact attach_of_reducerOf head _ ((reducerOf_decorate args reducer args items).trans h)
  refine ⟨_, htwice, ?_⟩
  rw [keepsDerives_iff h, honce]
  have hkept (hk : ∀ i ∈ items, i.isRepeated args reducer = false) :=
    Delegation.decorate_decorate args reducer items hk
  have hsame (hb : Trees.bare (Item.module head ((items.map (Item.decorate args reducer)).map
        (Item.decorate args reducer))).tokens =
      Trees.bare (Item.module head (items.map (Item.decorate args reducer))).tokens) :
      ∀ i ∈ items, i.isRepeated args reducer = false := by
    -- the tokens of each repeated derive would make the second result heavier
    have hweight := congrArg Trees.weight hb
    simp only [Trees.weight_bare, Item.tokens, Trees.weight_append, Trees.weight,
      Tree.weight, Delegation.weight_decorate_decorate] at hweight
    have hzero : items.countP (Item.isRepeated args reducer) *
        Trees.weight (Attr.deriveFrom args.runtimePath).tokens = 0 := by omega
    have hcount := (Nat.mul_eq_zero.mp hzero).resolve_right
      (Nat.ne_of_gt (weight_deriveFrom_pos _))
    simpa [List.countP_eq_zero] using hcount
  exact ⟨⟨fun he => hsame (by rw [he]), fun hk => by rw [hkept hk]⟩,
    ⟨hsame, fun hk => by rw [hkept hk]⟩⟩

theorem exists_attach_twice {args : Directive} {item once : Item}
    (h : item.attach args = .ok once) :
    ∃ twice, once.attach args = .ok twice ∧
      (twice = once ↔ item.KeepsDerives args) ∧
      (Trees.bare twice.tokens = Trees.bare once.tokens ↔ item.KeepsDerives args) := by
  cases item with
  | module head items =>
    obtain ⟨items', hitems, rfl⟩ := attach_module_eq_ok.mp h
    obtain ⟨hnone, rfl⟩ | ⟨reducer, hsome, rfl⟩ := (attach_eq_ok args).mp hitems
    · have hkeeps : (Item.module head items').KeepsDerives args :=
        .inr (by simp [decorated, hnone])
      exact ⟨_, h, by simpa using hkeeps, by simpa using hkeeps⟩
    · exact attach_decorated head hsome rfl
  | fileModule tokens =>
    cases h
    have hkeeps : (Item.fileModule tokens).KeepsDerives args := .inr (by simp [decorated])
    exact ⟨_, rfl, by simpa using hkeeps, by simpa using hkeeps⟩
  | struct | impl | other => simp [Item.attach] at h

/-- The pass done twice always succeeds, and it changes something only if a derive was added whose
path cannot be read back; a path of names always can, and so can a clear one. -/
theorem attach_twice {ts : List Tree} {args : Directive} (hargs : Directive.ofArgs ts = .ok args)
    {item once : Item} (h : item.attach args = .ok once) :
    ∃ twice, once.attach args = .ok twice ∧
      (twice = once ↔ item.KeepsDerives args) ∧
      (Trees.bare twice.tokens = Trees.bare once.tokens ↔ item.KeepsDerives args) ∧
      (args.runtimePath.isPlain = true → twice = once) ∧
      (args.runtimePath.isClear = true → twice = once) := by
  obtain ⟨twice, htwice, hsame, htokens⟩ := exists_attach_twice h
  refine ⟨twice, htwice, hsame, htokens, fun hplain => hsame.mpr (.inl ?_),
    fun hclear => hsame.mpr (.inl ?_)⟩
  · exact Attr.isDerive_deriveFrom ((Directive.runtimePath_spelled hargs).written hplain)
  · exact Attr.isDerive_deriveFrom (Directive.runtimePath_written hargs hclear)

theorem attach_twice_sample :
    Directive.ofArgs [] = .ok .empty ∧ ∃ once, (sample []).attach .empty = .ok once ∧
      once.attach .empty = .ok once := by
  have hargs : Directive.ofArgs [] = .ok .empty := rfl
  let attrs : List Attr :=
    [.deriveFrom defaultRuntime, .directive (.ofIdent ⟨"AReducer", .made⟩) none]
  have honce : (sample []).attach .empty = .ok (sample attrs) := rfl
  obtain ⟨twice, htwice, -, -, hsame, -⟩ := attach_twice hargs honce
  obtain rfl := hsame rfl
  exact ⟨hargs, _, honce, htwice⟩

def keywordArgs : List Tree :=
  [Code.word "crate", Code.sign '=', Code.word "rt", Code.sign '<',
    .group .invisible [Code.word "self"] .made, Code.sign '<', Code.word "u8", Code.sign '>',
    Code.sign '>']

/-- The group lets a keyword take arguments, which it cannot when it is read again without it. -/
def keywordPath : Path :=
  ⟨none, [.angled ⟨"rt", .made⟩ false .made
    [.type (.path (.plain ⟨none, [.angled ⟨"self", .made⟩ false .made
      [.type (.ofIdent ⟨"u8", .made⟩)] false .made]⟩))] false .made]⟩

def keywordDerive : Attr := .deriveFrom keywordPath

def keywordDirective : Attr := .directive (.ofIdent ⟨"AReducer", .made⟩) (some keywordPath)

theorem not_attach_idempotent : ¬ ∀ ts args item once, Directive.ofArgs ts = .ok args →
    Item.attach args item = .ok once → ∃ twice, once.attach args = .ok twice ∧
      Trees.bare twice.tokens = Trees.bare once.tokens := by
  intro h
  have hargs : Directive.ofArgs keywordArgs = .ok ⟨none, some keywordPath⟩ := rfl
  have honce : (sample []).attach ⟨none, some keywordPath⟩ =
      .ok (sample [keywordDerive, keywordDirective]) := rfl
  have htwice : (sample [keywordDerive, keywordDirective]).attach ⟨none, some keywordPath⟩ =
      .ok (sample [keywordDerive, keywordDerive, keywordDirective]) := rfl
  obtain ⟨twice, hagain, hsame⟩ := h keywordArgs _ _ _ hargs honce
  cases htwice.symm.trans hagain
  have hweight := congrArg Trees.weight hsame
  exact absurd hweight (by decide)

end Item

end Delegation
