import Delegation.Container
import Delegation.Proofs.Fallible
import Delegation.Proofs.Written

namespace Delegation

open Fallible

namespace Reader

variable {α σ : Type} (g : Rules)

theorem once_yields {P : α → Prop} (begins : List Tree) (key : Path) (name : String)
    (slot : Option α) {value : Reader α} (hvalue : value.Yields P) :
    (once begins key name slot value).Yields fun r => ∃ v, r = some v ∧ P v := by
  refine .bind' fun _ => hvalue.bind fun v hv => ?_
  apply Yields.ite
  · exact fun _ => .bind' fun _ => .fail fun s => ⟨_, rfl⟩
  · exact fun _ => .pure ⟨v, rfl, hv⟩

theorem directiveOption_yields {P : Directive → Prop} {Q : Ty → Prop} {R : Path → Prop}
    (htype : (g.type true true).Yields Q) (hpath : (path g false).Yields R) (place : OptionPlace)
    (d : Directive) (hof : ∀ t, Q t → P { d with of := some t })
    (hruntime : ∀ p, R p → P { d with runtime := some p }) :
    (directiveOption place g d).Yields P := by
  refine .bind' fun begins => .bind' fun key => ?_
  apply Yields.ite
  · intro _
    refine (once_yields begins key "of" d.of htype).bind ?_
    rintro r ⟨t, rfl, ht⟩
    exact .pure (hof t ht)
  · intro _
    apply Yields.ite
    · intro _
      refine (once_yields begins key "crate" d.runtime hpath).bind ?_
      rintro r ⟨p, rfl, hp⟩
      exact .pure (hruntime p hp)
    · intro _
      exact .bind' fun _ => .fail fun s => ⟨_, rfl⟩

theorem directiveOption_of (place : OptionPlace) (d : Directive) (hd : d.of.isSome = true) :
    (directiveOption place g d).Yields fun d' => d'.of.isSome = true := by
  refine directiveOption_yields g (.anything _) (path_yields g false) place d ?_ ?_
  · exact fun t _ => rfl
  · exact fun p _ => hd

theorem directiveOption_runtime (place : OptionPlace) (d : Directive)
    (hd : ∀ p ∈ d.runtime, p.Spelled) :
    (directiveOption place g d).Yields fun d' => ∀ p ∈ d'.runtime, p.Spelled := by
  refine directiveOption_yields g (.anything _) (path_yields g false) place d ?_ ?_
  · exact fun t _ => hd
  · intro p hp q hq
    obtain rfl : p = q := by simpa using hq
    exact hp

/-- The end of the options, or a comma, after which they may end as well. -/
def afterOption (state : σ) : Reader (Round σ σ) := do
  if ← look .ended then return .done state
  let _ ← op ","
  if ← look .ended then return .done state
  return .again state

def optionsRound (entry : σ → Reader σ) (state : σ) : Reader (Round σ σ) :=
  entry state >>= afterOption

theorem afterOption_yields {I : σ → Prop} {a : σ} (ha : I a) :
    (afterOption a).Yields (Round.Holds I I) := by
  refine .bind' fun _ => ?_
  apply Yields.ite
  · exact fun _ => .pure ha
  · intro _
    refine .bind' fun _ => .bind' fun _ => ?_
    apply Yields.ite
    · exact fun _ => .pure ha
    · exact fun _ => .pure ha

theorem optionsRound_yields {entry : σ → Reader σ} {I : σ → Prop}
    (hentry : ∀ a, I a → (entry a).Yields I) (a : σ) (ha : I a) :
    (optionsRound entry a).Yields (Round.Holds I I) :=
  (hentry a ha).bind fun _ => afterOption_yields

theorem options_yields {entry : σ → Reader σ} {I : σ → Prop}
    (hentry : ∀ a, I a → (entry a).Yields I) {start : σ} (hstart : I start) :
    (options entry start).Yields I := by
  refine .bind' fun _ => ?_
  apply Yields.ite
  · exact fun _ => .pure hstart
  · exact fun _ => Yields.loop (optionsRound_yields hentry) hstart

theorem options_first {entry : σ → Reader σ} {I : σ → Prop} {start : σ} {s : Stream}
    (hentry : ∀ a, I a → (entry a).Yields I) (hs : s.rest ≠ [])
    (hfirst : ∀ a t, entry start s = .ok a t → I a) {a : σ} {t : Stream}
    (h : options entry start s = .ok a t) : I a := by
  have hended : Look.ended s.rest = false := by simpa [Look.ended] using hs
  rw [options, look_bind, hended] at h
  change rounds (optionsRound entry) (Trees.weight s.rest + 1 + 1) start s = .ok a t at h
  obtain ⟨round, u, hround, h⟩ := bind_eq_ok.mp h
  obtain ⟨b, v, hb, hround⟩ := bind_eq_ok.mp hround
  have hround := afterOption_yields (hfirst b v hb) v round u hround
  cases round with
  | again c => exact Yields.rounds (optionsRound_yields hentry) _ hround u a t h
  | done c =>
    obtain ⟨rfl, -⟩ := pure_eq_ok.mp h
    exact hround

/-- An option that begins with `of =` names a reducer, if it can be read. -/
theorem directiveOption_first (place : OptionPlace) (d : Directive) (rest : List Tree)
    (close : Span) (left : Option Failure) {d' : Directive} {t : Stream}
    (h : directiveOption place g d ⟨Code.word "of" :: Code.sign '=' :: rest, close, left⟩ =
      .ok d' t) : d'.of.isSome = true := by
  have hkey : optionKey ⟨Code.word "of" :: Code.sign '=' :: rest, close, left⟩ =
      .ok ⟨none, [.plain ⟨"of", .made⟩]⟩ ⟨Code.sign '=' :: rest, close, left⟩ := rfl
  unfold directiveOption at h
  obtain ⟨begins, u, hu, h⟩ := bind_eq_ok.mp h
  cases hu
  rw [bind_of_ok hkey] at h
  obtain ⟨r, u, hr, h⟩ := bind_eq_ok.mp h
  obtain ⟨v, rfl, -⟩ := once_yields _ _ "of" d.of (.anything _) _ r u hr
  obtain ⟨rfl, -⟩ := pure_eq_ok.mp h
  rfl

end Reader

theorem Directive.runtimePath_spelled {ts : List Tree} {args : Directive}
    (h : Directive.ofArgs ts = .ok args) : args.runtimePath.Spelled := by
  obtain ⟨t, ht⟩ := Reader.run_ok h
  have hruntime := Reader.options_yields
    (I := fun d : Directive => ∀ p ∈ d.runtime, p.Spelled)
    (fun d => Reader.directiveOption_runtime (rulesFor ts) .container d)
    (by simp [Directive.empty]) _ args t ht
  cases hp : args.runtime with
  | some p =>
    rw [Directive.runtimePath, hp]
    exact hruntime p hp
  | none =>
    rw [Directive.runtimePath, hp]
    refine ⟨by simp [defaultRuntime], fun i hi => ?_⟩
    simp only [Option.getD_none, defaultRuntime, List.mem_singleton, Segment.plain.injEq] at hi
    subst hi
    exact .inr (by decide)

theorem Segments.tokensAfter_append (ss ts : List Segment) :
    Segments.tokensAfter (ss ++ ts) = Segments.tokensAfter ss ++ Segments.tokensAfter ts := by
  induction ss with
  | nil => rfl
  | cons s ss ih => simp [Segments.tokensAfter, ih]

def Path.member (p : Path) (name : String) : Path :=
  ⟨p.leading, p.segments ++ [.plain ⟨name, .made⟩]⟩

theorem Path.tokens_member (p : Path) (hp : p.segments ≠ []) (name : String) :
    p.tokens ++ Code.below [name] = (p.member name).tokens := by
  cases p with
  | mk leading segments =>
    cases segments with
    | nil => exact absurd rfl hp
    | cons s ss =>
      have hbelow : Code.below [name] = Segments.tokensAfter [.plain ⟨name, .made⟩] := rfl
      cases leading <;>
        simp [member, Path.tokens, Segments.tokens, Segments.tokensAfter_append, hbelow]

theorem Path.written_member {p : Path} (hp : p.Written) {name : String}
    (hname : isKeyword name = false) : (p.member name).Written := by
  obtain ⟨leading, segments⟩ := p
  obtain ⟨-, hsegments⟩ := Path.written_iff.mp hp
  refine Path.written_iff.mpr ⟨by simp, fun s hs => ?_⟩
  obtain hs | hs := List.mem_append.mp hs
  · exact hsegments s hs
  · rw [List.mem_singleton.mp hs]
    exact .plain (.inr hname)

theorem Path.Spelled.written {p : Path} (hp : p.Spelled) (hplain : p.isPlain = true) :
    p.Written := by
  obtain ⟨leading, segments⟩ := p
  refine Path.written_iff.mpr ⟨hp.1, fun s hs => ?_⟩
  cases s with
  | plain i => exact .plain (hp.2 i hs)
  | angled => simpa [Path.isPlain, Segment.isPlain] using List.all_eq_true.mp hplain _ hs

/-- A list of derives with one path is read as that path. -/
theorem Reader.readWithin_path {p : Path} (hp : p.Written) (close : Span) :
    readWithin (fun g => separated .ended "," (path g false)) p.tokens close =
      .ok ([p], false) := by
  have hended : Look.ended p.tokens = false := by
    have hbegins := hp.begins []
    rw [List.append_nil] at hbegins
    simpa [Look.ended] using hbegins.ne_nil
  have hread := hp.reads (rules_readsBelow (4 * Trees.weight p.tokens + 16)) (by omega) .ended
  rw [List.append_nil] at hread
  refine run_of_reads ?_ _ close
  exact .one (.look hended (.bind hread (.look rfl .pure)))

namespace Attr

@[simp] theorem isNamed_made (name : String) (args : List Tree) (n : String) :
    (made name args).isNamed n = (name == n) := rfl

def isDerive (a : Attr) : Bool :=
  a.isNamed "derive" &&
    a.derives.any fun p => p.segments.getLast?.any fun seg => seg.name.name == deriveName

theorem isNamed_deriveFrom (runtime : Path) :
    (deriveFrom runtime).isNamed directiveName = false := by
  rw [deriveFrom, isNamed_made]
  decide

theorem isNamed_directive (reducer : Ty) (runtime : Option Path) :
    (directive reducer runtime).isNamed directiveName = true := by
  change (directiveName == directiveName) = true
  decide

theorem isDerive_directive (reducer : Ty) (runtime : Option Path) :
    (directive reducer runtime).isDerive = false := by
  change ((directiveName == "derive") && _) = false
  rfl

/-- A directive that names a reducer says so when it is read, whatever was said before. -/
theorem readOptions_directive (reducer : Ty) (runtime : Option Path) (d d' : Directive)
    (h : readOptions (Reader.directiveOption .struct) d (directive reducer runtime) = .ok d') :
    d'.of.isSome = true := by
  obtain ⟨t, ht⟩ := Reader.run_ok h
  exact Reader.options_first (I := fun d : Directive => d.of.isSome = true)
    (fun d hd => Reader.directiveOption_of _ .struct d hd) (by simp)
    (fun a u ha => Reader.directiveOption_first _ .struct d _ _ _ ha) ht

theorem isDerive_deriveFrom {runtime : Path} (h : runtime.Written) :
    (deriveFrom runtime).isDerive = true := by
  have hname : isKeyword deriveName = false := by decide
  have hne : runtime.segments ≠ [] := by
    obtain ⟨leading, segments⟩ := runtime
    exact (Path.written_iff.mp h).1
  have hread := Reader.readWithin_path (Path.written_member h hname) Span.made.closing
  have hderives : (deriveFrom runtime).derives = [runtime.member deriveName] := by
    simp only [derives, deriveFrom, made, runtime.tokens_member hne]
    rw [hread]
  rw [isDerive, hderives]
  simp [Path.member, deriveFrom, Segment.name]

end Attr

namespace Struct

theorem hasDerive_eq_any (s : Struct) : s.hasDerive = s.attrs.any Attr.isDerive := by
  rw [hasDerive, List.any_filter]
  rfl

end Struct

theorem insertDerive_eq (attrs : List Attr) : ∃ before after, attrs = before ++ after ∧
    ∀ derive, insertDerive derive attrs = before ++ derive :: after :=
  ⟨_, _, List.takeWhile_append_dropWhile.symm, fun _ => rfl⟩

theorem any_insertDerive (p : Attr → Bool) (derive : Attr) (attrs : List Attr) :
    (insertDerive derive attrs).any p = (p derive || attrs.any p) := by
  obtain ⟨before, after, hattrs, hinsert⟩ := insertDerive_eq attrs
  rw [hinsert, hattrs, List.any_append, List.any_cons, List.any_append, Bool.or_left_comm]

theorem directives_insertDerive {derive : Attr} (h : derive.isNamed directiveName = false)
    (attrs : List Attr) : directives (insertDerive derive attrs) = directives attrs := by
  obtain ⟨before, after, hattrs, hinsert⟩ := insertDerive_eq attrs
  rw [hinsert, hattrs]
  simp [directives, h]

theorem weight_insertDerive (derive : Attr) (attrs : List Attr) :
    Trees.weight (attrTokens (insertDerive derive attrs)) =
      Trees.weight (attrTokens attrs) + Trees.weight derive.tokens := by
  obtain ⟨before, after, hattrs, hinsert⟩ := insertDerive_eq attrs
  rw [hinsert, hattrs]
  simp only [attrTokens, List.flatMap_append, List.flatMap_cons, Trees.weight_append]
  omega

namespace Struct

variable (args : Directive) (reducer : Ty) (s : Struct)

theorem addedDirective_cases :
    ((∀ d, Directive.ofAttrs s.attrs = .ok d → d.of.isSome = true) ∧
      s.addedDirective args reducer = []) ∨
    ∃ d runtime, Directive.ofAttrs s.attrs = .ok d ∧
      s.addedDirective args reducer = [.directive reducer runtime] := by
  cases hread : Directive.ofAttrs s.attrs with
  | error e => exact .inl ⟨by simp, by simp [addedDirective, hread]⟩
  | ok d =>
    by_cases hof : d.of.isSome = true
    · exact .inl ⟨by simpa using hof, by simp [addedDirective, hread, hof]⟩
    · exact .inr ⟨d, if d.runtime.isSome then none else args.runtime, rfl,
        by simp [addedDirective, hread, hof]⟩

theorem hasDerive_decorate : (s.decorate args reducer).hasDerive =
    (s.hasDerive || (Attr.deriveFrom args.runtimePath).isDerive) := by
  have hadded : (s.addedDirective args reducer).any Attr.isDerive = false := by
    obtain ⟨-, h⟩ | ⟨d, runtime, -, h⟩ := s.addedDirective_cases args reducer
    · rw [h, List.any_nil]
    · rw [h, List.any_cons, Attr.isDerive_directive, List.any_nil, Bool.or_false]
  rw [hasDerive_eq_any, decorate, List.any_append, hadded, Bool.or_false, withDerive]
  split
  next h => rw [h, Bool.true_or, ← hasDerive_eq_any, h]
  next h => rw [any_insertDerive, ← hasDerive_eq_any, Bool.or_comm]

theorem directives_withDerive (runtime : Path) :
    directives (s.withDerive runtime) = directives s.attrs := by
  rw [withDerive]
  split
  next => rfl
  next => exact directives_insertDerive (Attr.isNamed_deriveFrom runtime) s.attrs

theorem directives_decorate : directives (s.decorate args reducer).attrs =
    directives s.attrs ++ s.addedDirective args reducer := by
  have hadded : directives (s.addedDirective args reducer) = s.addedDirective args reducer := by
    obtain ⟨-, h⟩ | ⟨d, runtime, -, h⟩ := s.addedDirective_cases args reducer
    · rw [h]
      rfl
    · simp [h, directives, Attr.isNamed_directive]
  calc directives (s.decorate args reducer).attrs
    _ = directives (s.withDerive args.runtimePath) ++ directives (s.addedDirective args reducer) :=
      List.filter_append ..
    _ = directives s.attrs ++ s.addedDirective args reducer := by
      rw [s.directives_withDerive, hadded]

theorem addedDirective_decorate : (s.decorate args reducer).addedDirective args reducer = [] := by
  have hnamed : ∀ d, Directive.ofAttrs (s.decorate args reducer).attrs = .ok d →
      d.of.isSome = true := by
    intro d hd
    rw [Directive.ofAttrs, directives_decorate] at hd
    obtain ⟨hof, h⟩ | ⟨existing, runtime, hread, h⟩ := s.addedDirective_cases args reducer
    · rw [h, List.append_nil] at hd
      exact hof d hd
    · rw [Directive.ofAttrs] at hread
      rw [h, List.foldlM_append, hread] at hd
      simp only [List.foldlM_cons, List.foldlM_nil, bind_pure] at hd
      exact Attr.readOptions_directive reducer runtime existing d hd
  obtain ⟨-, h⟩ | ⟨d, runtime, hread, -⟩ :=
    (s.decorate args reducer).addedDirective_cases args reducer
  · exact h
  · simp [addedDirective, hread, hnamed d hread]

/-- The second pass over a struct adds the derive again unless it is found. -/
theorem decorate_decorate : (s.decorate args reducer).decorate args reducer =
    { s.decorate args reducer with
      attrs := if s.hasDerive || (Attr.deriveFrom args.runtimePath).isDerive then
          (s.decorate args reducer).attrs
        else insertDerive (.deriveFrom args.runtimePath) (s.decorate args reducer).attrs } := by
  rw [decorate.eq_def args reducer (s.decorate args reducer), addedDirective_decorate, withDerive,
    hasDerive_decorate, List.append_nil]

def passed (s : Struct) : Struct :=
  if reducer.names s.name.name then s else s.decorate args reducer

@[simp] theorem name_passed : (s.passed args reducer).name = s.name := by
  rw [passed]
  split <;> rfl

@[simp] theorem generics_passed : (s.passed args reducer).generics = s.generics := by
  rw [passed]
  split <;> rfl

/-- The second pass would write the derive of the struct again. -/
def isRepeated (s : Struct) : Bool :=
  !reducer.names s.name.name && !(s.hasDerive || (Attr.deriveFrom args.runtimePath).isDerive)

theorem passed_passed (h : s.isRepeated args reducer = false) :
    (s.passed args reducer).passed args reducer = s.passed args reducer := by
  rw [passed, name_passed]
  split
  next => rfl
  next hnames =>
    have hfound : (s.hasDerive || (Attr.deriveFrom args.runtimePath).isDerive) = true := by
      grind [isRepeated]
    rw [passed, if_neg hnames, decorate_decorate, hfound]
    rfl

theorem weight_passed_passed : Trees.weight ((s.passed args reducer).passed args reducer).tokens =
    Trees.weight (s.passed args reducer).tokens +
      if s.isRepeated args reducer then
        Trees.weight (Attr.deriveFrom args.runtimePath).tokens
      else 0 := by
  split
  next h =>
    obtain ⟨hnames, hmissing⟩ := (Bool.and_eq_true _ _).mp h
    rw [Bool.not_eq_true'] at hnames hmissing
    have hpassed : s.passed args reducer = s.decorate args reducer := by
      rw [passed, hnames]
      rfl
    have htwice : (s.decorate args reducer).passed args reducer =
        { s.decorate args reducer with
          attrs :=
            insertDerive (.deriveFrom args.runtimePath) (s.decorate args reducer).attrs } := by
      rw [passed, ← hpassed, name_passed, hnames, hpassed, decorate_decorate, hmissing]
      rfl
    rw [hpassed, htwice]
    simp only [tokens, bodyTokens, Trees.weight_append, weight_insertDerive]
    omega
  next h => rw [s.passed_passed args reducer (by simpa using h), Nat.add_zero]

end Struct

section Module

variable (args : Directive) (reducer : Ty)

theorem Item.struct?_decorate (i : Item) :
    (i.decorate args reducer).struct? = i.struct?.map (Struct.passed args reducer) := by
  cases i <;> rfl

theorem Item.implementsFor_decorate (i : Item) (name : String) :
    (i.decorate args reducer).implementsFor name = i.implementsFor name := by
  cases i <;> rfl

theorem candidates_decorate (items : List Item) :
    candidates (items.map (Item.decorate args reducer)) =
      (candidates items).map (Struct.passed args reducer) := by
  have hstructs : (items.map (Item.decorate args reducer)).filterMap Item.struct? =
      (items.filterMap Item.struct?).map (Struct.passed args reducer) := by
    rw [List.filterMap_map, List.map_filterMap]
    congr 1
    funext i
    exact i.struct?_decorate args reducer
  rw [candidates, hstructs, List.filter_map, candidates]
  congr 1
  simp [Function.comp_def]

theorem mem_candidates_of_chosen? {items : List Item} {s : Struct} (h : chosen? items = some s) :
    s ∈ candidates items := by
  rw [chosen?] at h
  split at h
  next hfound =>
    cases h
    exact List.mem_of_find?_eq_some hfound
  next => exact List.mem_of_head? h

theorem exists_candidate_of_findReducer {items : List Item} {reducer : Ty}
    (h : findReducer items = .ok (some reducer)) :
    ∃ s ∈ candidates items, reducer = .ofIdent s.name := by
  unfold findReducer at h
  split at h
  next => cases h
  next s hs =>
    split at h
    next =>
      cases h
      exact ⟨s, mem_candidates_of_chosen? hs, rfl⟩
    next => cases h

theorem chosen?_decorate (items : List Item) :
    chosen? (items.map (Item.decorate args reducer)) =
      (chosen? items).map (Struct.passed args reducer) := by
  have himplemented (s : Struct) :
      (items.map (Item.decorate args reducer)).any
        (Item.implementsFor (s.passed args reducer).name.name) =
      items.any (Item.implementsFor s.name.name) := by
    simp [List.any_map, Function.comp_def, Item.implementsFor_decorate]
  have hfind : (candidates items).find? ((fun s : Struct =>
        (items.map (Item.decorate args reducer)).any (Item.implementsFor s.name.name)) ∘
          Struct.passed args reducer) =
      (candidates items).find? fun s => items.any (Item.implementsFor s.name.name) := by
    congr 1
    funext s
    exact himplemented s
  simp only [chosen?, candidates_decorate, List.find?_map, hfind, List.head?_map]
  generalize (candidates items).find? _ = found
  cases found <;> rfl

theorem reducerOf_decorate (given : Directive) (items : List Item) :
    reducerOf given (items.map (Item.decorate args reducer)) = reducerOf given items := by
  have hfind : findReducer (items.map (Item.decorate args reducer)) = findReducer items := by
    rw [findReducer, chosen?_decorate, findReducer]
    cases chosen? items with
    | none => rfl
    | some s => simp
  rw [reducerOf, hfind, reducerOf]

theorem attach_eq_ok {items items' : List Item} : attach args items = .ok items' ↔
    (reducerOf args items = .ok none ∧ items' = items) ∨
    ∃ reducer, reducerOf args items = .ok (some reducer) ∧
      items' = items.map (Item.decorate args reducer) := by
  unfold attach
  cases reducerOf args items with
  | error e => simp
  | ok found => cases found <;> simp [pure_eq_ok, eq_comm]

def Item.isRepeated : Item → Bool
  | .struct s => s.isRepeated args reducer
  | _ => false

theorem Item.decorate_decorate (i : Item) (h : i.isRepeated args reducer = false) :
    (i.decorate args reducer).decorate args reducer = i.decorate args reducer := by
  cases i with
  | struct s => exact congrArg Item.struct (s.passed_passed args reducer h)
  | impl | module | fileModule | other => rfl

theorem Item.weight_decorate_decorate (i : Item) :
    Trees.weight ((i.decorate args reducer).decorate args reducer).tokens =
      Trees.weight (i.decorate args reducer).tokens +
        if i.isRepeated args reducer then
          Trees.weight (Attr.deriveFrom args.runtimePath).tokens
        else 0 := by
  cases i with
  | struct s => exact s.weight_passed_passed args reducer
  | impl | module | fileModule | other => rfl

/-- The second pass adds the tokens of the derive once for every struct where it is not found. -/
theorem weight_decorate_decorate (items : List Item) :
    Trees.weight (Items.tokens
      ((items.map (Item.decorate args reducer)).map (Item.decorate args reducer))) =
    Trees.weight (Items.tokens (items.map (Item.decorate args reducer))) +
      items.countP (Item.isRepeated args reducer) *
        Trees.weight (Attr.deriveFrom args.runtimePath).tokens := by
  induction items with
  | nil => simp [Items.tokens]
  | cons i items ih =>
    simp only [List.map_cons, Items.tokens, Trees.weight_append, List.countP_cons, ih,
      i.weight_decorate_decorate args reducer]
    cases i.isRepeated args reducer with
    | false => simp only [Bool.false_eq_true, if_false, Nat.add_zero]; omega
    | true => simp only [if_true, Nat.add_mul]; omega

theorem decorate_decorate (items : List Item)
    (h : ∀ i ∈ items, i.isRepeated args reducer = false) :
    (items.map (Item.decorate args reducer)).map (Item.decorate args reducer) =
      items.map (Item.decorate args reducer) := by
  rw [List.map_map]
  exact List.map_congr_left fun i hi => i.decorate_decorate args reducer (h i hi)

end Module

namespace Item

theorem attach_module_eq_ok {args : Directive} {head : ModuleHead} {items : List Item}
    {once : Item} : (Item.module head items).attach args = .ok once ↔
      ∃ items', Delegation.attach args items = .ok items' ∧ once = .module head items' := by
  simp only [Item.attach, bind_eq_ok_iff, pure_eq_ok, Except.ok.injEq, eq_comm (a := once)]

theorem attach_of_reducerOf {args : Directive} (head : ModuleHead) (items : List Item)
    {reducer : Ty} (h : reducerOf args items = .ok (some reducer)) :
    (Item.module head items).attach args =
      .ok (.module head (items.map (Item.decorate args reducer))) :=
  attach_module_eq_ok.mpr ⟨_, (attach_eq_ok args).mpr (.inr ⟨reducer, h, rfl⟩), rfl⟩

/-- `mod m { struct AReducer; struct S; }`, with attributes on the second struct. -/
def sample (attrs : List Attr) : Item :=
  .module ⟨[], .inherited, [], .made, ⟨"m", .made⟩, [], .made⟩
    [.struct ⟨[], .inherited, .made, ⟨"AReducer", .made⟩, .empty, .unit .made⟩,
      .struct ⟨attrs, .inherited, .made, ⟨"S", .made⟩, .empty, .unit .made⟩]

end Item

end Delegation
