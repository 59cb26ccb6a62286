import Delegation.Proofs.Idempotence
import Delegation.Proofs.Places

namespace Delegation

open Fallible

namespace Reader

section Written

variable {g : Rules} {place : OptionPlace} {d : Directive} {rest : List Tree}

theorem directiveOption_of_reads (hd : d.of = none) {t : Ty}
    (hread : Reads (g.type true true) (t.tokens ++ rest) t rest) :
    Reads (directiveOption place g d) (Code.word "of" :: Code.sign '=' :: (t.tokens ++ rest))
      { d with of := some t } rest := by
  have hkey : Reads optionKey (Code.word "of" :: Code.sign '=' :: (t.tokens ++ rest))
      ⟨none, [.plain ⟨"of", .made⟩]⟩ (Code.sign '=' :: (t.tokens ++ rest)) := fun _ _ => rfl
  refine .bind (p := ahead) (fun _ _ => rfl) (.bind hkey (.bind (a := some t) ?_ .pure))
  refine .bind (p := op "=") (fun _ _ => rfl) (.bind hread ?_)
  rw [hd]
  exact .pure

theorem directiveOption_crate_reads (hd : d.runtime = none) {p : Path}
    (hread : Reads (path g false) (p.tokens ++ rest) p rest) :
    Reads (directiveOption place g d) (Code.word "crate" :: Code.sign '=' :: (p.tokens ++ rest))
      { d with runtime := some p } rest := by
  have hkey : Reads optionKey (Code.word "crate" :: Code.sign '=' :: (p.tokens ++ rest))
      ⟨none, [.plain ⟨"crate", .made⟩]⟩ (Code.sign '=' :: (p.tokens ++ rest)) := fun _ _ => rfl
  refine .bind (p := ahead) (fun _ _ => rfl) (.bind hkey (.bind (a := some p) ?_ .pure))
  refine .bind (p := op "=") (fun _ _ => rfl) (.bind hread ?_)
  rw [hd]
  exact .pure

end Written

section Options

variable {σ : Type} {entry : σ → Reader σ} {x y z : σ} {ts us : List Tree}

theorem options_reads_one (hts : ts ≠ []) (h : Reads (entry x) ts y []) :
    Reads (options entry x) ts y [] := by
  have hended : Look.ended ts = false := by simpa [Look.ended] using hts
  have hlast : Reads (optionsRound entry x) ts (.done y) [] := .bind h (.look rfl .pure)
  exact .look hended (.one hlast)

theorem options_reads_two (hts : ts ≠ []) (hus : us ≠ [])
    (h : Reads (entry x) ts y (Code.sign ',' :: us)) (h' : Reads (entry y) us z []) :
    Reads (options entry x) ts z [] := by
  have hended {vs : List Tree} (hvs : vs ≠ []) : Look.ended vs = false := by
    simpa [Look.ended] using hvs
  have hcomma : Reads (op ",") (Code.sign ',' :: us) [Code.sign ','] us := fun _ _ => rfl
  have hfirst : Reads (optionsRound entry x) ts (.again y) us :=
    .bind h (.look rfl (.bind hcomma (.look (hended hus) .pure)))
  have hlast : Reads (optionsRound entry y) us (.done z) [] := .bind h' (.look rfl .pure)
  refine .look (hended hts) fun close left => ?_
  exact Reads.again hfirst (Reads.done hlast (Trees.weight ts)) close left

end Options

section Directive

variable {g : Rules} {n : Nat} {d : Directive} {reducer : Ty}

theorem options_of_reads (hg : g.ReadsBelow n) (hreducer : reducer.Written) (hof : d.of = none)
    (hweight : Trees.weight reducer.tokens < n) :
    Reads (options (directiveOption .struct g) d)
      ([Code.word "of", Code.sign '='] ++ reducer.tokens ++ [])
      ⟨some reducer, d.runtime⟩ [] :=
  options_reads_one (by simp)
    (directiveOption_of_reads hof (hg reducer hreducer hweight true true [] .ended))

theorem options_of_crate_reads (hg : g.ReadsBelow n) (hreducer : reducer.Written)
    (hof : d.of = none) (hruntime : d.runtime = none) {p : Path} (hp : p.Written)
    (hweight : Trees.weight reducer.tokens < n) (hweightp : Trees.weight p.tokens ≤ n) :
    Reads (options (directiveOption .struct g) d)
      ([Code.word "of", Code.sign '='] ++ reducer.tokens ++
        ([Code.sign ',', Code.word "crate", Code.sign '='] ++ p.tokens))
      ⟨some reducer, some p⟩ [] := by
  have hcrate : Reads (directiveOption .struct g { d with of := some reducer })
      (Code.word "crate" :: Code.sign '=' :: (p.tokens ++ [])) ⟨some reducer, some p⟩ [] :=
    directiveOption_crate_reads (d := { d with of := some reducer }) hruntime
      (hp.reads hg hweightp .ended)
  rw [List.append_nil] at hcrate
  exact options_reads_two (by simp) (by simp)
    (directiveOption_of_reads hof (hg reducer hreducer hweight true true _ .comma)) hcrate

end Directive

end Reader

/-- The directive that is written for a reducer and a library that can be read back is read as it
was meant, after whatever the struct says itself. -/
theorem Attr.readOptions_written {reducer : Ty} {runtime : Option Path} {d : Directive}
    (hreducer : reducer.Written) (hruntime : ∀ p ∈ runtime, p.Written) (hof : d.of = none)
    (hfree : runtime.isSome = true → d.runtime = none) :
    (Attr.directive reducer runtime).readOptions (Reader.directiveOption .struct) d =
      .ok ⟨some reducer, runtime.or d.runtime⟩ := by
  have hrules (ts : List Tree) : (rulesFor ts).ReadsBelow (4 * Trees.weight ts + 16) :=
    rules_readsBelow _
  cases runtime with
  | none =>
    refine Reader.run_of_reads (Reader.options_of_reads (hrules _) hreducer hof ?_) _ _
    simp only [Trees.weight_append]
    omega
  | some p =>
    refine Reader.run_of_reads (Reader.options_of_crate_reads (hrules _) hreducer hof (hfree rfl)
      (hruntime p rfl) ?_ ?_) _ _
    all_goals
      simp only [Trees.weight_append]
      omega

namespace Reader

variable {g : Rules} {place : OptionPlace}

theorem once_given {α : Type} {begins : List Tree} {key : Path} {name : String} {a : α}
    {value : Reader α} : (once begins key name (some a) value).Yields fun _ => False :=
  .bind' fun _ => .bind' fun _ => .bind' fun _ => .fail fun _ => ⟨_, rfl⟩

/-- With a library at hand an option is read as without one, and may not name another. -/
theorem directiveOption_given {of : Option Ty} {k : Path} {d : Directive} {s t : Stream} :
    directiveOption place g ⟨of, some k⟩ s = .ok d t ↔
      ∃ of', d = ⟨of', some k⟩ ∧ directiveOption place g ⟨of, none⟩ s = .ok ⟨of', none⟩ t := by
  have hahead : ahead s = .ok s.rest s := rfl
  rw [directiveOption, directiveOption, bind_of_ok hahead, bind_of_ok hahead]
  cases hkey : optionKey s with
  | fail e => simp [Bind.bind, hkey]
  | ok key u =>
    rw [bind_of_ok hkey, bind_of_ok hkey]
    cases hof : key.isName "of" with
    | true =>
      simp only [if_true, bind_eq_ok, pure_eq_ok]
      constructor
      · rintro ⟨of', v, honce, rfl, rfl⟩
        exact ⟨of', rfl, of', v, honce, rfl, rfl⟩
      · rintro ⟨of', rfl, _, v, honce, h, rfl⟩
        cases h
        exact ⟨of', v, honce, rfl, rfl⟩
    | false =>
      cases hcrate : key.isName "crate" with
      | true =>
        -- one side refuses a second library, the other would keep a first one
        simp only [Bool.false_eq_true, if_false, if_true, bind_eq_ok, pure_eq_ok]
        constructor
        · rintro ⟨r, v, honce, -, -⟩
          exact (once_given _ _ _ honce).elim
        · rintro ⟨of', -, r, v, honce, h, -⟩
          obtain ⟨p, rfl, -⟩ := once_yields _ _ _ _ (.anything _) _ _ _ honce
          cases h
      | false =>
        simp only [Bool.false_eq_true, if_false]
        constructor
        · exact fun h => by cases h
        · rintro ⟨of', -, h⟩
          cases h

theorem directiveOption_keeps (d : Directive) (hd : d.runtime.isSome = true) :
    (directiveOption place g d).Yields fun d' => d'.runtime.isSome = true := by
  refine directiveOption_yields g (.anything _) (path_yields g false) place d ?_ ?_
  · exact fun t _ => hd
  · exact fun p _ => rfl

theorem rounds_keeps (fuel : Nat) {d : Directive} (hd : d.runtime.isSome = true) :
    (rounds (optionsRound (directiveOption place g)) fuel d).Yields
      fun d' => d'.runtime.isSome = true :=
  .rounds (optionsRound_yields directiveOption_keeps) fuel hd

theorem afterOption_eq {σ : Type} (s : Stream) :
    (∃ t, ∀ b : σ, afterOption b s = .ok (.again b) t) ∨
    (∃ t, ∀ b : σ, afterOption b s = .ok (.done b) t) ∨
    ∃ e, ∀ b : σ, afterOption b s = .fail e := by
  simp only [afterOption, look_bind]
  cases Look.ended s.rest with
  | true => exact .inr (.inl ⟨s, fun _ => rfl⟩)
  | false =>
    simp only [Bool.false_eq_true, if_false]
    cases hcomma : op "," s with
    | fail e => exact .inr (.inr ⟨e, fun _ => by simp [Bind.bind, hcomma]⟩)
    | ok ts t =>
      simp only [bind_of_ok hcomma, look_bind]
      cases Look.ended t.rest with
      | true => exact .inr (.inl ⟨t, fun _ => rfl⟩)
      | false => exact .inl ⟨t, fun _ => rfl⟩

theorem rounds_succ_eq_ok {σ : Type} {entry : σ → Reader σ} {x y : σ} {s t : Stream} {fuel : Nat} :
    rounds (optionsRound entry) (fuel + 1) x s = .ok y t ↔ ∃ x₁ u, entry x s = .ok x₁ u ∧
      ((∃ v, (∀ b : σ, afterOption b u = .ok (.again b) v) ∧
          rounds (optionsRound entry) fuel x₁ v = .ok y t) ∨
        ((∀ b : σ, afterOption b u = .ok (.done b) t) ∧ x₁ = y)) := by
  change (optionsRound entry x >>= _) s = _ ↔ _
  rw [bind_eq_ok]
  constructor
  · rintro ⟨round, v, hround, hrest⟩
    obtain ⟨x₁, u, hx, hround⟩ := bind_eq_ok.mp hround
    refine ⟨x₁, u, hx, ?_⟩
    obtain ⟨w, hw⟩ | ⟨w, hw⟩ | ⟨e, he⟩ := afterOption_eq (σ := σ) u
    · cases (hw x₁).symm.trans hround
      exact .inl ⟨v, hw, hrest⟩
    · cases (hw x₁).symm.trans hround
      obtain ⟨rfl, rfl⟩ := pure_eq_ok.mp hrest
      exact .inr ⟨hw, rfl⟩
    · cases (he x₁).symm.trans hround
  · rintro ⟨x₁, u, hx, ⟨v, hv, hrest⟩ | ⟨hdone, rfl⟩⟩
    · exact ⟨_, v, bind_eq_ok.mpr ⟨x₁, u, hx, hv x₁⟩, hrest⟩
    · exact ⟨_, t, bind_eq_ok.mpr ⟨x₁, u, hx, hdone x₁⟩, rfl⟩

theorem rounds_given {of : Option Ty} {k : Path} {d : Directive} {s t : Stream} (fuel : Nat) :
    rounds (optionsRound (directiveOption place g)) fuel ⟨of, some k⟩ s = .ok d t ↔
      ∃ of', d = ⟨of', some k⟩ ∧
        rounds (optionsRound (directiveOption place g)) fuel ⟨of, none⟩ s = .ok ⟨of', none⟩ t := by
  induction fuel generalizing of s with
  | zero =>
    constructor
    · exact fun h => by cases h
    · rintro ⟨of', -, h⟩
      cases h
  | succ fuel ih =>
    simp only [rounds_succ_eq_ok]
    constructor
    · rintro ⟨d₁, u, hd₁, hrest⟩
      obtain ⟨of₁, rfl, hbare⟩ := directiveOption_given.mp hd₁
      obtain ⟨v, hv, hrest⟩ | ⟨hdone, rfl⟩ := hrest
      · obtain ⟨of', rfl, hmore⟩ := ih.mp hrest
        exact ⟨of', rfl, ⟨of₁, none⟩, u, hbare, .inl ⟨v, hv, hmore⟩⟩
      · exact ⟨of₁, rfl, ⟨of₁, none⟩, u, hbare, .inr ⟨hdone, rfl⟩⟩
    · rintro ⟨of', rfl, ⟨of₁, runtime⟩, u, hd₁, hrest⟩
      obtain ⟨v, hv, hrest⟩ | ⟨hdone, h⟩ := hrest
      · cases runtime with
        | none =>
          exact ⟨_, u, directiveOption_given.mpr ⟨of₁, rfl, hd₁⟩,
            .inl ⟨v, hv, ih.mpr ⟨of', rfl, hrest⟩⟩⟩
        -- a library that an option named stays named, so the rounds could not end without one
        | some p =>
          have := rounds_keeps fuel (d := ⟨of₁, some p⟩) rfl v _ t hrest
          cases this
      · cases h
        exact ⟨_, u, directiveOption_given.mpr ⟨of', rfl, hd₁⟩, .inr ⟨hdone, rfl⟩⟩

theorem options_given {of : Option Ty} {k : Path} {d : Directive} {s t : Stream} :
    options (directiveOption place g) ⟨of, some k⟩ s = .ok d t ↔
      ∃ of', d = ⟨of', some k⟩ ∧
        options (directiveOption place g) ⟨of, none⟩ s = .ok ⟨of', none⟩ t := by
  simp only [options, look_bind]
  cases Look.ended s.rest with
  | true =>
    simp only [if_true, pure_eq_ok]
    constructor
    · rintro ⟨rfl, rfl⟩
      exact ⟨of, rfl, rfl, rfl⟩
    · rintro ⟨of', rfl, h, rfl⟩
      cases h
      exact ⟨rfl, rfl⟩
  | false => exact rounds_given (Trees.weight s.rest + 2)

end Reader

theorem Attr.readOptions_given (a : Attr) {of : Option Ty} {k : Path} {d : Directive} :
    a.readOptions (Reader.directiveOption .struct) ⟨of, some k⟩ = .ok d ↔ ∃ of',
      d = ⟨of', some k⟩ ∧
        a.readOptions (Reader.directiveOption .struct) ⟨of, none⟩ = .ok ⟨of', none⟩ := by
  rw [readOptions, readOptions]
  cases a.args with
  | none => simp
  | value eq tokens => simp
  | list delim tokens span =>
    simp only [readWithin, Reader.run_eq_ok, Reader.options_given]
    constructor
    · rintro ⟨t, ⟨of', rfl, h⟩, hleft⟩
      exact ⟨of', rfl, t, h, hleft⟩
    · rintro ⟨of', rfl, t, h, hleft⟩
      exact ⟨t, ⟨of', rfl, h⟩, hleft⟩

def Directive.SaidBy (d : Directive) (attrs : List Attr) : Prop :=
  ∃ d', Directive.ofAttrs attrs = .ok d' ∧ d'.bare = d.bare

/-- The directive with this reducer and this library says so, once it is written. -/
def ReadsBack (reducer : Ty) (runtime : Option Path) : Prop :=
  Directive.SaidBy ⟨some reducer, runtime⟩ [.directive reducer runtime]

namespace Directive

def completed (d args : Directive) (reducer : Ty) : Directive :=
  if d.of.isSome then d else ⟨some reducer, d.runtime.or args.runtime⟩

/-- The library that is written with the reducer: none, if the struct names one itself. -/
def addedRuntime (d args : Directive) : Option Path :=
  if d.runtime.isSome then none else args.runtime

theorem completes_iff (d args : Directive) (reducer : Ty) (hof : d.of = none) :
    (∃ d', (Attr.directive reducer (d.addedRuntime args)).readOptions
        (Reader.directiveOption .struct) d = .ok d' ∧ d'.bare = (d.completed args reducer).bare) ↔
      ReadsBack reducer (d.addedRuntime args) := by
  have halone (runtime : Option Path) : Directive.ofAttrs [Attr.directive reducer runtime] =
      (Attr.directive reducer runtime).readOptions (Reader.directiveOption .struct) .empty := by
    simp [ofAttrs, directives, Attr.isNamed_directive]
  obtain ⟨of, runtime⟩ := d
  obtain rfl : of = none := hof
  cases runtime with
  | none =>
    rw [ReadsBack, SaidBy, halone]
    rfl
  | some k =>
    simp only [ReadsBack, SaidBy, halone, Attr.readOptions_given]
    constructor
    · rintro ⟨_, ⟨of', rfl, hread⟩, hbare⟩
      have hreducer : of'.map Ty.bare = some reducer.bare := congrArg Directive.of hbare
      exact ⟨_, hread, congrArg (Directive.mk · none) hreducer⟩
    · rintro ⟨⟨of', runtime⟩, hread, hbare⟩
      have hruntime : runtime.map Path.bare = none := congrArg Directive.runtime hbare
      have hreducer : of'.map Ty.bare = some reducer.bare := congrArg Directive.of hbare
      obtain rfl := Option.map_eq_none_iff.mp hruntime
      exact ⟨_, ⟨of', rfl, hread⟩, congrArg (Directive.mk · (some k.bare)) hreducer⟩

end Directive

namespace Struct

variable (args : Directive) (reducer : Ty) (s : Struct)

theorem ofAttrs_decorate : Directive.ofAttrs (s.decorate args reducer).attrs =
    Directive.ofAttrs s.attrs >>= fun d =>
      if d.of.isSome then .ok d
      else (Attr.directive reducer (d.addedRuntime args)).readOptions
        (Reader.directiveOption .struct) d := by
  rw [Directive.ofAttrs, directives_decorate, List.foldlM_append, addedDirective, Directive.ofAttrs]
  cases (directives s.attrs).foldlM (Attr.readOptions (Reader.directiveOption .struct)) .empty with
  | error e => rfl
  | ok d =>
    cases hof : d.of.isSome with
    | true =>
      simp only [ok_bind, hof, if_true]
      rfl
    | false =>
      simp only [ok_bind, hof, Bool.false_eq_true, if_false]
      simp only [List.foldlM_cons, List.foldlM_nil, bind_pure]
      rfl

/-- What the pass makes of a struct. `clear` is the case where the directive is known to be read
back; the other fields do without. -/
structure TakesOver (s' : Struct) : Prop where
  same : s' = { s with attrs := s'.attrs }
  mistake : ∀ e, Directive.ofAttrs s.attrs = .error e →
    Directive.ofAttrs s'.attrs = .error e ∧ derive (.struct s') = .error (.ofFailure e)
  completes : ∀ d, Directive.ofAttrs s.attrs = .ok d →
    ((d.completed args reducer).SaidBy s'.attrs ↔
      d.of.isSome = true ∨ ReadsBack reducer (d.addedRuntime args))
  clear : args.isClear = true → ∀ d, Directive.ofAttrs s.attrs = .ok d →
    Directive.ofAttrs s'.attrs = .ok (d.completed args reducer)
  derives : ∀ (d : Directive) attrs, d.SaidBy s'.attrs → d.SaidBy attrs →
    bareOutcome (derive (.struct s')) = bareOutcome (derive (.struct { s with attrs := attrs }))

theorem saidBy_decorate {d : Directive} (hd : Directive.ofAttrs s.attrs = .ok d) :
    (d.completed args reducer).SaidBy (s.decorate args reducer).attrs ↔
      d.of.isSome = true ∨ ReadsBack reducer (d.addedRuntime args) := by
  rw [Directive.SaidBy, ofAttrs_decorate, hd, ok_bind]
  cases hof : d.of with
  | some t =>
    simp [hof, Directive.completed]
  | none =>
    simp only [Option.isSome_none, Bool.false_eq_true, if_false, false_or]
    exact d.completes_iff args reducer hof

theorem ofAttrs_decorate_written {d : Directive} (hd : Directive.ofAttrs s.attrs = .ok d)
    (hreducer : reducer.Written) (hruntime : ∀ p ∈ args.runtime, p.Written) :
    Directive.ofAttrs (s.decorate args reducer).attrs = .ok (d.completed args reducer) := by
  rw [ofAttrs_decorate, hd, ok_bind, Directive.completed]
  cases hof : d.of with
  | some t => rfl
  | none =>
    have hadded : (d.addedRuntime args).or d.runtime = d.runtime.or args.runtime := by
      rw [Directive.addedRuntime]
      cases d.runtime <;> simp
    have hwritten : ∀ p ∈ d.addedRuntime args, p.Written := by
      intro p hp
      rw [Directive.addedRuntime] at hp
      split at hp
      next => cases hp
      next => exact hruntime p hp
    have hfree : (d.addedRuntime args).isSome = true → d.runtime = none := by
      rw [Directive.addedRuntime]
      cases d.runtime <;> simp
    rw [← hadded]
    exact Attr.readOptions_written hreducer hwritten hof hfree

theorem takesOver_decorate (hwritten : args.isClear = true →
    reducer.Written ∧ ∀ p ∈ args.runtime, p.Written) :
    s.TakesOver args reducer (s.decorate args reducer) where
  same := rfl
  mistake e he := by
    have herror : Directive.ofAttrs (s.decorate args reducer).attrs = .error e := by
      rw [ofAttrs_decorate, he, error_bind]
    exact ⟨herror, Declaration.derive_of_unread (d := .struct _) herror⟩
  completes d hd := saidBy_decorate args reducer s hd
  clear hclear d hd :=
    ofAttrs_decorate_written args reducer s hd (hwritten hclear).1 (hwritten hclear).2
  derives d attrs := by
    rintro ⟨d₁, hd₁, hbare₁⟩ ⟨d₂, hd₂, hbare₂⟩
    exact bareOutcome_derive rfl rfl rfl hd₁ hd₂ (hbare₁.trans hbare₂.symm)

end Struct

theorem not_isKeyword_of_isReducerName {name : String} (h : isReducerName name = true) :
    isKeyword name = false := by
  have hnone : ∀ w ∈ keywords, isReducerName w = false := by decide
  rw [isKeyword, List.contains_eq_mem, decide_eq_false_iff_not]
  intro hmem
  rw [hnone name hmem] at h
  cases h

theorem findReducer_written {items : List Item} {reducer : Ty}
    (h : findReducer items = .ok (some reducer)) : reducer.Written := by
  obtain ⟨s, hs, rfl⟩ := exists_candidate_of_findReducer h
  have hkey := not_isKeyword_of_isReducerName (List.mem_filter.mp hs).2
  refine .path (.of (.plain (.inr hkey)) (by simp)) fun _ i hi => ?_
  cases hi
  rintro (htry : s.name.name = "try")
  rw [htry] at hkey
  exact absurd hkey (by decide)

theorem reducerOf_written {ts : List Tree} {args : Directive}
    (hargs : Directive.ofArgs ts = .ok args) {items : List Item} {reducer : Ty}
    (h : reducerOf args items = .ok (some reducer)) (hclear : args.isClear = true) :
    reducer.Written ∧ ∀ p ∈ args.runtime, p.Written := by
  obtain ⟨hof, hruntime⟩ := Directive.ofArgs_written hargs hclear
  refine ⟨?_, hruntime⟩
  rw [reducerOf] at h
  split at h
  next reducer' hgiven =>
    cases h
    exact hof _ hgiven
  next => exact findReducer_written h

namespace Item

/-- What the pass over a module writes for a struct is what the derive reads: the directives of the
struct, completed by the reducer of the module and its library. -/
theorem attach_hands_over {ts : List Tree} {args : Directive}
    (hargs : Directive.ofArgs ts = .ok args) (head : ModuleHead) {items : List Item} {reducer : Ty}
    (hreducer : reducerOf args items = .ok (some reducer)) :
    ∃ items', (Item.module head items).attach args = .ok (.module head items') ∧
      items'.length = items.length ∧ ∀ (i : Nat) s, items[i]? = some (.struct s) →
        reducer.names s.name.name = false →
          ∃ s', items'[i]? = some (.struct s') ∧ s.TakesOver args reducer s' := by
  have hattach : (Item.module head items).attach args =
      .ok (.module head (items.map (Item.decorate args reducer))) :=
    attach_module_eq_ok.mpr ⟨_, (attach_eq_ok args).mpr (.inr ⟨reducer, hreducer, rfl⟩), rfl⟩
  refine ⟨_, hattach, List.length_map .., fun i s hs hnames => ⟨s.decorate args reducer, ?_, ?_⟩⟩
  · rw [List.getElem?_map, hs, Option.map_some, Item.decorate, hnames]
    rfl
  · exact s.takesOver_decorate args reducer (reducerOf_written hargs hreducer)

def clearArgs : List Tree :=
  [Code.word "of", Code.sign '=', Code.word "Main", Code.sign '<', Code.word "u8", Code.sign '>',
    Code.sign ',', Code.word "crate", Code.sign '=', .punct ':' true .made, Code.sign ':',
    Code.word "rt"]

def clearReducer : Ty :=
  .path (.plain ⟨none, [.angled ⟨"Main", .made⟩ false .made [.type (.ofIdent ⟨"u8", .made⟩)]
    false .made]⟩)

def clearPath : Path := ⟨some .made, [.plain ⟨"rt", .made⟩]⟩

def clearGiven : Directive := ⟨some clearReducer, some clearPath⟩

theorem attach_hands_over_sample : Directive.ofArgs clearArgs = .ok clearGiven ∧
    ∃ head items', (sample []).attach clearGiven = .ok (.module head items') ∧
      ∃ s', items'[1]? = some (.struct s') ∧ Directive.ofAttrs s'.attrs = .ok clearGiven := by
  have hargs : Directive.ofArgs clearArgs = .ok clearGiven := rfl
  obtain ⟨head, items, hitems, s, hs, hnames, hattrs⟩ : ∃ head items,
      sample [] = .module head items ∧ ∃ s, items[1]? = some (.struct s) ∧
        clearReducer.names s.name.name = false ∧ s.attrs = [] := ⟨_, _, rfl, _, rfl, rfl, rfl⟩
  have hreducer : reducerOf clearGiven items = .ok (some clearReducer) := rfl
  obtain ⟨items', hattach, -, hstructs⟩ := attach_hands_over hargs head hreducer
  obtain ⟨s', hs', htakes⟩ := hstructs 1 s hs hnames
  have hsays := htakes.clear rfl .empty (by rw [hattrs]; rfl)
  exact ⟨hargs, head, items', hitems ▸ hattach, s', hs', hsays⟩

/-- A path that was given with an invisible group is not always read back: then the struct is left
with a directive that cannot be read. -/
theorem not_attach_hands_over : ¬ ∀ ts args head items items' reducer (i : Nat) s s' d,
    Directive.ofArgs ts = .ok args →
    (Item.module head items).attach args = .ok (.module head items') →
    items[i]? = some (.struct s) → items'[i]? = some (.struct s') →
    reducerOf args items = .ok (some reducer) → reducer.names s.name.name = false →
    Directive.ofAttrs s.attrs = .ok d → (d.completed args reducer).SaidBy s'.attrs := by
  intro h
  have hargs : Directive.ofArgs keywordArgs = .ok ⟨none, some keywordPath⟩ := rfl
  have hattach : (sample []).attach ⟨none, some keywordPath⟩ =
      .ok (sample [keywordDerive, keywordDirective]) := rfl
  have hread : ∃ e, Directive.ofAttrs [keywordDerive, keywordDirective] = .error e := ⟨_, rfl⟩
  obtain ⟨d, hd, -⟩ := h keywordArgs _ _ _ _ (.ofIdent ⟨"AReducer", .made⟩) 1 _ _ .empty hargs
    hattach rfl rfl rfl (by decide) rfl
  obtain ⟨e, he⟩ := hread
  cases he.symm.trans hd

end Item

end Delegation
