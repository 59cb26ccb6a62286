import Delegation.Proofs.Arrangement.Attributes

namespace Delegation

namespace Reader

variable {g : Rules} {place : OptionPlace} {s t : Stream}

theorem directiveOption_of_key {key : Path} {u : Stream} (hkey : optionKey s = .ok key u)
    (d : Directive) : directiveOption place g d s =
      (if key.isName "of" then do
        return { d with of := ← once s.rest key "of" d.of (g.type true true) }
      else if key.isName "crate" then do
        return { d with runtime := ← once s.rest key "crate" d.runtime (path g false) }
      else refuseOption s.rest key (.unsupportedOption place)) u := by
  have hahead : ahead s = .ok s.rest s := rfl
  rw [directiveOption, bind_of_ok hahead, bind_of_ok hkey]

theorem directiveOption_type {type : Ty} (h : Assigns "of" (g.type true true) s type t)
    (runtime : Option Path) :
    directiveOption place g ⟨none, runtime⟩ s = .ok ⟨some type, runtime⟩ t ∧
    ∀ given, ∃ e, directiveOption place g ⟨some given, runtime⟩ s = .fail e ∧
      e.cause = .duplicateOption "of" :=
  h.entry (Directive.mk · runtime) fun _ _ _ hkey => directiveOption_of_key hkey _

theorem directiveOption_path {p : Path} (h : Assigns "crate" (path g false) s p t)
    (of : Option Ty) :
    directiveOption place g ⟨of, none⟩ s = .ok ⟨of, some p⟩ t ∧
    ∀ given, ∃ e, directiveOption place g ⟨of, some given⟩ s = .fail e ∧
      e.cause = .duplicateOption "crate" :=
  h.entry (Directive.mk of ·) fun _ _ _ hkey => directiveOption_of_key hkey _

end Reader

namespace Directive

inductive Part where
  | of (type : Ty)
  | runtime (path : Path)

namespace Part

def key : Part → String
  | .of _ => "of"
  | .runtime _ => "crate"

/-- `of = TYPE` or `crate = PATH`. -/
def Spells (g : Rules) : Part → Stream → Stream → Prop
  | .of type, s, t => Reader.Assigns "of" (g.type true true) s type t
  | .runtime path, s, t => Reader.Assigns "crate" (Reader.path g false) s path t

theorem spells_of_directiveOption {g : Rules} {place : OptionPlace} {d d' : Directive}
    {s t : Stream} (h : Reader.directiveOption place g d s = .ok d' t) :
    ∃ p, Part.Spells g p s t := by
  obtain ⟨begins, u, hbegins, hentry⟩ := Reader.bind_eq_ok.mp h
  cases hbegins
  obtain ⟨key, u, hkey, hentry⟩ := Reader.bind_eq_ok.mp hentry
  cases hof : key.isName "of" with
  | true =>
    rw [hof, if_pos rfl] at hentry
    obtain ⟨r, v, honce, hpure⟩ := Reader.bind_eq_ok.mp hentry
    obtain ⟨-, rfl⟩ := Reader.pure_eq_ok.mp hpure
    obtain ⟨type, -, hassigns⟩ := Reader.Assigns.of_once hkey hof honce
    exact ⟨.of type, hassigns⟩
  | false =>
    rw [hof, if_neg Bool.false_ne_true] at hentry
    cases hcrate : key.isName "crate" with
    | true =>
      rw [hcrate, if_pos rfl] at hentry
      obtain ⟨r, v, honce, hpure⟩ := Reader.bind_eq_ok.mp hentry
      obtain ⟨-, rfl⟩ := Reader.pure_eq_ok.mp hpure
      obtain ⟨path, -, hassigns⟩ := Reader.Assigns.of_once hkey hcrate honce
      exact ⟨.runtime path, hassigns⟩
    | false =>
      rw [hcrate, if_neg Bool.false_ne_true] at hentry
      cases hentry

end Part

def Has (d : Directive) : Part → Prop
  | .of type => d.of = some type
  | .runtime path => d.runtime = some path

def optionKind (place : OptionPlace) : OptionKind Directive Part where
  entry := Reader.directiveOption place
  empty := .empty
  key := Part.key
  Spells := Part.Spells
  Has := Has
  ext {x y} h := by
    obtain ⟨of, runtime⟩ := x
    obtain ⟨of', runtime'⟩ := y
    have hof : of = of' := Option.ext fun type => h (.of type)
    have hruntime : runtime = runtime' := Option.ext fun path => h (.runtime path)
    rw [hof, hruntime]
  not_has_empty p := by cases p <;> simp [Has, Directive.empty]
  spells_of_entry := Part.spells_of_directiveOption
  entry_cases {g p s t} h x := by
    obtain ⟨of, runtime⟩ := x
    cases p with
    | of type =>
      cases of with
      | none =>
        refine .inl ⟨_, (Reader.directiveOption_type h runtime).1, fun q hq => ?_, fun q => ?_⟩
        · cases q <;> simp_all [Has, Part.key]
        · cases q <;> simp [Has, eq_comm]
      | some given =>
        obtain ⟨e, he⟩ := (Reader.directiveOption_type h runtime).2 given
        exact .inr ⟨.of given, e, rfl, rfl, he⟩
    | runtime path =>
      cases runtime with
      | none =>
        refine .inl ⟨_, (Reader.directiveOption_path h of).1, fun q hq => ?_, fun q => ?_⟩
        · cases q <;> simp_all [Has, Part.key]
        · cases q <;> simp [Has, eq_comm]
      | some given =>
        obtain ⟨e, he⟩ := (Reader.directiveOption_path h of).2 given
        exact .inr ⟨.runtime given, e, rfl, rfl, he⟩
  spells_mono {g g' p s t} hg h := by
    cases p with
    | of type => exact Reader.Assigns.mono h (hg.type true true)
    | runtime path => exact Reader.Assigns.mono h (Reader.path_mono hg false)
  spells_append {g p ts us close left t} _ hg h close' := by
    cases p with
    | of type => exact Reader.Assigns.append (hg.type true true) h close'
    | runtime path => exact Reader.Assigns.append (Reader.path_bounded hg false) h close'
  visible_lt {g p s t} hg h := by
    cases p with
    | of type => exact Reader.Assigns.visible_lt (hg.type true true) h
    | runtime path => exact Reader.Assigns.visible_lt (Reader.path_bounded hg false) h

abbrev Written := (optionKind .struct).Written

abbrev Arranged := (optionKind .struct).Arranged

/-- The tokens are a list of options, none but these. -/
def Lists (ps : List Part) (ts : List Tree) : Prop := (optionKind .container).Lists ps ts .made

section Options

variable {ts : List Tree} {ps : List Part} {others others' attrs attrs' : List Attr}
  {os os' : List Written} {d : Directive} {e : Failure}

theorem Lists.outcome (h : Lists ps ts) : (optionKind .container).Outcome ps (ofArgs ts) :=
  OptionKind.Lists.outcome h (OptionKind.holds_empty (optionKind .container))

theorem Arranged.outcome (h : Arranged others os attrs) :
    (optionKind .struct).Outcome (os.map OptionKind.Written.part) (ofAttrs attrs) :=
  OptionKind.Arranged.outcome h (OptionKind.holds_empty (optionKind .struct))

theorem ofArgs_ok_iff :
    (∃ d, ofArgs ts = .ok d) ↔ ∃ ps, Lists ps ts ∧ (ps.map Part.key).Nodup := by
  constructor
  · rintro ⟨d, hd⟩
    obtain ⟨ps, hps⟩ : ∃ ps, Lists ps ts := OptionKind.lists_of_readWithin hd
    exact ⟨ps, hps, hps.outcome.ok_iff_nodup.mp ⟨d, hd⟩⟩
  · rintro ⟨ps, hps, hnodup⟩
    exact hps.outcome.ok_iff_nodup.mpr hnodup

theorem has_iff_of_lists (hd : ofArgs ts = .ok d) (hps : Lists ps ts) (p : Part) :
    d.Has p ↔ p ∈ ps := by
  have houtcome := hps.outcome
  rw [hd] at houtcome
  cases houtcome with
  | read h => exact h.has_iff p

theorem duplicate_of_arranged (h : Arranged others os attrs) (he : ofAttrs attrs = .error e) :
    ∃ k, e.cause = .duplicateOption k ∧ List.Duplicate k (os.map fun o => o.part.key) := by
  have houtcome := h.outcome
  rw [he] at houtcome
  cases houtcome with
  | refused h =>
    obtain ⟨k, hcause, hk⟩ := h
    rw [List.map_map] at hk
    exact ⟨k, hcause, hk⟩

end Options

/-- The arguments of a module and the directive of a struct are one language, of lists with at most
one option for each key. Options that are well-formed on their own are read the same in every order
and from any number of attributes, or a key is given twice and the failure names such a key. -/
theorem one_language :
    (∀ ts a, Attr.IsDirective a ts →
      ((∃ d, ofArgs ts = .ok d ∧ ofAttrs [a] = .ok d) ∨
        ∃ e e', ofArgs ts = .error e ∧ ofAttrs [a] = .error e' ∧ (e.message = e'.message ∨
          e.cause = .unsupportedOption .container ∧ e'.cause = .unsupportedOption .struct)) ∧
      ((∃ d, ofArgs ts = .ok d) ↔ ∃ ps, Lists ps ts ∧ (ps.map Part.key).Nodup) ∧
      ∀ d ps, ofArgs ts = .ok d → Lists ps ts → ∀ p, d.Has p ↔ p ∈ ps) ∧
    ∀ others os attrs others' os' attrs', Arranged others os attrs →
      Arranged others' os' attrs' → os.Perm os' →
      ((∃ d, ofAttrs attrs = .ok d) ↔ (os.map fun o => o.part.key).Nodup) ∧
      (∀ d, ofAttrs attrs = .ok d → ofAttrs attrs' = .ok d) ∧
      ∀ e, ofAttrs attrs = .error e →
        ∃ k, e.cause = .duplicateOption k ∧ List.Duplicate k (os.map fun o => o.part.key) := by
  refine ⟨fun ts a ha => ⟨?_, ofArgs_ok_iff, fun d ps => has_iff_of_lists⟩, ?_⟩
  · obtain hok | ⟨e, e', he, he', halike⟩ := ofArgs_fits ha
    · exact .inl hok
    · refine .inr ⟨e, e', he, he', ?_⟩
      obtain ⟨cause, span⟩ := e
      obtain ⟨cause', span'⟩ := e'
      cases halike with
      | refl => exact .inl rfl
      | unsupported => exact .inr ⟨rfl, rfl⟩
  · intro others os attrs others' os' attrs' h h' hperm
    refine ⟨?_, fun d => ?_, fun e => duplicate_of_arranged h⟩
    · rw [h.outcome.ok_iff_nodup, List.map_map]
      rfl
    · exact h.outcome.ok_of_perm h'.outcome (hperm.map _)

section Samples

open Code

def sampleType : Ty :=
  .path (.plain ⟨none, [.angled ⟨"AReducer", .made⟩ false .made
    [.type (.ofIdent ⟨"u8", .made⟩), .type (.ofIdent ⟨"u16", .made⟩)] false .made]⟩)

def sampleOf : Written where
  part := .of sampleType
  tokens := [word "of", sign '=', word "AReducer", sign '<', word "u8", sign ',', word "u16",
    sign '>']
  alone := ⟨_, ⟨_, ⟨_, _, _, rfl, rfl⟩, rfl⟩, rfl, rfl⟩

def sampleCrate : Written where
  part := .runtime (.ofIdent ⟨"rt", .made⟩)
  tokens := [word "crate", sign '=', word "rt"]
  alone := ⟨_, ⟨_, ⟨_, _, _, rfl, rfl⟩, rfl⟩, rfl, rfl⟩

/-- `#[parent_reducer_state(of = AReducer<u8, u16>,)]`, `#[doc()]` and
`#[parent_reducer_state(crate = rt)]`. -/
def sampleAttrs : List Attr :=
  [.made directiveName (sampleOf.tokens ++ [sign ',']), .made "doc" [],
    .made directiveName sampleCrate.tokens]

theorem sampleAttrs_arranged :
    Arranged [.made "doc" []] ([sampleOf] ++ ([sampleCrate] ++ [])) sampleAttrs := by
  refine .directive ⟨rfl, _, _, rfl⟩ (.cons sampleOf false .made .nil) (.other rfl ?_)
  exact .directive ⟨rfl, _, _, rfl⟩ (.last sampleCrate) .nil

/-- `crate = rt, of = AReducer<u8, u16>` -/
def permutedArgs : List Tree := sampleCrate.tokens ++ sign ',' :: sampleOf.tokens

theorem permutedArgs_arranged : Arranged [] ([sampleCrate, sampleOf] ++ [])
    [.made directiveName permutedArgs] :=
  .directive ⟨rfl, _, _, rfl⟩ (.cons sampleCrate false .made (.last sampleOf)) .nil

theorem one_language_sample :
    Attr.IsDirective (.made directiveName permutedArgs) permutedArgs ∧
    Arranged [.made "doc" []] [sampleOf, sampleCrate] sampleAttrs ∧
    Arranged [] [sampleCrate, sampleOf] [.made directiveName permutedArgs] ∧
    [sampleOf, sampleCrate].Perm [sampleCrate, sampleOf] ∧
    ∃ d, ofAttrs sampleAttrs = .ok d ∧ ofAttrs [.made directiveName permutedArgs] = .ok d ∧
      ofArgs permutedArgs = .ok d := by
  have hdirective : Attr.IsDirective (.made directiveName permutedArgs) permutedArgs :=
    ⟨rfl, _, _, rfl⟩
  have hperm : [sampleOf, sampleCrate].Perm [sampleCrate, sampleOf] := .swap ..
  obtain ⟨hplaces, harranged⟩ := one_language
  obtain ⟨hok, hsame, -⟩ := harranged _ _ _ _ _ _ sampleAttrs_arranged permutedArgs_arranged hperm
  obtain ⟨d, hd⟩ := hok.mpr (by decide)
  have hd' := hsame d hd
  refine ⟨hdirective, sampleAttrs_arranged, permutedArgs_arranged, hperm, d, hd, hd', ?_⟩
  obtain ⟨⟨d', hargs, hattrs⟩ | ⟨e, e', -, hattrs, -⟩, -⟩ := hplaces _ _ hdirective
  · cases hattrs.symm.trans hd'
    exact hargs
  · cases hattrs.symm.trans hd'

def otherOf : Written where
  part := .of (.ofIdent ⟨"BReducer", .made⟩)
  tokens := [word "of", sign '=', word "BReducer"]
  alone := ⟨_, ⟨_, ⟨_, _, _, rfl, rfl⟩, rfl⟩, rfl, rfl⟩

def otherCrate : Written where
  part := .runtime (.ofIdent ⟨"lib", .made⟩)
  tokens := [word "crate", sign '=', word "lib"]
  alone := ⟨_, ⟨_, ⟨_, _, _, rfl, rfl⟩, rfl⟩, rfl, rfl⟩

def quartet (a b c d : Written) : Attr :=
  .made directiveName
    (a.tokens ++ sign ',' :: (b.tokens ++ sign ',' :: (c.tokens ++ sign ',' :: d.tokens)))

theorem quartet_arranged (a b c d : Written) : Arranged [] ([a, b, c, d] ++ []) [quartet a b c d] :=
  .directive ⟨rfl, _, _, rfl⟩
    (.cons a false .made (.cons b false .made (.cons c false .made (.last d)))) .nil

/-- If both keys are given twice, the one that is named depends on the order. -/
theorem not_same_failure : ¬ ∀ others os attrs others' os' attrs', Arranged others os attrs →
    Arranged others' os' attrs' → os.Perm os' →
    (∃ d, ofAttrs attrs = .ok d ∧ ofAttrs attrs' = .ok d) ∨
    ∃ e e', ofAttrs attrs = .error e ∧ ofAttrs attrs' = .error e' ∧ e.message = e'.message := by
  intro h
  have hperm : ([sampleOf, otherOf] ++ [sampleCrate, otherCrate]).Perm
      ([sampleCrate, otherCrate] ++ [sampleOf, otherOf]) := List.perm_append_comm
  have hof : ofAttrs [quartet sampleOf otherOf sampleCrate otherCrate] =
      .error ⟨.duplicateOption "of", .made⟩ := rfl
  have hcrate : ofAttrs [quartet sampleCrate otherCrate sampleOf otherOf] =
      .error ⟨.duplicateOption "crate", .made⟩ := rfl
  obtain ⟨d, hd, -⟩ | ⟨e, e', he, he', hmessage⟩ :=
    h _ _ _ _ _ _ (quartet_arranged ..) (quartet_arranged ..) hperm
  · cases hof.symm.trans hd
  · cases hof.symm.trans he
    cases hcrate.symm.trans he'
    exact absurd hmessage (by decide)

end Samples

end Directive

end Delegation
