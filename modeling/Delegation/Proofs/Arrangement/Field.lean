import Delegation.Proofs.Arrangement.Attributes
import Delegation.Proofs.Eligible

namespace Delegation

namespace Reader

variable {g : Rules} {s t : Stream}

theorem fieldOption_of_key {key : Path} {u : Stream} (hkey : optionKey s = .ok key u)
    (o : FieldOptions) : fieldOption g o s =
      (if key.isName "init" then do
        return { o with init := ← once s.rest key "init" o.init (g.expr true) }
      else if key.isName "set" then do
        return { o with set := ← once s.rest key "set" o.set visibility }
      else if key.isName "action" then do
        return { o with action := ← once s.rest key "action" o.action name }
      else refuseOption s.rest key (.unsupportedOption .field)) u := by
  have hahead : ahead s = .ok s.rest s := rfl
  rw [fieldOption, bind_of_ok hahead, bind_of_ok hkey]

theorem fieldOption_init {e : Expr} (h : Assigns "init" (g.expr true) s e t)
    (set : Option Visibility) (action : Option Ident) :
    fieldOption g ⟨none, set, action⟩ s = .ok ⟨some e, set, action⟩ t ∧
    ∀ given, ∃ e, fieldOption g ⟨some given, set, action⟩ s = .fail e ∧
      e.cause = .duplicateOption "init" :=
  h.entry (FieldOptions.mk · set action) fun _ _ _ hkey => fieldOption_of_key hkey _

theorem fieldOption_set {vis : Visibility} (h : Assigns "set" visibility s vis t)
    (init : Option Expr) (action : Option Ident) :
    fieldOption g ⟨init, none, action⟩ s = .ok ⟨init, some vis, action⟩ t ∧
    ∀ given, ∃ e, fieldOption g ⟨init, some given, action⟩ s = .fail e ∧
      e.cause = .duplicateOption "set" :=
  h.entry (FieldOptions.mk init · action) fun _ _ _ hkey => fieldOption_of_key hkey _

theorem fieldOption_action {i : Ident} (h : Assigns "action" name s i t)
    (init : Option Expr) (set : Option Visibility) :
    fieldOption g ⟨init, set, none⟩ s = .ok ⟨init, set, some i⟩ t ∧
    ∀ given, ∃ e, fieldOption g ⟨init, set, some given⟩ s = .fail e ∧
      e.cause = .duplicateOption "action" :=
  h.entry (FieldOptions.mk init set ·) fun _ _ _ hkey => fieldOption_of_key hkey _

end Reader

namespace FieldOptions

inductive Part where
  | init (expr : Expr)
  | set (vis : Visibility)
  | action (name : Ident)

namespace Part

def key : Part → String
  | .init _ => "init"
  | .set _ => "set"
  | .action _ => "action"

/-- `init = EXPR`, `set = VIS` or `action = NAME`. A visibility may be nothing. -/
def Spells (g : Rules) : Part → Stream → Stream → Prop
  | .init expr, s, t => Reader.Assigns "init" (g.expr true) s expr t
  | .set vis, s, t => Reader.Assigns "set" Reader.visibility s vis t
  | .action name, s, t => Reader.Assigns "action" Reader.name s name t

theorem spells_of_fieldOption {g : Rules} {o o' : FieldOptions} {s t : Stream}
    (h : Reader.fieldOption g o s = .ok o' t) : ∃ p, Part.Spells g p s t := by
  obtain ⟨begins, u, hbegins, hentry⟩ := Reader.bind_eq_ok.mp h
  cases hbegins
  obtain ⟨key, u, hkey, hentry⟩ := Reader.bind_eq_ok.mp hentry
  split at hentry
  next hinit =>
    obtain ⟨r, v, honce, hpure⟩ := Reader.bind_eq_ok.mp hentry
    obtain ⟨-, rfl⟩ := Reader.pure_eq_ok.mp hpure
    obtain ⟨expr, -, hassigns⟩ := Reader.Assigns.of_once hkey hinit honce
    exact ⟨.init expr, hassigns⟩
  next =>
    split at hentry
    next hset =>
      obtain ⟨r, v, honce, hpure⟩ := Reader.bind_eq_ok.mp hentry
      obtain ⟨-, rfl⟩ := Reader.pure_eq_ok.mp hpure
      obtain ⟨vis, -, hassigns⟩ := Reader.Assigns.of_once hkey hset honce
      exact ⟨.set vis, hassigns⟩
    next =>
      split at hentry
      next haction =>
        obtain ⟨r, v, honce, hpure⟩ := Reader.bind_eq_ok.mp hentry
        obtain ⟨-, rfl⟩ := Reader.pure_eq_ok.mp hpure
        obtain ⟨name, -, hassigns⟩ := Reader.Assigns.of_once hkey haction honce
        exact ⟨.action name, hassigns⟩
      next => cases hentry

end Part

def Has (o : FieldOptions) : Part → Prop
  | .init expr => o.init = some expr
  | .set vis => o.set = some vis
  | .action name => o.action = some name

def optionKind : OptionKind FieldOptions Part where
  entry := Reader.fieldOption
  empty := .empty
  key := Part.key
  Spells := Part.Spells
  Has := Has
  ext {x y} h := by
    obtain ⟨init, set, action⟩ := x
    obtain ⟨init', set', action'⟩ := y
    have hinit : init = init' := Option.ext fun expr => h (.init expr)
    have hset : set = set' := Option.ext fun vis => h (.set vis)
    have haction : action = action' := Option.ext fun name => h (.action name)
    rw [hinit, hset, haction]
  not_has_empty p := by cases p <;> simp [Has, FieldOptions.empty]
  spells_of_entry := Part.spells_of_fieldOption
  entry_cases {g p s t} h x := by
    obtain ⟨init, set, action⟩ := x
    cases p with
    | init expr =>
      cases init with
      | none =>
        refine .inl ⟨_, (Reader.fieldOption_init h set action).1, fun q hq => ?_, fun q => ?_⟩
        · cases q <;> simp_all [Has, Part.key]
        · cases q <;> simp [Has, eq_comm]
      | some given =>
        obtain ⟨e, he⟩ := (Reader.fieldOption_init h set action).2 given
        exact .inr ⟨.init given, e, rfl, rfl, he⟩
    | set vis =>
      cases set with
      | none =>
        refine .inl ⟨_, (Reader.fieldOption_set h init action).1, fun q hq => ?_, fun q => ?_⟩
        · cases q <;> simp_all [Has, Part.key]
        · cases q <;> simp [Has, eq_comm]
      | some given =>
        obtain ⟨e, he⟩ := (Reader.fieldOption_set h init action).2 given
        exact .inr ⟨.set given, e, rfl, rfl, he⟩
    | action name =>
      cases action with
      | none =>
        refine .inl ⟨_, (Reader.fieldOption_action h init set).1, fun q hq => ?_, fun q => ?_⟩
        · cases q <;> simp_all [Has, Part.key]
        · cases q <;> simp [Has, eq_comm]
      | some given =>
        obtain ⟨e, he⟩ := (Reader.fieldOption_action h init set).2 given
        exact .inr ⟨.action given, e, rfl, rfl, he⟩
  spells_mono {g g' p s t} hg h := by
    cases p with
    | init expr => exact Reader.Assigns.mono h (hg.expr true)
    | set vis => exact h
    | action name => exact h
  spells_append {g p ts us close left t} _ hg h close' := by
    cases p with
    | init expr => exact Reader.Assigns.append (hg.expr true) h close'
    | set vis => exact Reader.Assigns.append Reader.visibility_bounded h close'
    | action name => exact Reader.Assigns.append Reader.Fits.name h close'
  visible_lt {g p s t} hg h := by
    cases p with
    | init expr => exact Reader.Assigns.visible_lt (hg.expr true) h
    | set vis => exact Reader.Assigns.visible_lt Reader.visibility_bounded h
    | action name => exact Reader.Assigns.visible_lt Reader.Fits.name h

abbrev Written := optionKind.Written

abbrev Arranged := optionKind.Arranged

variable {others others' attrs attrs' : List Attr} {os os' : List Written} {o : FieldOptions}

theorem Arranged.outcome (h : Arranged others os attrs) :
    optionKind.Outcome (os.map OptionKind.Written.part) (ofAttrs attrs) :=
  OptionKind.Arranged.outcome h (OptionKind.holds_empty optionKind)

theorem has_iff_of_arranged (h : Arranged others os attrs) (ho : ofAttrs attrs = .ok o) (p : Part) :
    o.Has p ↔ ∃ w ∈ os, w.part = p := by
  have houtcome := h.outcome
  rw [ho] at houtcome
  cases houtcome with
  | read h => exact (h.has_iff p).trans List.mem_map

theorem Arranged.ignored_iff (h : Arranged others os attrs) :
    ignoreName ∈ attrs.map Attr.fullName ↔ ignoreName ∈ others.map Attr.fullName := by
  induction h with
  | nil => rfl
  | other hname h ih => simp only [List.map_cons, List.mem_cons, ih]
  | directive ha hts h ih =>
    rw [List.map_cons, List.mem_cons, Attr.fullName_of_isNamed ha.name, ih]
    exact or_iff_right (by decide)

end FieldOptions

def Visibility.IsSelf (v : Visibility) : Prop :=
  ∃ span parens path, v = .restricted span parens none path ∧ path.isName "self" = true

theorem Visibility.normal_of_isSelf {v : Visibility} (h : v.IsSelf) : v.normal = .inherited := by
  obtain ⟨span, parens, path, rfl, hself⟩ := h
  rw [normal, if_pos hself]

theorem Visibility.normal_of_not_isSelf {v : Visibility} (h : ¬ v.IsSelf) : v.normal = v := by
  unfold normal
  split
  next span parens path =>
    split
    next hself => exact absurd ⟨span, parens, path, rfl, hself⟩ h
    next => rfl
  next => rfl

/-- The visibility that counts: what is given for `set`, or else the field's own. -/
def FieldOptions.Decides (os : List FieldOptions.Written) (own v : Visibility) : Prop :=
  (∃ w ∈ os, w.part = .set v) ∨ v = own ∧ ∀ w ∈ os, w.part.key ≠ "set"

namespace FieldDecl

variable {decl : FieldDecl} {names : List String}

theorem eligible?_decorations (h : { decl with decorations := names }.isIgnored = decl.isIgnored) :
    { decl with decorations := names }.eligible? = decl.eligible? := by
  rw [eligible?, h]
  rfl

theorem delegate?_decorations (h : { decl with decorations := names }.isIgnored = decl.isIgnored) :
    { decl with decorations := names }.delegate? = decl.delegate? := by
  rw [delegate?, eligible?_decorations h]
  rfl

theorem vis_of_delegate? {d : Delegate} (h : decl.delegate? = .ok (some d)) :
    d.vis = resolveVisibility decl.modifiers := by
  unfold delegate? at h
  split at h
  next => cases h
  next child hchild =>
    obtain ⟨v, -, hmade⟩ := Fallible.bind_eq_ok_iff.mp h
    cases hmade
    rfl

variable {f : Field} {named : Ident × Span} {others others' attrs' : List Attr}
  {os os' : List FieldOptions.Written}

theorem ofField_ok_iff (hname : f.name = some named) :
    (∃ decl, ofField f = .ok decl) ↔ ∃ o, FieldOptions.ofAttrs f.attrs = .ok o := by
  constructor
  · rintro ⟨decl, hdecl⟩
    obtain ⟨-, -, o, -, ho, -⟩ := ofField_eq_ok.mp hdecl
    exact ⟨o, ho⟩
  · rintro ⟨o, ho⟩
    exact ⟨_, ofField_eq_ok.mpr ⟨named.1, named.2, o, hname, ho, rfl⟩⟩

theorem vis_of_arranged {o : FieldOptions} (h : FieldOptions.Arranged others os f.attrs)
    (ho : FieldOptions.ofAttrs f.attrs = .ok o) {v : Visibility}
    (hv : FieldOptions.Decides os f.vis v) : o.set.getD f.vis = v := by
  obtain hset | ⟨rfl, hnone⟩ := hv
  · have hgiven : o.set = some v := (FieldOptions.has_iff_of_arranged h ho (.set v)).mpr hset
    rw [hgiven, Option.getD_some]
  · have hfree : o.set = none := by
      refine Option.eq_none_iff_forall_ne_some.mpr fun v hv => ?_
      obtain ⟨w, hw, hpart⟩ := (FieldOptions.has_iff_of_arranged h ho (.set v)).mp hv
      exact hnone w hw (by rw [hpart]; rfl)
    rw [hfree, Option.getD_none]

/-- The arrangement of its options makes no difference to a field: neither to whether it can be
read, nor to what it says. -/
theorem ofField_arranged (hname : f.name = some named)
    (h : FieldOptions.Arranged others os f.attrs) (h' : FieldOptions.Arranged others' os' attrs')
    (hos : os.Perm os') (hothers : others.Perm others') :
    ((∃ decl, ofField f = .ok decl) ↔ (os.map fun w => w.part.key).Nodup) ∧
    ∀ decl, ofField f = .ok decl → ∃ decl', ofField { f with attrs := attrs' } = .ok decl' ∧
      decl'.init = decl.init ∧ decl'.action = decl.action ∧ decl'.binding = decl.binding ∧
      decl'.eligible? = decl.eligible? ∧ decl'.delegate? = decl.delegate? ∧
      ∀ d, decl.delegate? = .ok (some d) → ∀ v, FieldOptions.Decides os f.vis v →
        (v.IsSelf → d.vis = .inherited) ∧ (¬ v.IsSelf → d.vis = v) := by
  refine ⟨?_, fun decl hdecl => ?_⟩
  · rw [ofField_ok_iff hname, h.outcome.ok_iff_nodup, List.map_map]
    rfl
  · obtain ⟨name, colon, o, hnamed, ho, hfields⟩ := ofField_eq_ok.mp hdecl
    have ho' : FieldOptions.ofAttrs attrs' = .ok o := h.outcome.ok_of_perm h'.outcome (hos.map _) ho
    have hread : ofField { f with attrs := attrs' } =
        .ok { decl with decorations := attrs'.map Attr.fullName } :=
      ofField_eq_ok.mpr ⟨name, colon, o, hnamed, ho', by rw [hfields]⟩
    have hignored : { decl with decorations := attrs'.map Attr.fullName }.isIgnored =
        decl.isIgnored := by
      rw [hfields, isIgnored, isIgnored, Bool.eq_iff_iff, List.contains_iff_mem,
        List.contains_iff_mem, h.ignored_iff, h'.ignored_iff, (hothers.map Attr.fullName).mem_iff]
    refine ⟨_, hread, rfl, rfl, rfl, eligible?_decorations hignored,
      delegate?_decorations hignored, ?_⟩
    intro d hd v hv
    have hvis : d.vis = v.normal := by
      rw [vis_of_delegate? hd, hfields, resolveVisibility_modifiersOf, vis_of_arranged h ho hv]
    exact ⟨fun hself => hvis.trans (Visibility.normal_of_isSelf hself),
      fun hother => hvis.trans (Visibility.normal_of_not_isSelf hother)⟩

section Samples

open Code

def sampleInit : Expr :=
  .call [] (.path [] (.plain ⟨none, [.plain ⟨"AReducer", .made⟩, .plain ⟨"State", .made⟩]⟩))
    [.literal "1" .made, sign ',', .literal "2" .made] .made

def initOption : FieldOptions.Written where
  part := .init sampleInit
  tokens := [word "init", sign '=', word "AReducer", .punct ':' true .made, sign ':', word "State",
    parens [.literal "1" .made, sign ',', .literal "2" .made]]
  alone := ⟨_, ⟨_, ⟨_, _, _, rfl, rfl⟩, rfl⟩, rfl, rfl⟩

def setOption : FieldOptions.Written where
  part := .set .inherited
  tokens := [word "set", sign '=']
  alone := ⟨_, ⟨_, ⟨_, _, _, rfl, rfl⟩, rfl⟩, rfl, rfl⟩

def actionOption : FieldOptions.Written where
  part := .action ⟨"Reserve", .made⟩
  tokens := [word "action", sign '=', word "Reserve"]
  alone := ⟨_, ⟨_, ⟨_, _, _, rfl, rfl⟩, rfl⟩, rfl, rfl⟩

/-- A public field `count: Counter` with these attributes. -/
def sampleField (attrs : List Attr) : Field :=
  ⟨attrs, .everywhere .made, some (⟨"count", .made⟩, .made), .ofIdent ⟨"Counter", .made⟩⟩

/-- The action and an empty visibility in one attribute, the initializer in another. -/
def sampleAttrs : List Attr :=
  [.made directiveName (actionOption.tokens ++ sign ',' :: (setOption.tokens ++ [sign ','])),
    .made "serde" [], .made "doc" [], .made directiveName initOption.tokens]

def permutedAttrs : List Attr :=
  [.made "doc" [], .made directiveName (setOption.tokens ++ sign ',' ::
    (initOption.tokens ++ sign ',' :: actionOption.tokens)), .made "serde" []]

theorem sampleAttrs_arranged : FieldOptions.Arranged [.made "serde" [], .made "doc" []]
    ([actionOption, setOption] ++ ([initOption] ++ [])) sampleAttrs := by
  refine .directive ⟨rfl, _, _, rfl⟩
    (.cons actionOption false .made (.cons setOption false .made .nil)) ?_
  exact .other rfl (.other rfl (.directive ⟨rfl, _, _, rfl⟩ (.last initOption) .nil))

theorem permutedAttrs_arranged : FieldOptions.Arranged [.made "doc" [], .made "serde" []]
    ([setOption, initOption, actionOption] ++ []) permutedAttrs := by
  refine .other rfl (.directive ⟨rfl, _, _, rfl⟩ ?_ (.other rfl .nil))
  exact .cons setOption false .made (.cons initOption false .made (.last actionOption))

theorem ofField_arranged_sample :
    FieldOptions.Arranged [.made "serde" [], .made "doc" []]
      [actionOption, setOption, initOption] sampleAttrs ∧
    FieldOptions.Arranged [.made "doc" [], .made "serde" []]
      [setOption, initOption, actionOption] permutedAttrs ∧
    ∃ decl decl' d, ofField (sampleField sampleAttrs) = .ok decl ∧
      ofField (sampleField permutedAttrs) = .ok decl' ∧ decl'.eligible? = decl.eligible? ∧
      decl.delegate? = .ok (some d) ∧ decl'.delegate? = .ok (some d) ∧ d.vis = .inherited := by
  have hos : [actionOption, setOption, initOption].Perm [setOption, initOption, actionOption] :=
    .trans (.swap ..) (.cons _ (.swap ..))
  have hothers : [Attr.made "serde" [], .made "doc" []].Perm [.made "doc" [], .made "serde" []] :=
    .swap ..
  obtain ⟨hok, hsame⟩ := ofField_arranged (f := sampleField sampleAttrs) rfl sampleAttrs_arranged
    permutedAttrs_arranged hos hothers
  obtain ⟨decl, hdecl⟩ := hok.mpr (by decide)
  obtain ⟨decl', hdecl', -, -, -, heligible, hdelegate, hvis⟩ := hsame decl hdecl
  have hread : ofField (sampleField sampleAttrs) = .ok ⟨⟨"count", .made⟩,
      .ofIdent ⟨"Counter", .made⟩, some sampleInit, [directiveName, "serde", "doc", directiveName],
      [.setter .inherited, .plain (.everywhere .made)], some ⟨"Reserve", .made⟩⟩ := rfl
  cases hread.symm.trans hdecl
  refine ⟨sampleAttrs_arranged, permutedAttrs_arranged, _, decl', _, hdecl, hdecl', heligible, rfl,
    hdelegate, ?_⟩
  exact (hvis _ rfl .inherited (.inl ⟨setOption, by simp, rfl⟩)).2
    (by rintro ⟨_, _, _, h, -⟩; cases h)

end Samples

end FieldDecl

end Delegation
