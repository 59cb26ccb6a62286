import Mathlib.Data.List.Forall2
import Delegation.Proofs.Places
import Delegation.Proofs.Rendering
import Delegation.Proofs.StateType

namespace Delegation

open Fallible

/-- `&T`, but not `&mut T`, and not in parentheses or a group. -/
def Ty.IsSharedReference (t : Ty) : Prop :=
  ∃ amp lifetime elem, t = .reference amp lifetime none elem

theorem Ty.isSharedReference_iff (t : Ty) : t.IsSharedReference ↔ t.binding = .immutable := by
  unfold IsSharedReference binding
  split
  next amp lifetime elem => simp
  next h => simpa using fun amp lifetime elem => h amp lifetime elem

theorem Attr.fullName_of_isNamed {a : Attr} {name : String} (h : a.isNamed name = true) :
    a.fullName = name := by
  unfold isNamed Path.isName at h
  split at h
  next n hpath =>
    rw [fullName, hpath]
    exact beq_iff_eq.mp h
  next => cases h

theorem forall₂_single {α β : Type} {R : α → β → Prop} {a : α} {l : List β}
    (h : List.Forall₂ R [a] l) : ∃ b, l = [b] ∧ R a b := by
  obtain ⟨b, rest, hb, hrest, rfl⟩ := List.forall₂_cons_left_iff.mp h
  obtain rfl := List.forall₂_nil_left_iff.mp hrest
  exact ⟨b, rfl, hb⟩

theorem forall₂_pair {α β : Type} {R : α → β → Prop} {a b : α} {l : List β}
    (h : List.Forall₂ R [a, b] l) : ∃ c d, l = [c, d] ∧ R a c ∧ R b d := by
  obtain ⟨c, rest, hc, hrest, rfl⟩ := List.forall₂_cons_left_iff.mp h
  obtain ⟨d, rest', hd, hnil, rfl⟩ := List.forall₂_cons_left_iff.mp hrest
  obtain rfl := List.forall₂_nil_left_iff.mp hnil
  exact ⟨c, d, rfl, hc, hd⟩

namespace Field

def child? (f : Field) : Option Child :=
  match FieldDecl.ofField f with
  | .ok decl => decl.child?
  | .error _ => none

/-- The field is delegated: it is not marked, it is no shared reference, and a child is found. -/
def Eligible (f : Field) : Prop :=
  (∀ a ∈ f.attrs, a.fullName ≠ ignoreName) ∧ ¬ f.type.IsSharedReference ∧ f.child?.isSome = true

instance : DecidablePred Eligible := fun f =>
  decidable_of_iff
    ((∀ a ∈ f.attrs, a.fullName ≠ ignoreName) ∧ f.type.binding ≠ .immutable ∧
      f.child?.isSome = true)
    (by rw [Eligible, Ty.isSharedReference_iff])

/-- What a method is made from, as the field gives it: its name, its child, whether the child is in
an `Option`, the `set` option or else its own visibility, and the `action` option or else a variant
named for it. -/
structure Gives (f : Field) (d : Delegate) : Prop where
  name : ∃ colon, f.name = some (d.name, colon)
  child : f.child? = some ⟨d.child, d.optional⟩
  optional : d.optional = true ↔ ∃ owner, f.type.SpellsOption owner
  options : ∃ options, FieldOptions.ofAttrs f.attrs = .ok options ∧
    d.vis = (options.set.getD f.vis).normal ∧
    match options.action with
    | some action => d.variant = action
    | none => ∃ text, variantName d.name.name = .ok text ∧ d.variant = ⟨text, d.name.span⟩

def Agree (f g : Field) : Prop := ∀ d e, f.Gives d → g.Gives e → d.bare = e.bare

end Field

theorem resolveVisibility_modifiersOf (set : Option Visibility) (vis : Visibility) :
    resolveVisibility (FieldDecl.modifiersOf set vis) = (set.getD vis).normal := by
  cases set with
  | some v => rfl
  | none => cases vis <;> rfl

namespace FieldDecl

theorem ofField_eq_ok {f : Field} {decl : FieldDecl} : ofField f = .ok decl ↔
    ∃ name colon options, f.name = some (name, colon) ∧
      FieldOptions.ofAttrs f.attrs = .ok options ∧
      decl = ⟨name, f.type, options.init, f.attrs.map Attr.fullName,
        modifiersOf options.set f.vis, options.action⟩ := by
  unfold ofField
  cases f.name with
  | none => simp
  | some named =>
    obtain ⟨name, colon⟩ := named
    simp [bind_eq_ok_iff, pure_eq_ok, eq_comm (a := decl)]

theorem optional_child?_iff (decl : FieldDecl) {child : Child} (h : decl.child? = some child) :
    child.optional = true ↔ ∃ owner, decl.type.SpellsOption owner := by
  unfold child? at h
  split at h
  next owner ho =>
    obtain rfl : ⟨owner, false⟩ = child := by simpa using h
    simp only [Bool.false_eq_true, false_iff, not_exists]
    intro owner' hoption
    simp [hoption.stateOwner?_eq_none] at ho
  next =>
    split at h
    next owner ho =>
      obtain rfl : ⟨owner, true⟩ = child := by simpa using h
      simpa using ⟨owner, (decl.type.spellsOption_iff owner).mpr ho⟩
    next hnone =>
      obtain ⟨owner, -, rfl⟩ := Option.map_eq_some_iff.mp h
      simp [Ty.spellsOption_iff, hnone]

end FieldDecl

theorem Field.optional_iff {f : Field} {child : Ty} {optional : Bool}
    (h : f.child? = some ⟨child, optional⟩) :
    optional = true ↔ ∃ owner, f.type.SpellsOption owner := by
  unfold child? at h
  split at h
  next decl hread =>
    obtain ⟨name, colon, options, -, -, rfl⟩ := FieldDecl.ofField_eq_ok.mp hread
    exact FieldDecl.optional_child?_iff _ h
  next => cases h

namespace FieldDecl

theorem eligible_iff {f : Field} {decl : FieldDecl} (h : ofField f = .ok decl) :
    f.Eligible ↔ decl.isIgnored = false ∧ decl.binding ≠ .immutable ∧
      decl.child?.isSome = true := by
  have hchild : f.child? = decl.child? := by rw [Field.child?, h]
  obtain ⟨name, colon, options, -, -, rfl⟩ := ofField_eq_ok.mp h
  rw [Field.Eligible, hchild, Ty.isSharedReference_iff]
  refine and_congr ?_ Iff.rfl
  simp [isIgnored]

theorem eligible?_eq_some_iff {f : Field} {decl : FieldDecl} (h : ofField f = .ok decl)
    (child : Child) : decl.eligible? = some child ↔ f.Eligible ∧ f.child? = some child := by
  have hchild : f.child? = decl.child? := by rw [Field.child?, h]
  rw [eligible_iff h, hchild, eligible?]
  split
  next hclosed =>
    simp only [Bool.or_eq_true, beq_iff_eq] at hclosed
    obtain hignored | hbinding := hclosed
    · simp [hignored]
    · simp [hbinding]
  next hopen =>
    simp only [Bool.or_eq_true, beq_iff_eq, not_or, Bool.not_eq_true] at hopen
    constructor
    · exact fun hc => ⟨⟨hopen.1, hopen.2, by simp [hc]⟩, hc⟩
    · exact fun hc => hc.2

theorem variant_eq_ok {decl : FieldDecl} {v : Ident} (h : decl.variant = .ok v) :
    match decl.action with
    | some action => v = action
    | none => ∃ text, variantName decl.name.name = .ok text ∧ v = ⟨text, decl.name.span⟩ := by
  unfold variant at h
  cases haction : decl.action with
  | some action =>
    simp only [haction, Except.ok.injEq] at h
    exact h.symm
  | none =>
    simp only [haction] at h
    obtain ⟨text, htext, hv⟩ := bind_eq_ok_iff.mp h
    cases hv
    exact ⟨text, htext, rfl⟩

/-- A field that can be read is passed over, or gives a delegate what it is made from. -/
theorem delegate?_cases {f : Field} {decl : FieldDecl} (h : ofField f = .ok decl)
    {found : Option Delegate} (hfound : decl.delegate? = .ok found) :
    (¬ f.Eligible ∧ found = none) ∨ ∃ d, f.Eligible ∧ found = some d ∧ f.Gives d := by
  unfold delegate? at hfound
  split at hfound
  next hnone =>
    refine .inl ⟨fun heligible => ?_, by simpa [eq_comm] using hfound⟩
    obtain ⟨child, hc⟩ := Option.isSome_iff_exists.mp heligible.2.2
    simp [(eligible?_eq_some_iff h child).mpr ⟨heligible, hc⟩] at hnone
  next child hsome =>
    obtain ⟨heligible, hc⟩ := (eligible?_eq_some_iff h child).mp hsome
    obtain ⟨v, hvariant, hmade⟩ := bind_eq_ok_iff.mp hfound
    cases hmade
    have hoptional := Field.optional_iff hc
    have hv := variant_eq_ok hvariant
    obtain ⟨name, colon, options, hname, hoptions, rfl⟩ := ofField_eq_ok.mp h
    exact .inr ⟨_, heligible, rfl, ⟨colon, hname⟩, hc, hoptional, options, hoptions,
      resolveVisibility_modifiersOf .., hv⟩

end FieldDecl

namespace Declaration

theorem readDelegates_cons_ok {f : Field} {fields : List Field} {found : List Delegate}
    (h : readDelegates (f :: fields) = .ok ([], found)) :
    ∃ decl first rest, FieldDecl.ofField f = .ok decl ∧ decl.delegate? = .ok first ∧
      readDelegates fields = .ok ([], rest) ∧ found = first.toList ++ rest := by
  rw [readDelegates] at h
  split at h
  next failure hf =>
    obtain ⟨⟨failures, rest⟩, -, hread⟩ := bind_eq_ok_iff.mp h
    cases hread
  next decl hf =>
    obtain ⟨first, hfirst, hfields⟩ := bind_eq_ok_iff.mp h
    obtain ⟨⟨failures, rest⟩, hrest, hread⟩ := bind_eq_ok_iff.mp hfields
    cases hread
    exact ⟨decl, first, rest, hf, hfirst, hrest, rfl⟩

theorem readDelegates_gives {fields : List Field} {found : List Delegate}
    (h : readDelegates fields = .ok ([], found)) :
    List.Forall₂ Field.Gives (fields.filter fun f => f.Eligible) found := by
  induction fields generalizing found with
  | nil =>
    obtain rfl : [] = found := by simpa [readDelegates] using h
    exact .nil
  | cons f fields ih =>
    obtain ⟨decl, first, rest, hf, hfirst, hrest, rfl⟩ := readDelegates_cons_ok h
    -- a field that is passed over stands on neither side
    obtain ⟨heligible, rfl⟩ | ⟨d, heligible, rfl, hgives⟩ := FieldDecl.delegate?_cases hf hfirst
    · rw [List.filter_cons_of_neg (by simpa using heligible)]
      exact ih hrest
    · rw [List.filter_cons_of_pos (by simpa using heligible)]
      exact .cons hgives (ih hrest)

def eligibleFields (d : Declaration) : List Field := d.namedFields.filter fun f => f.Eligible

theorem delegates_gives {d : Declaration} {found : List Delegate} (h : d.delegates = .ok found) :
    List.Forall₂ Field.Gives d.eligibleFields found := by
  obtain ⟨⟨failures, found'⟩, hread, hfound⟩ := bind_eq_ok_iff.mp h
  obtain ⟨_, hstop, hreturn⟩ := bind_eq_ok_iff.mp hfound
  obtain rfl := stopAt_eq_ok_iff.mp hstop
  cases hreturn
  exact readDelegates_gives (mapError_eq_ok_iff.mp hread)

theorem derive_ok {d : Declaration} {out : List Tree} (h : derive d = .ok out) :
    ∃ directive, Directive.ofAttrs d.attrs = .ok directive ∧
      (((directive.of = none ∨ ∃ attrs, d = .other attrs) ∧ out = []) ∨
        ∃ s parent found, d = .struct s ∧ directive.of = some parent ∧
          List.Forall₂ Field.Gives d.eligibleFields found ∧
          out = s.rendering parent directive.runtimePath found) := by
  cases hd : Directive.ofAttrs d.attrs with
  | error failure => cases (derive_of_unread hd).symm.trans h
  | ok directive =>
    refine ⟨directive, rfl, ?_⟩
    obtain ⟨_, -, hwritten⟩ := bind_eq_ok_iff.mp ((derive_of_read hd).symm.trans h)
    cases hof : directive.of with
    | none =>
      rw [hof] at hwritten
      cases hwritten
      exact .inl ⟨.inl rfl, rfl⟩
    | some parent =>
      rw [hof] at hwritten
      cases d with
      | other attrs =>
        cases hwritten
        exact .inl ⟨.inr ⟨attrs, rfl⟩, rfl⟩
      | struct s =>
        obtain ⟨found, hfound, hrendered⟩ := bind_eq_ok_iff.mp hwritten
        cases hrendered
        exact .inr ⟨s, parent, found, rfl, rfl, delegates_gives hfound, rfl⟩

theorem eligibleFields_eq_nil_iff (d : Declaration) :
    d.eligibleFields = [] ↔ ∀ f ∈ d.namedFields, ¬ f.Eligible := by
  simp [eligibleFields, List.filter_eq_nil_iff]

end Declaration

theorem Field.Gives.unique {f : Field} {d e : Delegate} (hd : f.Gives d) (he : f.Gives e) :
    d = e := by
  obtain ⟨⟨colon, hname⟩, hchild, -, options, hoptions, hvis, hvariant⟩ := hd
  obtain ⟨⟨colon', hname'⟩, hchild', -, options', hoptions', hvis', hvariant'⟩ := he
  obtain ⟨name, child, optional, vis, variant⟩ := d
  obtain ⟨name', child', optional', vis', variant'⟩ := e
  obtain ⟨rfl, -⟩ : name = name' ∧ colon = colon' := by simpa [hname] using hname'
  obtain ⟨rfl, rfl⟩ : child = child' ∧ optional = optional' := by simpa [hchild] using hchild'
  obtain rfl : options = options' := by simpa [hoptions] using hoptions'
  obtain rfl : vis = vis' := hvis.trans hvis'.symm
  have hsame : variant = variant' := by
    cases haction : options.action with
    | some action =>
      simp only [haction] at hvariant hvariant'
      exact hvariant.trans hvariant'.symm
    | none =>
      simp only [haction] at hvariant hvariant'
      obtain ⟨text, htext, rfl⟩ := hvariant
      obtain ⟨text', htext', rfl⟩ := hvariant'
      simpa [htext] using htext'
  rw [hsame]

theorem Field.bare_eq_of_agree {fs gs : List Field} (h : List.Forall₂ Field.Agree fs gs)
    {ds es : List Delegate} (hd : List.Forall₂ Field.Gives fs ds)
    (he : List.Forall₂ Field.Gives gs es) : ds.map Delegate.bare = es.map Delegate.bare := by
  induction h generalizing ds es with
  | nil =>
    cases hd
    cases he
    rfl
  | cons hfg _ ih =>
    cases hd with
    | cons hf hfs =>
      cases he with
      | cons hg hgs => simp [hfg _ _ hf hg, ih hfs hgs]

theorem Struct.rendering_eq_nil_iff (s : Struct) (parent : Ty) (runtime : Path)
    (found : List Delegate) : s.rendering parent runtime found = [] ↔ found = [] := by
  cases found <;> simp [rendering, implBlock]

theorem Declaration.derive_block {d : Declaration} {out : List Tree} (h : derive d = .ok out)
    (hne : out ≠ []) : ∃ s parent library found, d = .struct s ∧
      List.Forall₂ Field.Gives d.eligibleFields found ∧
      out = s.implBlock (found.flatMap (·.method parent library)) := by
  obtain ⟨directive, -, ⟨-, rfl⟩ | ⟨s, parent, found, rfl, -, hgives, rfl⟩⟩ := derive_ok h
  · exact absurd rfl hne
  · rw [ne_eq, s.rendering_eq_nil_iff] at hne
    refine ⟨s, parent, directive.runtimePath, found, rfl, hgives, ?_⟩
    rw [Struct.rendering, if_neg (by simpa using hne)]

theorem Declaration.bare_derive {d e : Declaration} {directive directive' : Directive}
    {out out' : List Tree} (hd : derive d = .ok out) (he : derive e = .ok out')
    (hdir : Directive.ofAttrs d.attrs = .ok directive)
    (hdir' : Directive.ofAttrs e.attrs = .ok directive') (hbare : directive.bare = directive'.bare)
    (hhead : ∀ s t, d = .struct s → e = .struct t →
      s.name.bare = t.name.bare ∧ s.generics.bare = t.generics.bare)
    (hagree : List.Forall₂ Field.Agree d.eligibleFields e.eligibleFields) :
    Trees.bare out = Trees.bare out' := by
  have hof : directive.of.map Ty.bare = directive'.of.map Ty.bare := congrArg Directive.of hbare
  obtain ⟨_, hsame, hout⟩ := derive_ok hd
  obtain rfl := Except.ok.inj (hdir.symm.trans hsame)
  obtain ⟨_, hsame', hout'⟩ := derive_ok he
  obtain rfl := Except.ok.inj (hdir'.symm.trans hsame')
  have hempty : d.eligibleFields = [] ↔ e.eligibleFields = [] := by
    rw [← List.length_eq_zero_iff, hagree.length_eq, List.length_eq_zero_iff]
  have hother (attrs : List Attr) : (other attrs).eligibleFields = [] := rfl
  -- nothing is written without a parent, without fields to look at, or without an eligible field
  obtain ⟨hnone, rfl⟩ | ⟨s, parent, found, rfl, hparent, hgives, rfl⟩ := hout
  · obtain ⟨-, rfl⟩ | ⟨t, parent', found', rfl, hparent', hgives', rfl⟩ := hout'
    · rfl
    · obtain hn | ⟨attrs, rfl⟩ := hnone
      · simp [hn, hparent'] at hof
      · rw [hempty.mp (hother attrs)] at hgives'
        rw [List.forall₂_nil_left_iff.mp hgives']
        rfl
  · obtain ⟨hnone, rfl⟩ | ⟨t, parent', found', rfl, hparent', hgives', rfl⟩ := hout'
    · obtain hn | ⟨attrs, rfl⟩ := hnone
      · simp [hn, hparent] at hof
      · rw [hempty.mpr (hother attrs)] at hgives
        rw [List.forall₂_nil_left_iff.mp hgives]
        rfl
    · obtain ⟨hname, hgenerics⟩ := hhead s t rfl rfl
      rw [hparent, hparent', Option.map_some, Option.map_some, Option.some.injEq] at hof
      exact Struct.bare_rendering hname hgenerics hof (Directive.runtimePath_bare hbare)
        (Field.bare_eq_of_agree hagree hgives hgives')

namespace Declaration

def IsNamed (d : Declaration) : Prop :=
  ∃ s span fields trailing, d = .struct s ∧ s.body = .named span fields trailing

inductive HasFields : Declaration → List Field → Prop where
  | named {s : Struct} {span : Span} {fields : List Field} {trailing : Bool}
    (hbody : s.body = .named span fields trailing) : HasFields (.struct s) fields
  | unnamed {d : Declaration} (h : ¬ d.IsNamed) : HasFields d []

theorem namedFields_of_unnamed {d : Declaration} (h : ¬ d.IsNamed) : d.namedFields = [] := by
  unfold namedFields
  split
  next s =>
    split
    next span fields trailing hbody => exact absurd ⟨s, span, fields, trailing, rfl, hbody⟩ h
    next => rfl
  next => rfl

theorem hasFields_iff {d : Declaration} {fields : List Field} :
    d.HasFields fields ↔ fields = d.namedFields := by
  constructor
  · rintro (hbody | h)
    · rw [namedFields, hbody]
    · exact (namedFields_of_unnamed h).symm
  · rintro rfl
    by_cases h : d.IsNamed
    · obtain ⟨s, span, fields, trailing, rfl, hbody⟩ := h
      rw [namedFields, hbody]
      exact .named hbody
    · rw [namedFields_of_unnamed h]
      exact .unnamed h

/-- What is generated under a directive. The block holds a method for each eligible field, in the
order of the fields. -/
structure Generates (d : Declaration) (directive : Directive) (fields : List Field)
    (out : List Tree) : Prop where
  nothing : out = [] ↔ directive.of = none ∨ ¬ d.IsNamed ∨ ∀ f ∈ fields, ¬ f.Eligible
  block : out ≠ [] → ∃ s parent found methods, d = .struct s ∧ directive.of = some parent ∧
    List.Forall₂ Field.Gives (fields.filter fun f => f.Eligible) found ∧
    List.Forall₂ (fun v => Delegate.Renders v parent (directive.runtime.getD defaultRuntime))
      found methods ∧
    s.Block methods out

theorem generates_of_derive {d : Declaration} {out : List Tree} (h : derive d = .ok out) :
    ∃ directive, Directive.ofAttrs d.attrs = .ok directive ∧
      d.Generates directive d.namedFields out := by
  obtain ⟨directive, hd, ⟨hnone, rfl⟩ | ⟨s, parent, found, rfl, hof, hgives, rfl⟩⟩ := derive_ok h
  · refine ⟨directive, hd, ⟨fun _ => ?_, fun _ => rfl⟩, fun hne => absurd rfl hne⟩
    obtain hof | ⟨attrs, rfl⟩ := hnone
    · exact .inl hof
    · exact .inr (.inl (by simp [IsNamed]))
  · have hempty : found = [] ↔ ∀ f ∈ (struct s).namedFields, ¬ f.Eligible := by
      rw [← eligibleFields_eq_nil_iff, ← List.length_eq_zero_iff, ← hgives.length_eq,
        List.length_eq_zero_iff]
    refine ⟨directive, hd, ?_, fun hne => ?_⟩
    · rw [s.rendering_eq_nil_iff, hempty]
      constructor
      · exact fun hall => .inr (.inr hall)
      · rintro (hnone | hunnamed | hall)
        · simp [hof] at hnone
        · simp [namedFields_of_unnamed hunnamed]
        · exact hall
    · rw [ne_eq, s.rendering_eq_nil_iff] at hne
      refine ⟨s, parent, found, found.map (·.method parent directive.runtimePath), rfl, hof,
        hgives, ?_, ?_⟩
      · rw [List.forall₂_map_right_iff, List.forall₂_same]
        exact fun v _ => v.method_renders parent _
      · rw [Struct.rendering, if_neg (by simpa using hne), List.flatMap_def]
        exact s.implBlock_block _

end Declaration

/-- What is generated is nothing, or one block with the methods of the eligible fields in their
order. Each method is made from five things that its field gives, and nothing else shows: two
declarations that agree on them, on the name, the parameters and the directive, generate the
same. -/
theorem derive_eligible_fields :
    (∀ d out, derive d = .ok out → ∃ directive fields,
      Directive.ofAttrs d.attrs = .ok directive ∧ d.HasFields fields ∧
        d.Generates directive fields out) ∧
    (∀ (f : Field) d e, f.Gives d → f.Gives e → d = e) ∧
    ∀ d e fs gs directive directive' out out', derive d = .ok out → derive e = .ok out' →
      d.HasFields fs → e.HasFields gs →
      Directive.ofAttrs d.attrs = .ok directive → Directive.ofAttrs e.attrs = .ok directive' →
      directive.bare = directive'.bare →
      (∀ s t, d = .struct s → e = .struct t →
        s.name.bare = t.name.bare ∧ s.generics.bare = t.generics.bare) →
      List.Forall₂ Field.Agree (fs.filter fun f => f.Eligible) (gs.filter fun f => f.Eligible) →
      Trees.bare out = Trees.bare out' := by
  refine ⟨fun d out h => ?_, fun f d e => Field.Gives.unique, ?_⟩
  · obtain ⟨directive, hd, hgenerates⟩ := Declaration.generates_of_derive h
    exact ⟨directive, d.namedFields, hd, Declaration.hasFields_iff.mpr rfl, hgenerates⟩
  · intro d e fs gs directive directive' out out' hd he hfs hgs hdir hdir' hbare hhead hagree
    obtain rfl := Declaration.hasFields_iff.mp hfs
    obtain rfl := Declaration.hasFields_iff.mp hgs
    exact Declaration.bare_derive hd he hdir hdir' hbare hhead hagree

namespace Declaration

def sampleField (attrs : List Attr) (name : String) (type : List String) : Field :=
  ⟨attrs, .inherited, some (⟨name, .made⟩, .made),
    .path (.plain ⟨none, type.map fun n => .plain ⟨n, .made⟩⟩)⟩

def sampleAttr (name : String) (args : AttrArgs) : Attr :=
  ⟨.made, none, .ofIdent ⟨name, .made⟩, args, .made⟩

def fieldsSample (fields : List Field) : Struct :=
  ⟨[sampleAttr directiveName (.list .paren
      [Code.word "of", Code.sign '=', Code.word "TestReducer"] .made)],
    .inherited, .made, ⟨"State", .made⟩, .empty, .named .made fields true⟩

/-- `last: Option<BarReducer::State>` with the options `set = pub(crate), action = Renamed`. -/
def optionField : Field :=
  { sampleField [sampleAttr directiveName (.list .paren [Code.word "set", Code.sign '=',
      Code.word "pub", Code.parens [Code.word "crate"], Code.sign ',', Code.word "action",
      Code.sign '=', Code.word "Renamed"] .made)] "last" [] with
    type := .path (.plain ⟨none, [.angled ⟨"Option", .made⟩ false .made
      [.type (sampleField [] "" ["BarReducer", "State"]).type] false .made]⟩) }

def childField : Field := sampleField [] "child" ["FooReducer", "State"]

def genericSample (fields : List Field) : Struct :=
  { fieldsSample fields with
    generics := ⟨.made, [⟨false, [.ident "T" .made, .punct ':' false .made, .ident "Copy" .made],
      [.ident "T" .made], [.punct '=' false .made, .ident "u8" .made]⟩], false, .made,
      [.ident "where" .made, .ident "T" .made, .punct ':' false .made, .ident "Clone" .made]⟩ }

/-- A child, a number, a child that is marked, a shared reference to one, and an optional one. -/
def mixedSample : Struct :=
  genericSample [childField, sampleField [] "other" ["i32"],
    sampleField [sampleAttr ignoreName .none] "ignored" ["BarReducer", "State"],
    ⟨[], .inherited, some (⟨"shared", .made⟩, .made),
      .reference .made [] none (sampleField [] "" ["BarReducer", "State"]).type⟩, optionField]

theorem childField_gives : childField.Gives ⟨⟨"child", .made⟩, .ofIdent ⟨"FooReducer", .made⟩,
    false, .inherited, ⟨"Child", .made⟩⟩ where
  name := ⟨_, rfl⟩
  child := rfl
  optional := Field.optional_iff rfl
  options := ⟨_, rfl, rfl, _, rfl, rfl⟩

theorem optionField_gives : optionField.Gives ⟨⟨"last", .made⟩, .ofIdent ⟨"BarReducer", .made⟩,
    true, .restricted .made .made none (.ofIdent ⟨"crate", .made⟩), ⟨"Renamed", .made⟩⟩ where
  name := ⟨_, rfl⟩
  child := rfl
  optional := Field.optional_iff rfl
  options := ⟨_, rfl, rfl, rfl⟩

theorem derive_mixedSample : ∃ out out', ∃ v w : Delegate, ∃ first second,
    derive (.struct mixedSample) = .ok out ∧
    derive (.struct (genericSample [childField, optionField])) = .ok out' ∧
    Trees.bare out = Trees.bare out' ∧ mixedSample.Block [first, second] out ∧
    mixedSample.generics.headTokens = [.punct '<' false .made, .ident "T" .made,
      .punct ':' false .made, .ident "Copy" .made, .punct '>' false .made] ∧
    mixedSample.generics.nameTokens =
      [.punct '<' false .made, .ident "T" .made, .punct '>' false .made] ∧
    v.Renders (.ofIdent ⟨"TestReducer", .made⟩) defaultRuntime first ∧
    w.Renders (.ofIdent ⟨"TestReducer", .made⟩) defaultRuntime second ∧
    v = ⟨⟨"child", .made⟩, .ofIdent ⟨"FooReducer", .made⟩, false, .inherited,
      ⟨"Child", .made⟩⟩ ∧
    w = ⟨⟨"last", .made⟩, .ofIdent ⟨"BarReducer", .made⟩, true,
      .restricted .made .made none (.ofIdent ⟨"crate", .made⟩), ⟨"Renamed", .made⟩⟩ := by
  obtain ⟨hderive, hunique, hsame⟩ := derive_eligible_fields
  have hout : ∃ out, derive (.struct mixedSample) = .ok out := ⟨_, rfl⟩
  have hout' : ∃ out, derive (.struct (genericSample [childField, optionField])) = .ok out :=
    ⟨_, rfl⟩
  obtain ⟨out, hout⟩ := hout
  obtain ⟨out', hout'⟩ := hout'
  have hparent (fields : List Field) : Directive.ofAttrs (genericSample fields).attrs =
      .ok ⟨some (.ofIdent ⟨"TestReducer", .made⟩), none⟩ := rfl
  have heligible : mixedSample.body.fields.filter (fun f => f.Eligible) =
      [childField, optionField] := rfl
  have heligible' : [childField, optionField].filter (fun f => f.Eligible) =
      [childField, optionField] := rfl
  have hbare : Trees.bare out = Trees.bare out' := by
    refine hsame _ _ _ _ _ _ out out' hout hout' (.named rfl) (.named rfl) (hparent _) (hparent _)
      rfl (fun s t hs ht => ?_) ?_
    · cases hs
      cases ht
      exact ⟨rfl, rfl⟩
    · change List.Forall₂ Field.Agree (mixedSample.body.fields.filter _) _
      rw [heligible, heligible', List.forall₂_same]
      exact fun f _ d e hd he => congrArg Delegate.bare (hunique f d e hd he)
  obtain ⟨directive, fields, hdirective, hfields, hgenerates⟩ := hderive _ out hout
  cases hdirective
  obtain rfl := hasFields_iff.mp hfields
  have hne : out ≠ [] := by
    rintro rfl
    cases hout
  obtain ⟨s, parent, found, methods, hs, hof, hgives, hrenders, hblock⟩ := hgenerates.block hne
  cases hs
  cases hof
  change List.Forall₂ Field.Gives (mixedSample.body.fields.filter _) _ at hgives
  rw [heligible] at hgives
  obtain ⟨v, w, rfl, hv, hw⟩ := forall₂_pair hgives
  obtain ⟨first, second, rfl, hfirst, hsecond⟩ := forall₂_pair hrenders
  exact ⟨out, out', v, w, first, second, hout, hout', hbare, hblock, rfl, rfl, hfirst,
    hsecond, hunique _ _ _ hv childField_gives, hunique _ _ _ hw optionField_gives⟩

end Declaration

end Delegation
