import Delegation.Proofs.Constructor
import Delegation.Proofs.Eligible

namespace Delegation

open Fallible

namespace Ty

/-- `&T`, in any parentheses and invisible groups. -/
def RefersShared (t : Ty) : Prop := ∃ u : Ty, u.IsSharedReference ∧ Wraps u t

theorem refersShared_iff (t : Ty) : t.RefersShared ↔ t.inner.IsSharedReference := by
  constructor
  · rintro ⟨_, ⟨amp, lifetime, elem, rfl⟩, hwraps⟩
    exact ⟨amp, lifetime, elem, (wraps_iff rfl t).mp hwraps⟩
  · intro h
    exact ⟨t.inner, h, t.wraps_inner⟩

theorem RefersShared.not_wraps_path {t : Ty} (h : t.RefersShared) (p : QPath) :
    ¬ Wraps (.path p) t := by
  obtain ⟨amp, lifetime, elem, hinner⟩ := t.refersShared_iff.mp h
  rw [wraps_path_iff, hinner]
  intro hpath
  cases hpath

theorem RefersShared.not_spellsState {t : Ty} (h : t.RefersShared) (owner : Ty) :
    ¬ t.SpellsState owner := by
  rintro ⟨p, hwraps, -⟩
  exact h.not_wraps_path p hwraps

theorem RefersShared.not_spellsOption {t : Ty} (h : t.RefersShared) (owner : Ty) :
    ¬ t.SpellsOption owner := by
  rintro ⟨leading, before, name, turbofish, opening, elem, trailing, closing, hwraps, -⟩
  exact h.not_wraps_path _ hwraps

end Ty

section Skipped

variable {f : Field} {decl : FieldDecl} (hread : FieldDecl.ofField f = .ok decl)

include hread

theorem FieldDecl.delegate?_eq_none_iff : decl.delegate? = .ok none ↔ ¬ f.Eligible := by
  have hnone : decl.eligible? = none ↔ ¬ f.Eligible := by
    rw [eligible_iff hread, eligible?, ite_eq_left_iff]
    cases decl.isIgnored <;> cases decl.binding <;> simp
  rw [← hnone, delegate?]
  cases decl.eligible? with
  | none => simp
  | some child => simp [bind_eq_ok_iff, pure_eq_ok]

theorem Field.eligible_of_refersShared (href : f.type.RefersShared) :
    f.Eligible ↔ (∀ a ∈ f.attrs, a.fullName ≠ ignoreName) ∧ ¬ f.type.IsSharedReference ∧
      ∃ e owner, decl.init = some e ∧ e.ConstructsState owner := by
  have hchild : f.child? = decl.child? := by rw [child?, hread]
  have htype : decl.type = f.type := by
    obtain ⟨name, colon, options, -, -, rfl⟩ := FieldDecl.ofField_eq_ok.mp hread
    rfl
  have hstate (owner : Ty) : ¬ decl.type.SpellsState owner := htype ▸ href.not_spellsState owner
  have hoption (owner : Ty) : ¬ decl.type.SpellsOption owner := htype ▸ href.not_spellsOption owner
  rw [Eligible, hchild, FieldDecl.child?_eq_initializer hstate hoption, Option.isSome_map,
    Option.isSome_iff_exists]
  simp only [Option.bind_eq_some_iff, Expr.stateOwner?_eq_some_iff]
  rw [exists_comm]

theorem Declaration.readDelegates_skip (hnone : decl.delegate? = .ok none)
    (before after : List Field) :
    readDelegates (before ++ f :: after) = readDelegates (before ++ after) := by
  induction before with
  | nil =>
    rw [List.nil_append, List.nil_append, readDelegates, hread]
    simp only [hnone, ok_bind]
    cases readDelegates after <;> rfl
  | cons g before ih => rw [List.cons_append, List.cons_append, readDelegates, readDelegates, ih]

variable {s : Struct} {span : Span} {before after : List Field} {trailing : Bool}

theorem Struct.derive_skip (hnone : decl.delegate? = .ok none) (hclean : f.failures false = [])
    (hbody : s.body = .named span (before ++ f :: after) trailing) :
    derive (.struct s) =
      derive (.struct { s with body := .named span (before ++ after) trailing }) := by
  let t := { s with body := .named span (before ++ after) trailing }
  have hfailures : (Declaration.struct s).fieldFailures = (Declaration.struct t).fieldFailures := by
    simp [t, Declaration.fieldFailures, hbody, Body.fields, Body.isTuple, hclean]
  have hdelegates : (Declaration.struct s).delegates = (Declaration.struct t).delegates := by
    simp only [t, Declaration.delegates, Declaration.namedFields, hbody]
    rw [Declaration.readDelegates_skip hread hnone]
  cases hd : Directive.ofAttrs s.attrs with
  | error e =>
    have hsame : Directive.ofAttrs t.attrs = .error e := hd
    rw [Declaration.derive_of_unread (d := .struct s) hd,
      Declaration.derive_of_unread (d := .struct t) hsame]
  | ok directive =>
    have hsame : Directive.ofAttrs t.attrs = .ok directive := hd
    rw [s.derive_eq hd, t.derive_eq hsame, hfailures, hdelegates]
    rfl

omit hread in
theorem Struct.clean_of_derive {out : List Tree} (hout : derive (.struct s) = .ok out)
    (hbody : s.body = .named span (before ++ f :: after) trailing) : f.failures false = [] := by
  obtain ⟨directive, hd, -⟩ := Declaration.derive_ok hout
  obtain ⟨_, hvalid, -⟩ := bind_eq_ok_iff.mp ((s.derive_eq hd).symm.trans hout)
  have hnone : (Declaration.struct s).fieldFailures = [] :=
    (List.append_eq_nil_iff.mp (stopAt_eq_ok_iff.mp hvalid)).2
  rw [Declaration.fieldFailures, hbody, List.flatMap_eq_nil_iff] at hnone
  exact hnone f (by simp [Body.fields])

/-- A field of a shared reference has a child only if parentheses or groups hide the reference, the
field is not marked, and its initializer constructs a state. Every other one is passed over, and
nothing is generated for it: the derive does the same without it. -/
theorem Field.shared_reference_skipped (href : f.type.RefersShared) :
    (decl.delegate? = .ok none ↔
      f.type.IsSharedReference ∨ (∃ a ∈ f.attrs, a.fullName = ignoreName) ∨
        ∀ e owner, decl.init = some e → ¬ e.ConstructsState owner) ∧
    (decl.delegate? = .ok none → ∀ s span before after trailing,
      s.body = .named span (before ++ f :: after) trailing →
        let t : Struct := { s with body := .named span (before ++ after) trailing }
        (f.failures false = [] → derive (.struct s) = derive (.struct t)) ∧
        ∀ out, derive (.struct s) = .ok out → derive (.struct t) = .ok out) := by
  constructor
  · rw [FieldDecl.delegate?_eq_none_iff hread, eligible_of_refersShared hread href]
    have hmarked : (¬ ∀ a ∈ f.attrs, a.fullName ≠ ignoreName) ↔
        ∃ a ∈ f.attrs, a.fullName = ignoreName := by simp
    have hsilent : (¬ ∃ e owner, decl.init = some e ∧ e.ConstructsState owner) ↔
        ∀ e owner, decl.init = some e → ¬ e.ConstructsState owner := by
      simp only [not_exists, not_and]
    rw [not_and_or, not_and_or, not_not, hmarked, hsilent, or_left_comm]
  · intro hnone s span before after trailing hbody
    refine ⟨fun hclean => Struct.derive_skip hread hnone hclean hbody, fun out hout => ?_⟩
    rw [← Struct.derive_skip hread hnone (Struct.clean_of_derive hout hbody) hbody]
    exact hout

end Skipped

namespace Field

def linkField (type : Ty) : Field :=
  ⟨[Declaration.sampleAttr directiveName (.list .paren [Code.word "init", Code.sign '=',
      Code.word "AReducer", .punct ':' true .made, Code.sign ':', Code.word "State",
      Code.parens []] .made)],
    .inherited, some (⟨"link", .made⟩, .made), type⟩

def linkType : Ty := .reference .made [] none (.ofIdent ⟨"T", .made⟩)

theorem shared_reference_sample : linkType.RefersShared ∧
    ∃ decl, FieldDecl.ofField (linkField linkType) = .ok decl ∧ decl.delegate? = .ok none ∧
      derive (.struct (Declaration.fieldsSample [linkField linkType])) =
        derive (.struct (Declaration.fieldsSample [])) := by
  have href : linkType.RefersShared := ⟨_, ⟨_, _, _, rfl⟩, .bare⟩
  have hread : ∃ decl, FieldDecl.ofField (linkField linkType) = .ok decl := ⟨_, rfl⟩
  obtain ⟨decl, hdecl⟩ := hread
  obtain ⟨hskipped, hderive⟩ := shared_reference_skipped hdecl href
  have hnone := hskipped.mpr (.inl ⟨_, _, _, rfl⟩)
  exact ⟨href, decl, hdecl, hnone,
    (hderive hnone (Declaration.fieldsSample [linkField linkType]) .made [] [] true rfl).1 rfl⟩

/-- A reference in parentheses is not seen to be one: the field is delegated. -/
theorem not_shared_reference_skipped : ¬ ∀ (f : Field) (decl : FieldDecl),
    FieldDecl.ofField f = .ok decl → f.type.RefersShared → decl.delegate? = .ok none := by
  intro h
  have hread : ∃ decl, FieldDecl.ofField (linkField (.paren .made linkType)) = .ok decl ∧
      ∃ d, decl.delegate? = .ok (some d) := ⟨_, rfl, _, rfl⟩
  obtain ⟨decl, hdecl, d, hd⟩ := hread
  have hnone := h _ decl hdecl ⟨_, ⟨_, _, _, rfl⟩, .paren _ .bare⟩
  cases hd.symm.trans hnone

end Field

end Delegation
