import Delegation.Proofs.CamelCase
import Delegation.Proofs.Eligible

namespace Delegation

open Text

/-- The tokens `us` stand in a row among the given ones, at whatever depth. -/
inductive Trees.Within (us : List Tree) : List Tree → Prop where
  | row {ts : List Tree} : us <:+: ts → Within us ts
  | group {inner ts : List Tree} {d : Delim} {span : Span} : .group d inner span ∈ ts →
      Within us inner → Within us ts

theorem Trees.Within.mono {us ts vs : List Tree} (h : Within us ts) (hts : ts <:+: vs) :
    Within us vs := by
  cases h with
  | row h => exact .row (h.trans hts)
  | group hmem h => exact .group (hts.subset hmem) h

namespace Ident

def spelling (name : Ident) : List Char := unraw name.name.toList

/-- In the same order the names have the same letters and digits, case aside, and the same of these
begin words. -/
def SameLetters (m n : Ident) : Prop := letters m.spelling = letters n.spelling

instance : DecidableRel SameLetters := fun m n =>
  inferInstanceAs (Decidable (letters m.spelling = letters n.spelling))

def alphanums (name : Ident) : List Char := (name.spelling.filter Char.isAlphanum).map Char.toLower

theorem SameLetters.alphanums_eq {m n : Ident} (h : SameLetters m n) :
    m.alphanums = n.alphanums := by
  have hfst := congrArg (List.map Prod.fst) h
  rwa [letters, letters, map_fst_lettersFrom, map_fst_lettersFrom] at hfst

theorem SameLetters.eq_of_snake {m n : Ident} (h : SameLetters m n) (hm : IsSnake m.spelling)
    (hn : IsSnake n.spelling) : m.spelling = n.spelling :=
  hm.eq_of_letters hn h

end Ident

theorem variantName_eq_ok {name : String} {text : String} (h : variantName name = .ok text) :
    text = String.ofList (upperCamel (unraw name.toList)) := by
  rw [variantName, checkName] at h
  split_ifs at h
  exact (Except.ok.inj h).symm

namespace Delegate

open Code

def wrapper (d : Delegate) (parent : Ty) (library : Path) : List Tree :=
  asReducer library parent ++ below ["Action"] ++ colons .made ++ [d.variant.tree]

/-- The method maps the effect of the child, the actions that follow in it, by its wrapper. -/
theorem wraps (d : Delegate) (parent : Ty) (library : Path) :
    Trees.Within [sign '.', word "map", parens (d.wrapper parent library)]
      (d.method parent library) := by
  have hcall (state : List Tree) : [sign '.', word "map", parens (d.wrapper parent library)] <:+:
      d.reduceCall parent library state := by
    let call := d.childValue ++ sign ',' :: state ++ [sign ',', word "action"]
    refine ⟨asReducer library d.child ++ below ["reduce"] ++ [parens call], [], ?_⟩
    simp [call, reduceCall, wrapper]
  have hbody : [sign '.', word "map", parens (d.wrapper parent library)] <:+:
      d.body parent library := by
    rw [body]
    split
    · exact (hcall _).trans (List.suffix_append ..).isInfix
    · exact hcall _
  have hmem : braces (d.body parent library) ∈ d.method parent library := by simp [method]
  exact .group hmem (.row hbody)

theorem bare_wrapper_eq_iff (d e : Delegate) (parent : Ty) (library : Path) :
    Trees.bare (d.wrapper parent library) = Trees.bare (e.wrapper parent library) ↔
      d.variant.name = e.variant.name := by
  simp [wrapper, Ident.tree, Tree.bare]

end Delegate

namespace Field

def WithoutAction (f : Field) : Prop :=
  ∃ options, FieldOptions.ofAttrs f.attrs = .ok options ∧ options.action = none

theorem Gives.variant_name {f : Field} {d : Delegate} (h : f.Gives d) (hnone : f.WithoutAction) :
    d.variant.name = String.ofList (upperCamel d.name.spelling) := by
  obtain ⟨options, hoptions, haction⟩ := hnone
  obtain ⟨options', hoptions', -, hvariant⟩ := h.options
  obtain rfl := Except.ok.inj (hoptions.symm.trans hoptions')
  rw [haction] at hvariant
  obtain ⟨text, htext, hv⟩ := hvariant
  rw [hv]
  exact variantName_eq_ok htext

theorem Gives.variant_eq_iff {f g : Field} {d e : Delegate} (hf : f.Gives d) (hg : g.Gives e)
    (hfnone : f.WithoutAction) (hgnone : g.WithoutAction) :
    d.variant.name = e.variant.name ↔ d.name.SameLetters e.name := by
  rw [hf.variant_name hfnone, hg.variant_name hgnone, String.ofList_inj, upperCamel_eq_iff,
    Ident.SameLetters]

end Field

namespace Declaration

/-- The actions of a child are wrapped by its method, and two wrappers are the same exactly if the
variants are. Fields without an `action` option share a variant exactly if their names have the
same letters and digits, case aside, and the same of these begin words; so never if both are in
snake case, except for one name with and without `r#`. -/
theorem derive_variants {d : Declaration} {out : List Tree} (h : derive d = .ok out)
    (hne : out ≠ []) : ∃ s parent library found, d = .struct s ∧
      List.Forall₂ Field.Gives d.eligibleFields found ∧
      out = s.implBlock (found.flatMap (·.method parent library)) ∧
      (∀ v ∈ found, Trees.Within
        [Code.sign '.', Code.word "map", Code.parens (v.wrapper parent library)]
        (v.method parent library)) ∧
      (∀ v ∈ found, ∀ w ∈ found,
        Trees.bare (v.wrapper parent library) = Trees.bare (w.wrapper parent library) ↔
          v.variant.name = w.variant.name) ∧
      ∀ f v g w, (f, v) ∈ d.eligibleFields.zip found → (g, w) ∈ d.eligibleFields.zip found →
        f.WithoutAction → g.WithoutAction →
        (v.variant.name = w.variant.name ↔ v.name.SameLetters w.name) ∧
        (v.variant.name = w.variant.name → v.name.alphanums = w.name.alphanums) ∧
        (IsSnake v.name.spelling → IsSnake w.name.spelling → v.name.spelling ≠ w.name.spelling →
          v.variant.name ≠ w.variant.name) := by
  obtain ⟨s, parent, library, found, rfl, hgives, hout⟩ := derive_block h hne
  refine ⟨s, parent, library, found, rfl, hgives, hout, fun v _ => v.wraps parent library,
    fun v _ w _ => v.bare_wrapper_eq_iff w _ _, ?_⟩
  intro f v g w hfv hgw hf hg
  have hshared := (List.forall₂_zip hgives hfv).variant_eq_iff (List.forall₂_zip hgives hgw) hf hg
  refine ⟨hshared, fun hsame => ?_, fun hv hw hdiffer hsame => ?_⟩
  · exact (hshared.mp hsame).alphanums_eq
  · exact hdiffer ((hshared.mp hsame).eq_of_snake hv hw)

def childNamed (name : String) : Field := sampleField [] name ["FooReducer", "State"]

theorem childNamed_withoutAction (name : String) : (childNamed name).WithoutAction := ⟨_, rfl, rfl⟩

theorem childNamed_name {name : String} {d : Delegate} (h : (childNamed name).Gives d) :
    d.name = ⟨name, .made⟩ := by
  obtain ⟨colon, hname⟩ := h.name
  exact (congrArg Prod.fst (Option.some.inj hname)).symm

theorem isSnakeWord_child : IsSnakeWord ['c', 'h', 'i', 'l', 'd'] :=
  ⟨'c', ['h', 'i', 'l', 'd'], rfl, rfl, by simp⟩

theorem isSnakeWord_list : IsSnakeWord ['l', 'i', 's', 't'] :=
  ⟨'l', ['i', 's', 't'], rfl, rfl, by simp⟩

def snakeSample : Struct := fieldsSample [childNamed "child", childNamed "child_list"]

theorem derive_variants_sample : ∃ (s : Struct) (parent : Ty) (library : Path) (v w : Delegate),
    derive (.struct snakeSample) =
      .ok (s.implBlock (v.method parent library ++ w.method parent library)) ∧
    (v.name.name = "child" ∧ w.name.name = "child_list") ∧ v.variant.name ≠ w.variant.name ∧
    Trees.bare (v.wrapper parent library) ≠ Trees.bare (w.wrapper parent library) := by
  have hout : ∃ first rest, derive (.struct snakeSample) = .ok (first :: rest) := ⟨_, _, rfl⟩
  obtain ⟨first, rest, hout⟩ := hout
  obtain ⟨s, parent, library, found, -, hgives, hrendered, -, hwrapper, hvariants⟩ :=
    derive_variants hout (List.cons_ne_nil first rest)
  have hfields : (struct snakeSample).eligibleFields =
      [childNamed "child", childNamed "child_list"] := rfl
  rw [hfields] at hgives hvariants
  obtain ⟨v, w, rfl, hv, hw⟩ := forall₂_pair hgives
  have hvname := childNamed_name hv
  have hwname := childNamed_name hw
  have hchild : IsSnake v.name.spelling := by
    rw [hvname]
    exact ⟨[_], by simp, List.forall_mem_singleton.mpr isSnakeWord_child, rfl⟩
  have hlist : IsSnake w.name.spelling := by
    rw [hwname]
    exact ⟨[_, _], by simp, List.forall_mem_cons.mpr ⟨isSnakeWord_child,
      List.forall_mem_singleton.mpr isSnakeWord_list⟩, rfl⟩
  obtain ⟨-, -, hsnake⟩ := hvariants (childNamed "child") v (childNamed "child_list") w
    (by simp) (by simp) (childNamed_withoutAction _) (childNamed_withoutAction _)
  have hdiffer := hsnake hchild hlist (by rw [hvname, hwname]; decide)
  refine ⟨s, parent, library, v, w, ?_, ⟨by rw [hvname], by rw [hwname]⟩, hdiffer, ?_⟩
  · rw [hout, hrendered]
    simp
  · rwa [ne_eq, hwrapper v (by simp) w (by simp)]

/-- A trailing underscore makes another name but no other variant. -/
theorem not_derive_variants : ¬ ∀ (s : Struct) parent library found,
    derive (.struct s) = .ok (s.rendering parent library found) →
    List.Forall₂ Field.Gives (struct s).eligibleFields found → ∀ f v g w,
      (f, v) ∈ (struct s).eligibleFields.zip found → (g, w) ∈ (struct s).eligibleFields.zip found →
      f.WithoutAction → g.WithoutAction → v.name.name ≠ w.name.name →
      v.variant.name ≠ w.variant.name := by
  intro h
  have hout : ∃ first rest, derive (.struct (fieldsSample [childNamed "child",
      childNamed "child_"])) = .ok (first :: rest) := ⟨_, _, rfl⟩
  obtain ⟨first, rest, hout⟩ := hout
  obtain ⟨directive, -, ⟨-, hnil⟩ | ⟨s, parent, found, hs, -, hgives, hrendered⟩⟩ := derive_ok hout
  · cases hnil
  · cases hs
    rw [hrendered] at hout
    have hvariants := h _ _ _ _ hout hgives
    have hfields :
        (struct (fieldsSample [childNamed "child", childNamed "child_"])).eligibleFields =
          [childNamed "child", childNamed "child_"] := rfl
    rw [hfields] at hgives hvariants
    obtain ⟨v, w, rfl, hv, hw⟩ := forall₂_pair hgives
    have hnames : v.name.name ≠ w.name.name := by
      rw [childNamed_name hv, childNamed_name hw]
      decide
    apply hvariants (childNamed "child") v (childNamed "child_") w (by simp) (by simp)
      (childNamed_withoutAction _) (childNamed_withoutAction _) hnames
    rw [hv.variant_eq_iff hw (childNamed_withoutAction _) (childNamed_withoutAction _),
      childNamed_name hv, childNamed_name hw]
    decide

end Declaration

end Delegation
