import Delegation.Proofs.Variants

namespace Delegation

/-- A module of a program: its crate, and the names that lead to it from the root of the crate. -/
structure ModulePath where
  crate : String
  names : List String

namespace ModulePath

def subtree (m : ModulePath) : Set ModulePath := {n | n.crate = m.crate ∧ m.names <+: n.names}

instance (m n : ModulePath) : Decidable (n ∈ m.subtree) :=
  inferInstanceAs (Decidable (n.crate = m.crate ∧ m.names <+: n.names))

def climb? : ModulePath → List String → Option ModulePath
  | m, [] => some m
  | m, name :: names =>
    if name = "super" then
      if m.names = [] then none else climb? ⟨m.crate, m.names.dropLast⟩ names
    else some ⟨m.crate, m.names ++ name :: names⟩

/-- The module that names lead to from a module. The first edition of the language looks up other
names at the root of the crate; later ones refuse them. -/
def follow? (here : ModulePath) : List String → Option ModulePath
  | "crate" :: names => some ⟨here.crate, names⟩
  | "self" :: names => here.climb? names
  | "super" :: names => here.climb? ("super" :: names)
  | names => some ⟨here.crate, names⟩

@[simp] theorem mem_subtree_self (m : ModulePath) : m ∈ m.subtree := ⟨rfl, List.prefix_rfl⟩

theorem subtree_subset_iff (a b : ModulePath) : a.subtree ⊆ b.subtree ↔ a ∈ b.subtree := by
  constructor
  · exact fun h => h a.mem_subtree_self
  · rintro ⟨hcrate, hnames⟩ m ⟨hm, hbelow⟩
    exact ⟨hm.trans hcrate, hnames.trans hbelow⟩

theorem subtree_total {here a b : ModulePath} (ha : here ∈ a.subtree) (hb : here ∈ b.subtree) :
    a ∈ b.subtree ∨ b ∈ a.subtree := by
  obtain ⟨hacrate, hanames⟩ := ha
  obtain ⟨hbcrate, hbnames⟩ := hb
  obtain h | h := List.prefix_or_prefix_of_prefix hanames hbnames
  · exact .inr ⟨hbcrate.symm.trans hacrate, h⟩
  · exact .inl ⟨hacrate.symm.trans hbcrate, h⟩

theorem not_univ_subset_subtree (m : ModulePath) : ¬ Set.univ ⊆ m.subtree := by
  intro h
  have hfirst : "a" = m.crate := (h (Set.mem_univ (⟨"a", []⟩ : ModulePath))).1
  have hsecond : "b" = m.crate := (h (Set.mem_univ (⟨"b", []⟩ : ModulePath))).1
  exact absurd (hfirst.trans hsecond.symm) (by decide)

end ModulePath

def Path.module? (here : ModulePath) (p : Path) : Option ModulePath :=
  let names := p.segments.map fun s => String.ofList s.name.spelling
  if p.leading.isSome then some ⟨here.crate, names⟩ else here.follow? names

theorem Path.module?_self (here : ModulePath) {p : Path} (h : p.isName "self" = true) :
    p.module? here = some here := by
  unfold Path.isName at h
  split at h
  next name =>
    have hname : name.name = "self" := beq_iff_eq.mp h
    have hspelling : String.ofList name.spelling = "self" := by
      rw [Ident.spelling, hname]
      rfl
    simp [Path.module?, Segment.name, hspelling, ModulePath.follow?, ModulePath.climb?]
  next => cases h

inductive Scope where
  | everywhere
  | inside (top : ModulePath)

namespace Scope

def modules : Scope → Set ModulePath
  | .everywhere => Set.univ
  | .inside top => top.subtree

/-- The first scope lies in the second, as their tops tell. -/
def Within : Scope → Scope → Prop
  | _, .everywhere => True
  | .everywhere, .inside _ => False
  | .inside a, .inside b => a ∈ b.subtree

theorem modules_subset_iff (s t : Scope) : s.modules ⊆ t.modules ↔ s.Within t := by
  match s, t with
  | _, .everywhere => exact iff_of_true (Set.subset_univ _) trivial
  | .everywhere, .inside b => exact iff_of_false b.not_univ_subset_subtree id
  | .inside a, .inside b => exact a.subtree_subset_iff b

end Scope

namespace Visibility

/-- The scope of what is declared with a visibility in the module `here`. A restriction to a module
that is not around it is refused. -/
def scope? (here : ModulePath) : Visibility → Option Scope
  | .inherited => some (.inside here)
  | .everywhere _ => some .everywhere
  | .restricted _ _ _ path =>
    ((path.module? here).filter fun top => here ∈ top.subtree).map .inside

def reach (here : ModulePath) (vis : Visibility) : Set ModulePath :=
  match vis.scope? here with
  | some s => s.modules
  | none => ∅

variable {here : ModulePath} {v w : Visibility}

theorem reach_of_scope {s : Scope} (h : v.scope? here = some s) : v.reach here = s.modules := by
  rw [reach, h]

theorem mem_subtree_of_scope {top : ModulePath} (h : v.scope? here = some (.inside top)) :
    here ∈ top.subtree := by
  cases v with
  | inherited =>
    cases h
    exact here.mem_subtree_self
  | everywhere => cases h
  | restricted span parens within path =>
    obtain ⟨top', hfilter, hsame⟩ := Option.map_eq_some_iff.mp h
    cases hsame
    simpa using (Option.filter_eq_some_iff.mp hfilter).2

theorem scope_total {s t : Scope} (hv : v.scope? here = some s) (hw : w.scope? here = some t) :
    s.Within t ∨ t.Within s := by
  match s, t with
  | _, .everywhere => exact .inl trivial
  | .everywhere, _ => exact .inr trivial
  | .inside a, .inside b =>
    exact ModulePath.subtree_total (mem_subtree_of_scope hv) (mem_subtree_of_scope hw)

theorem scope?_normal (here : ModulePath) (v : Visibility) :
    v.normal.scope? here = v.scope? here := by
  unfold normal
  split
  next span parens path =>
    split
    next hself => simp [scope?, Path.module?_self here hself]
    next => rfl
  next => rfl

theorem reach_normal (here : ModulePath) (v : Visibility) : v.normal.reach here = v.reach here := by
  rw [reach, reach, scope?_normal]

end Visibility

theorem Delegate.method_eq (d : Delegate) (parent : Ty) (library : Path) :
    ∃ doc rest, d.Documents doc ∧ d.method parent library =
      doc ++ d.vis.tokens ++ Code.word "fn" :: d.name.tree :: rest := by
  simp only [method, List.append_assoc, List.cons_append]
  exact ⟨_, _, d.documents, rfl⟩

namespace Declaration

/-- A method can be named from where its `set` says, or without one from where its field can be.
With a `set` it is no more visible than its field exactly if the scope given lies in that of the
field; otherwise it is more visible. -/
theorem derive_reach {d : Declaration} {out : List Tree} (h : derive d = .ok out) (hne : out ≠ []) :
    ∃ s parent library found, d = .struct s ∧
      List.Forall₂ Field.Gives d.eligibleFields found ∧
      out = s.implBlock (found.flatMap (·.method parent library)) ∧
      ∀ f v, (f, v) ∈ d.eligibleFields.zip found →
        (∃ doc rest, v.Documents doc ∧ v.method parent library =
          doc ++ v.vis.tokens ++ Code.word "fn" :: v.name.tree :: rest) ∧
        ∃ options, FieldOptions.ofAttrs f.attrs = .ok options ∧ ∀ here : ModulePath,
          (options.set = none → v.vis.reach here = f.vis.reach here) ∧
          ∀ w, options.set = some w → v.vis.reach here = w.reach here ∧
            ∀ own given, f.vis.scope? here = some own → w.scope? here = some given →
              (v.vis.reach here ⊆ f.vis.reach here ↔ given.Within own) ∧
              (¬ given.Within own → f.vis.reach here ⊂ v.vis.reach here) := by
  obtain ⟨s, parent, library, found, rfl, hgives, hout⟩ := derive_block h hne
  refine ⟨s, parent, library, found, rfl, hgives, hout, fun f v hfv => ?_⟩
  obtain ⟨options, hoptions, hvis, -⟩ := (List.forall₂_zip hgives hfv).options
  refine ⟨v.method_eq parent _, options, hoptions, fun here => ⟨fun hnone => ?_, ?_⟩⟩
  · rw [hvis, hnone, Option.getD_none, Visibility.reach_normal]
  · intro w hw
    have hreach : v.vis.reach here = w.reach here := by
      rw [hvis, hw, Option.getD_some, Visibility.reach_normal]
    refine ⟨hreach, fun own given hown hgiven => ?_⟩
    have hsubset : v.vis.reach here ⊆ f.vis.reach here ↔ given.Within own := by
      rw [hreach, Visibility.reach_of_scope hown, Visibility.reach_of_scope hgiven,
        Scope.modules_subset_iff]
    refine ⟨hsubset, fun hwide => ⟨?_, fun hback => hwide (hsubset.mp hback)⟩⟩
    rw [hreach, Visibility.reach_of_scope hown, Visibility.reach_of_scope hgiven]
    -- both scopes are around `here`, so one lies in the other
    have hwithin := (Visibility.scope_total hown hgiven).resolve_right hwide
    exact (Scope.modules_subset_iff own given).mpr hwithin

def settableChild (own : Visibility) (set : List Tree) : Field :=
  { childNamed "child" with
    vis := own
    attrs := [sampleAttr directiveName
      (.list .paren (Code.word "set" :: Code.sign '=' :: set) .made)] }

def crateChild : Field :=
  settableChild (.everywhere .made) [Code.word "pub", Code.parens [Code.word "crate"]]

theorem derive_reach_sample : ∃ (s : Struct) (parent : Ty) (library : Path) (v : Delegate),
    derive (.struct (fieldsSample [crateChild])) = .ok (s.implBlock (v.method parent library)) ∧
    v.vis.reach ⟨"app", ["feature"]⟩ = ModulePath.subtree ⟨"app", []⟩ ∧
    v.vis.reach ⟨"app", ["feature"]⟩ ⊆ crateChild.vis.reach ⟨"app", ["feature"]⟩ := by
  have hout : ∃ first rest, derive (.struct (fieldsSample [crateChild])) = .ok (first :: rest) :=
    ⟨_, _, rfl⟩
  obtain ⟨first, rest, hout⟩ := hout
  obtain ⟨s, parent, library, found, -, hgives, hblock, hreach⟩ :=
    derive_reach hout (List.cons_ne_nil first rest)
  have hfields : (struct (fieldsSample [crateChild])).eligibleFields = [crateChild] := rfl
  rw [hfields] at hgives hreach
  obtain ⟨v, rfl, -⟩ := forall₂_single hgives
  obtain ⟨-, options, hoptions, hscopes⟩ := hreach crateChild v (by simp)
  have hset : FieldOptions.ofAttrs crateChild.attrs =
      .ok ⟨none, some (.restricted .made .made none (.ofIdent ⟨"crate", .made⟩)), none⟩ := rfl
  obtain rfl := Except.ok.inj (hset.symm.trans hoptions)
  obtain ⟨hsame, hwithin⟩ := (hscopes ⟨"app", ["feature"]⟩).2 _ rfl
  refine ⟨s, parent, library, v, ?_, hsame.trans rfl, ?_⟩
  · rw [hout, hblock]
    simp
  · exact (hwithin .everywhere (.inside ⟨"app", []⟩) rfl rfl).1.mpr trivial

def openChild : Field := settableChild .inherited [Code.word "pub"]

/-- A field without a visibility of its own gets a public method if `set` says so. -/
theorem not_derive_reach : ¬ ∀ (s : Struct) parent library found,
    derive (.struct s) = .ok (s.rendering parent library found) →
    List.Forall₂ Field.Gives (struct s).eligibleFields found → ∀ f v,
      (f, v) ∈ (struct s).eligibleFields.zip found → ∀ here : ModulePath,
        v.vis.reach here ⊆ f.vis.reach here := by
  intro h
  have hout : ∃ first rest, derive (.struct (fieldsSample [openChild])) = .ok (first :: rest) :=
    ⟨_, _, rfl⟩
  obtain ⟨first, rest, hout⟩ := hout
  obtain ⟨directive, -, ⟨-, hnil⟩ | ⟨s, parent, found, hs, -, hgives, hrendered⟩⟩ := derive_ok hout
  · cases hnil
  · cases hs
    rw [hrendered] at hout
    have hreach := h _ _ _ _ hout hgives
    have hfields : (struct (fieldsSample [openChild])).eligibleFields = [openChild] := rfl
    rw [hfields] at hgives hreach
    obtain ⟨v, rfl, hv⟩ := forall₂_single hgives
    obtain ⟨options, hoptions, hvis, -⟩ := hv.options
    have hset : FieldOptions.ofAttrs openChild.attrs =
      .ok ⟨none, some (.everywhere .made), none⟩ := rfl
    obtain rfl := Except.ok.inj (hset.symm.trans hoptions)
    have hsubset := hreach openChild v (by simp) ⟨"app", ["feature"]⟩
    rw [hvis, Option.getD_some, Visibility.reach_normal] at hsubset
    exact ModulePath.not_univ_subset_subtree _ hsubset

end Declaration

end Delegation
