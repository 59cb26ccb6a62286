import Delegation.Proofs.Eligible

namespace Delegation

open Fallible

/-- The failures are those that `wrong` has at its places, each once, in the order of the places. -/
def InOrder {P : Type} (before : P → P → Prop) (wrong : P → Failure → Prop)
    (failures : List Failure) : Prop :=
  ∃ found : List (P × Failure), found.Pairwise (fun x y => before x.1 y.1) ∧
    (∀ p e, (p, e) ∈ found ↔ wrong p e) ∧ failures = found.map Prod.snd

/-- First by the position, then by what is said about the places at one position. -/
def ByPosition {P : Type} (before : P → P → Prop) (p q : Nat × P) : Prop :=
  p.1 < q.1 ∨ p.1 = q.1 ∧ before p.2 q.2

namespace InOrder

variable {P Q α : Type} {before : P → P → Prop}
  {wrong wrong' : P → Failure → Prop} {es es' : List Failure}

theorem congr (h : InOrder before wrong es) (hw : ∀ p e, wrong p e ↔ wrong' p e) :
    InOrder before wrong' es := by
  obtain ⟨found, hpairwise, hmem, rfl⟩ := h
  exact ⟨found, hpairwise, fun p e => (hmem p e).trans (hw p e), rfl⟩

theorem nil (h : ∀ p e, ¬ wrong p e) : InOrder before wrong [] :=
  ⟨[], .nil, by simpa using h, rfl⟩

theorem append (h : InOrder before wrong es) (h' : InOrder before wrong' es')
    (hbefore : ∀ p e q e', wrong p e → wrong' q e' → before p q) :
    InOrder before (fun p e => wrong p e ∨ wrong' p e) (es ++ es') := by
  obtain ⟨found, hpairwise, hmem, rfl⟩ := h
  obtain ⟨found', hpairwise', hmem', rfl⟩ := h'
  refine ⟨found ++ found', List.pairwise_append.mpr ⟨hpairwise, hpairwise', ?_⟩, ?_, by simp⟩
  · intro x hx y hy
    exact hbefore _ _ _ _ ((hmem ..).mp hx) ((hmem' ..).mp hy)
  · intro p e
    rw [List.mem_append, hmem, hmem']

theorem map (h : InOrder before wrong es) (before' : Q → Q → Prop) (f : P → Q)
    (hf : ∀ p q, before p q → before' (f p) (f q)) :
    InOrder before' (fun q e => ∃ p, f p = q ∧ wrong p e) es := by
  obtain ⟨found, hpairwise, hmem, rfl⟩ := h
  refine ⟨found.map fun x => (f x.1, x.2), ?_, ?_, by simp⟩
  · rw [List.pairwise_map]
    exact hpairwise.imp fun h => hf _ _ h
  · intro q e
    simp only [List.mem_map, Prod.mk.injEq, Prod.exists, hmem]
    constructor
    · rintro ⟨p, e', hw, rfl, rfl⟩
      exact ⟨p, rfl, hw⟩
    · rintro ⟨p, rfl, hw⟩
      exact ⟨p, e, hw, rfl, rfl⟩

theorem toList (o : Option Failure) :
    InOrder (fun _ _ : Unit => False) (fun _ e => o = some e) o.toList := by
  cases o with
  | none => exact nil (by simp)
  | some e => exact ⟨[((), e)], List.pairwise_singleton .., by simp [eq_comm], rfl⟩

theorem flatMap {wrong : α → P → Failure → Prop} (g : α → List Failure)
    (h : ∀ x, InOrder before (wrong x) (g x)) (xs : List α) :
    InOrder (ByPosition before) (fun p e => ∃ x, xs[p.1]? = some x ∧ wrong x p.2 e)
      (xs.flatMap g) := by
  induction xs with
  | nil => exact nil (by simp)
  | cons x xs ih =>
    -- the failures of `x` stand at position 0, those of the rest move on by one
    have hfirst : InOrder (ByPosition before) _ (g x) :=
      (h x).map _ (fun p => (0, p)) fun p q hpq => .inr ⟨rfl, hpq⟩
    have hrest : InOrder (ByPosition before) _ (xs.flatMap g) :=
      ih.map _ (fun p => (p.1 + 1, p.2)) fun p q hpq => by
        simpa [ByPosition] using hpq
    rw [List.flatMap_cons]
    refine (hfirst.append hrest ?_).congr ?_
    · rintro _ e _ e' ⟨p, rfl, -⟩ ⟨q, rfl, -⟩
      exact .inl (Nat.succ_pos _)
    · rintro ⟨i, p⟩ e
      cases i with
      | zero => simp
      | succ i => simp

theorem filterMap (g : α → Option Failure) (xs : List α) :
    InOrder (· < ·) (fun (i : Nat) e => ∃ x, xs[i]? = some x ∧ g x = some e)
      (xs.filterMap g) := by
  have hflat := (flatMap (fun x => (g x).toList) (fun x => toList (g x)) xs).map (· < ·)
    Prod.fst fun p q hpq => by simpa [ByPosition] using hpq
  rw [List.filterMap_eq_flatMap_toList]
  exact hflat.congr (by simp)

theorem iff_eq (hasymm : ∀ p q, before p q → ¬ before q p) (h : InOrder before wrong es)
    (es' : List Failure) : InOrder before wrong es' ↔ es' = es := by
  constructor
  · intro h'
    obtain ⟨found, hpairwise, hmem, rfl⟩ := h
    obtain ⟨found', hpairwise', hmem', rfl⟩ := h'
    -- the same pairs and each once, so permutations of each other, and both sorted
    have hnodup {found : List (P × Failure)}
        (h : found.Pairwise fun x y => before x.1 y.1) : found.Nodup :=
      h.imp fun {x y} hxy heq => by
        subst heq
        exact hasymm _ _ hxy hxy
    have hperm : found'.Perm found := by
      rw [List.perm_ext_iff_of_nodup (hnodup hpairwise') (hnodup hpairwise)]
      rintro ⟨p, e⟩
      rw [hmem, hmem']
    rw [hperm.eq_of_pairwise (fun x y _ _ hxy hyx => absurd hyx (hasymm _ _ hxy)) hpairwise'
      hpairwise]
  · rintro rfl
    exact h

theorem existsUnique (hasymm : ∀ p q, before p q → ¬ before q p) (h : InOrder before wrong es) :
    ∃! es', InOrder before wrong es' :=
  ⟨es, h, fun es' h' => (h.iff_eq hasymm es').mp h'⟩

end InOrder

section Attributes

variable {σ : Type} {read : σ → Attr → Except Failure σ} {start : σ} {attrs : List Attr}
  {e : Failure}

/-- The attributes can be read one after the other up to one that fails. -/
def FailsFirst (read : σ → Attr → Except Failure σ) (start : σ) (attrs : List Attr)
    (e : Failure) : Prop :=
  ∃ before a after state, attrs = before ++ a :: after ∧
    before.foldlM read start = .ok state ∧ read state a = .error e

theorem failsFirst_cons_iff {a : Attr} : FailsFirst read start (a :: attrs) e ↔
    read start a = .error e ∨ ∃ next, read start a = .ok next ∧ FailsFirst read next attrs e := by
  constructor
  · rintro ⟨before, b, after, state, hattrs, hbefore, hb⟩
    cases before with
    | nil =>
      cases hattrs
      cases hbefore
      exact .inl hb
    | cons c before =>
      cases hattrs
      rw [List.foldlM_cons] at hbefore
      obtain ⟨next, hread, hbefore⟩ := bind_eq_ok_iff.mp hbefore
      exact .inr ⟨next, hread, before, b, after, state, rfl, hbefore, hb⟩
  · rintro (ha | ⟨next, hnext, before, b, after, state, rfl, hbefore, hb⟩)
    · exact ⟨[], a, attrs, start, rfl, rfl, ha⟩
    · refine ⟨a :: before, b, after, state, rfl, ?_, hb⟩
      rw [List.foldlM_cons, hnext]
      exact hbefore

theorem foldlM_eq_error_iff :
    attrs.foldlM read start = .error e ↔ FailsFirst read start attrs e := by
  induction attrs generalizing start with
  | nil => simp [FailsFirst, pure_eq_ok]
  | cons a attrs ih =>
    rw [failsFirst_cons_iff, List.foldlM_cons, bind_eq_error_iff]
    simp only [ih]

end Attributes

def Ty.NamesPath (t : Ty) : Prop := ∃ path, Ty.Wraps (.path (.plain path)) t

theorem Ty.isPlainPath_iff (t : Ty) : t.isPlainPath = true ↔ t.NamesPath := by
  simp only [NamesPath, wraps_path_iff, isPlainPath]
  split
  next path h => simp [h]
  next h => simpa using h

/-- What is wrong with a field: a marker with arguments or a value, or, in a tuple struct, an
attribute that needs a named field. Both are told by the place among the attributes. -/
inductive FieldSpot where
  | marker (attr : Nat)
  | helper (attr : Nat)

def FieldSpot.Before : FieldSpot → FieldSpot → Prop
  | .marker j, .marker k => j < k
  | .marker _, .helper _ => True
  | .helper _, .marker _ => False
  | .helper j, .helper k => j < k

inductive Spot where
  | owner
  | field (index : Nat) (spot : FieldSpot)

def Spot.Before : Spot → Spot → Prop
  | .owner, .owner => False
  | .owner, .field .. => True
  | .field .., .owner => False
  | .field i s, .field j t => i < j ∨ i = j ∧ s.Before t

theorem FieldSpot.Before.asymm : ∀ {s t : FieldSpot}, s.Before t → ¬ t.Before s
  | .marker _, .marker _, h | .helper _, .helper _, h => Nat.lt_asymm h
  | .marker _, .helper _, _ => id
  | .helper _, .marker _, h => h.elim

theorem Spot.Before.asymm {p q : Spot} (h : p.Before q) : ¬ q.Before p := by
  cases p with
  | owner => cases q <;> simp_all [Spot.Before]
  | field i s =>
    cases q with
    | owner => simp [Spot.Before] at h
    | field j t =>
      rintro (hlt | ⟨rfl, hts⟩) <;> obtain hlt' | ⟨heq, hst⟩ := h
      · omega
      · omega
      · omega
      · exact hst.asymm hts

inductive Body.Holds : Body → List Field → Prop where
  | named {span : Span} {fields : List Field} {trailing : Bool} :
    Holds (.named span fields trailing) fields
  | tuple {span : Span} {fields : List Field} {trailing : Bool} {semi : Span} :
    Holds (.tuple span fields trailing semi) fields

/-- What can be seen to be wrong without reading the options of fields. -/
inductive Declaration.Wrong (d : Declaration) (directive : Directive) : Spot → Failure → Prop where
  | owner {of : Ty} (hof : directive.of = some of) (hpath : ¬ of.NamesPath) :
    Wrong d directive .owner ⟨.ownerNotPath, Trees.hull of.tokens⟩
  | marker {s : Struct} {fields : List Field} {i j : Nat} {f : Field} {a : Attr}
    (hs : d = .struct s) (hbody : s.body.Holds fields) (hf : fields[i]? = some f)
    (ha : f.attrs[j]? = some a) (hname : a.isNamed ignoreName = true) (hargs : a.args ≠ .none) :
    Wrong d directive (.field i (.marker j)) ⟨.ignoreArguments, Trees.hull a.content⟩
  | helper {s : Struct} {span : Span} {fields : List Field} {trailing : Bool} {semi : Span}
    {i j : Nat} {f : Field} {a : Attr} (hs : d = .struct s)
    (hbody : s.body = .tuple span fields trailing semi) (hf : fields[i]? = some f)
    (ha : f.attrs[j]? = some a)
    (hname : a.isNamed directiveName = true ∨ a.isNamed ignoreName = true) :
    Wrong d directive (.field i (.helper j)) ⟨.optionsOnTuple, Trees.hull a.tokens⟩

theorem Body.Holds.eq {body : Body} {fields : List Field} (h : body.Holds fields) :
    body.fields = fields := by
  cases h <;> rfl

theorem Body.holds_of_getElem? {body : Body} {i : Nat} {f : Field}
    (h : body.fields[i]? = some f) : body.Holds body.fields := by
  cases body with
  | named => exact .named
  | tuple => exact .tuple
  | unit => simp [fields] at h

theorem Body.isTuple_iff {body : Body} : body.isTuple = true ↔
    ∃ span trailing semi, body = .tuple span body.fields trailing semi := by
  cases body <;> simp [isTuple, fields]

theorem Attr.ignoreFailure?_eq_some_iff (a : Attr) (e : Failure) :
    a.ignoreFailure? = some e ↔ a.isNamed ignoreName = true ∧ a.args ≠ .none ∧
      e = ⟨.ignoreArguments, Trees.hull a.content⟩ := by
  unfold ignoreFailure?
  cases a.isNamed ignoreName with
  | false => simp
  | true => cases a.args <;> simp [eq_comm]

def Attr.tupleFailure? (a : Attr) : Option Failure :=
  if a.isHelper then some ⟨.optionsOnTuple, Trees.hull a.tokens⟩ else none

theorem Attr.tupleFailure?_eq_some_iff (a : Attr) (e : Failure) :
    a.tupleFailure? = some e ↔
      (a.isNamed directiveName = true ∨ a.isNamed ignoreName = true) ∧
        e = ⟨.optionsOnTuple, Trees.hull a.tokens⟩ := by
  rw [tupleFailure?, isHelper, Option.ite_none_right_eq_some, Option.some.injEq, Bool.or_eq_true,
    eq_comm (a := e)]

def Field.Wrong (tuple : Bool) (f : Field) : FieldSpot → Failure → Prop
  | .marker j, e => ∃ a, f.attrs[j]? = some a ∧ a.ignoreFailure? = some e
  | .helper j, e => tuple = true ∧ ∃ a, f.attrs[j]? = some a ∧ a.tupleFailure? = some e

theorem Field.failures_inOrder (tuple : Bool) (f : Field) :
    InOrder FieldSpot.Before (f.Wrong tuple) (f.failures tuple) := by
  have hmarkers := (InOrder.filterMap Attr.ignoreFailure? f.attrs).map FieldSpot.Before
    FieldSpot.marker fun _ _ h => h
  have hhelpers := (InOrder.filterMap Attr.tupleFailure? f.attrs).map FieldSpot.Before
    FieldSpot.helper fun _ _ h => h
  rw [failures]
  cases tuple with
  | false =>
    rw [if_neg (by simp), List.append_nil]
    refine hmarkers.congr ?_
    rintro (j | j) e <;> simp [Wrong]
  | true =>
    rw [if_pos rfl, ← List.filterMap_eq_map, List.filterMap_filter]
    refine (hmarkers.append hhelpers ?_).congr ?_
    · rintro _ e _ e' ⟨j, rfl, -⟩ ⟨k, rfl, -⟩
      trivial
    · rintro (j | j) e <;> simp [Wrong]

theorem Directive.failures_inOrder (directive : Directive) :
    InOrder Spot.Before (fun p e => p = .owner ∧ ∃ of, directive.of = some of ∧ ¬ of.NamesPath ∧
      e = ⟨.ownerNotPath, Trees.hull of.tokens⟩) directive.failures := by
  rw [failures]
  cases directive.of with
  | none => exact .nil (by simp)
  | some of =>
    cases hplain : of.isPlainPath with
    | true =>
      simp only [hplain, if_true]
      refine .nil ?_
      rintro p e ⟨-, of', hof, hpath, -⟩
      cases hof
      exact hpath (of.isPlainPath_iff.mp hplain)
    | false =>
      have hpath : ¬ of.NamesPath := by simp [← Ty.isPlainPath_iff, hplain]
      simp only [hplain, Bool.false_eq_true, if_false]
      refine ((InOrder.toList (some _)).map Spot.Before (fun _ => .owner)
        fun _ _ h => h.elim).congr fun p e => ?_
      constructor
      · rintro ⟨-, rfl, he⟩
        exact ⟨rfl, of, rfl, hpath, (Option.some.inj he).symm⟩
      · rintro ⟨rfl, of', hof, -, rfl⟩
        cases hof
        exact ⟨(), rfl, rfl⟩

theorem Declaration.failures_inOrder (d : Declaration) (directive : Directive) :
    InOrder Spot.Before (d.Wrong directive) (directive.failures ++ d.fieldFailures) := by
  cases d with
  | other attrs =>
    rw [fieldFailures, List.append_nil]
    refine directive.failures_inOrder.congr fun p e => ⟨?_, ?_⟩
    · rintro ⟨rfl, of, hof, hpath, rfl⟩
      exact .owner hof hpath
    · rintro (⟨hof, hpath⟩ | ⟨hs⟩ | ⟨hs⟩)
      · exact ⟨rfl, _, hof, hpath, rfl⟩
      all_goals cases hs
  | struct s =>
    -- the places in one field are told apart by the number of the field
    have hfields := (InOrder.flatMap _ (Field.failures_inOrder s.body.isTuple) s.body.fields).map
      Spot.Before (fun p => .field p.1 p.2) fun _ _ h => h
    refine (directive.failures_inOrder.append hfields ?_).congr fun p e => ⟨?_, ?_⟩
    · rintro _ e _ e' ⟨rfl, -⟩ ⟨p, rfl, -⟩
      trivial
    · rintro (⟨rfl, of, hof, hpath, rfl⟩ | ⟨⟨i, j | j⟩, rfl, f, hf, hwrong⟩)
      · exact .owner hof hpath
      · obtain ⟨a, ha, hfailure⟩ := hwrong
        obtain ⟨hname, hargs, rfl⟩ := (a.ignoreFailure?_eq_some_iff e).mp hfailure
        exact .marker rfl (Body.holds_of_getElem? hf) hf ha hname hargs
      · obtain ⟨htuple, a, ha, hfailure⟩ := hwrong
        obtain ⟨hname, rfl⟩ := (a.tupleFailure?_eq_some_iff e).mp hfailure
        obtain ⟨span, trailing, semi, hbody⟩ := Body.isTuple_iff.mp htuple
        exact .helper rfl hbody hf ha hname
    · rintro (⟨hof, hpath⟩ | ⟨hs, hbody, hf, ha, hname, hargs⟩ | ⟨hs, hbody, hf, ha, hname⟩)
      · exact .inl ⟨rfl, _, hof, hpath, rfl⟩
      · cases hs
        rw [← hbody.eq] at hf
        exact .inr ⟨(_, .marker _), rfl, _, hf, _, ha,
          (Attr.ignoreFailure?_eq_some_iff ..).mpr ⟨hname, hargs, rfl⟩⟩
      · cases hs
        rw [hbody]
        exact .inr ⟨(_, .helper _), rfl, _, hf, rfl, _, ha,
          (Attr.tupleFailure?_eq_some_iff ..).mpr ⟨hname, rfl⟩⟩

namespace Field

/-- The field cannot be read: it has no name, or one of its option lists fails, each read on top of
those before it. -/
inductive Malformed (f : Field) : Failure → Prop where
  | unnamed (hname : f.name = none) : Malformed f ⟨.unnamedField, Trees.hull f.tokens⟩
  | options {e : Failure} (hname : f.name.isSome = true)
    (hfails : FailsFirst (Attr.readOptions Reader.fieldOption) .empty
      (f.attrs.filter (·.isNamed directiveName)) e) : Malformed f e

def Unnamable (f : Field) (fault : NameFault) : Prop :=
  f.Eligible ∧ ∃ name colon options, f.name = some (name, colon) ∧
    FieldOptions.ofAttrs f.attrs = .ok options ∧ options.action = none ∧
    variantName name.name = .error fault

theorem malformed_iff (f : Field) (e : Failure) :
    f.Malformed e ↔ FieldDecl.ofField f = .error e := by
  rw [FieldDecl.ofField]
  cases hname : f.name with
  | none =>
    simp only [Except.error.injEq]
    constructor
    · rintro (_ | ⟨hsome, -⟩)
      · rfl
      · simp [hname] at hsome
    · rintro rfl
      exact .unnamed hname
  | some named =>
    have hoptions : f.Malformed e ↔ FieldOptions.ofAttrs f.attrs = .error e := by
      rw [FieldOptions.ofAttrs, foldlM_eq_error_iff]
      constructor
      · rintro (hnone | ⟨-, hfails⟩)
        · simp [hname] at hnone
        · exact hfails
      · exact fun hfails => .options (by simp [hname]) hfails
    rw [hoptions]
    simp [bind_eq_error_iff, pure_eq_ok]

def malformed? (f : Field) : Option Failure :=
  match FieldDecl.ofField f with
  | .error e => some e
  | .ok _ => none

theorem malformed?_eq_some_iff (f : Field) (e : Failure) :
    f.malformed? = some e ↔ f.Malformed e := by
  rw [malformed_iff, malformed?]
  cases FieldDecl.ofField f <;> simp

theorem Unnamable.ofField {f : Field} {fault : NameFault} (h : f.Unnamable fault) :
    ∃ decl, FieldDecl.ofField f = .ok decl := by
  obtain ⟨-, name, colon, options, hname, hoptions, -⟩ := h
  exact ⟨_, FieldDecl.ofField_eq_ok.mpr ⟨name, colon, options, hname, hoptions, rfl⟩⟩

theorem Unnamable.unique {f : Field} {fault fault' : NameFault} (h : f.Unnamable fault)
    (h' : f.Unnamable fault') : fault' = fault := by
  obtain ⟨-, name, colon, options, hname, -, -, hfault⟩ := h
  obtain ⟨-, name', colon', options', hname', -, -, hfault'⟩ := h'
  obtain ⟨rfl, -⟩ : name = name' ∧ colon = colon' := by simpa [hname] using hname'
  simpa [hfault] using hfault'.symm

end Field

theorem FieldDecl.variant_eq_error_iff (decl : FieldDecl) (fault : NameFault) :
    decl.variant = .error fault ↔
      decl.action = none ∧ variantName decl.name.name = .error fault := by
  rw [variant]
  cases decl.action with
  | some action => simp
  | none => simp [bind_eq_error_iff, pure_eq_ok]

theorem FieldDecl.delegate?_eq_error_iff {f : Field} {decl : FieldDecl} (h : ofField f = .ok decl)
    (fault : NameFault) : decl.delegate? = .error fault ↔ f.Unnamable fault := by
  have hfault : decl.delegate? = .error fault ↔
      f.Eligible ∧ decl.variant = .error fault := by
    rw [delegate?]
    split
    next hnone =>
      have hineligible : ¬ f.Eligible := fun heligible => by
        obtain ⟨child, hchild⟩ := Option.isSome_iff_exists.mp heligible.2.2
        simp [(eligible?_eq_some_iff h child).mpr ⟨heligible, hchild⟩] at hnone
      simp [hineligible]
    next child hsome =>
      have heligible := ((eligible?_eq_some_iff h child).mp hsome).1
      simp [heligible, bind_eq_error_iff, pure_eq_ok]
  rw [hfault, variant_eq_error_iff, Field.Unnamable]
  obtain ⟨name, colon, options, hname, hoptions, rfl⟩ := ofField_eq_ok.mp h
  simp [hname, hoptions]

def FailsToName (fields : List Field) (fault : NameFault) : Prop :=
  ∃ before f after, fields = before ++ f :: after ∧
    (∀ g ∈ before, ∀ fault', ¬ g.Unnamable fault') ∧ f.Unnamable fault

theorem failsToName_cons_iff {f : Field} {fields : List Field} {fault : NameFault} :
    FailsToName (f :: fields) fault ↔
      f.Unnamable fault ∨ (∀ fault', ¬ f.Unnamable fault') ∧ FailsToName fields fault := by
  constructor
  · rintro ⟨before, g, after, hfields, hbefore, hg⟩
    cases before with
    | nil =>
      cases hfields
      exact .inl hg
    | cons f' before =>
      cases hfields
      rw [List.forall_mem_cons] at hbefore
      exact .inr ⟨hbefore.1, before, g, after, rfl, hbefore.2, hg⟩
  · rintro (hf | ⟨hf, before, g, after, rfl, hbefore, hg⟩)
    · exact ⟨[], f, fields, rfl, by simp, hf⟩
    · exact ⟨f :: before, g, after, rfl, List.forall_mem_cons.mpr ⟨hf, hbefore⟩, hg⟩

namespace Declaration

/-- Fields are read until a name cannot be made. Those that cannot be read do not stop it. -/
theorem readDelegates_cons (f : Field) (fields : List Field) :
    (∃ fault, f.Unnamable fault ∧ readDelegates (f :: fields) = .error fault) ∨
    (∀ fault, ¬ f.Unnamable fault) ∧ ∃ first : List Delegate, readDelegates (f :: fields) =
      (readDelegates fields).map fun rest => (f.malformed?.toList ++ rest.1, first ++ rest.2) := by
  cases hf : FieldDecl.ofField f with
  | error e =>
    refine .inr ⟨fun fault h => ?_, [], ?_⟩
    · -- a field that cannot be read is not asked for a variant
      obtain ⟨decl, hdecl⟩ := h.ofField
      simp [hf] at hdecl
    · rw [readDelegates, Field.malformed?, hf]
      cases readDelegates fields <;> rfl
  | ok decl =>
    cases hd : decl.delegate? with
    | error fault =>
      refine .inl ⟨fault, (FieldDecl.delegate?_eq_error_iff hf fault).mp hd, ?_⟩
      simp only [readDelegates, hf, hd, error_bind]
    | ok found =>
      refine .inr ⟨fun fault h => ?_, found.toList, ?_⟩
      · simp [(FieldDecl.delegate?_eq_error_iff hf fault).mpr h] at hd
      · rw [readDelegates, Field.malformed?, hf]
        simp only [hd, ok_bind]
        cases readDelegates fields <;> rfl

theorem readDelegates_error {fields : List Field} {fault : NameFault}
    (h : FailsToName fields fault) : readDelegates fields = .error fault := by
  induction fields with
  | nil => simp [FailsToName] at h
  | cons f fields ih =>
    obtain hf | ⟨hf, hfields⟩ := failsToName_cons_iff.mp h <;>
      obtain ⟨fault', hf', hread⟩ | ⟨hf', first, hread⟩ := readDelegates_cons f fields
    · rw [hread, hf.unique hf']
    · exact absurd hf (hf' fault)
    · exact absurd hf' (hf fault')
    · rw [hread, ih hfields]
      rfl

theorem readDelegates_ok {fields : List Field} (h : ∀ fault, ¬ FailsToName fields fault) :
    ∃ found, readDelegates fields = .ok (fields.filterMap Field.malformed?, found) := by
  induction fields with
  | nil => exact ⟨[], rfl⟩
  | cons f fields ih =>
    obtain ⟨fault, hf, -⟩ | ⟨hf, first, hread⟩ := readDelegates_cons f fields
    · exact absurd (failsToName_cons_iff.mpr (.inl hf)) (h fault)
    · obtain ⟨rest, hrest⟩ := ih fun fault hfields =>
        h fault (failsToName_cons_iff.mpr (.inr ⟨hf, hfields⟩))
      refine ⟨first ++ rest, ?_⟩
      rw [hread, hrest]
      cases hm : f.malformed? <;> simp [hm, Except.map]

def MalformedAt (fields : List Field) (i : Nat) (e : Failure) : Prop :=
  ∃ f, fields[i]? = some f ∧ f.Malformed e

theorem malformed_inOrder (fields : List Field) :
    InOrder (· < ·) (MalformedAt fields) (fields.filterMap Field.malformed?) :=
  (InOrder.filterMap _ _).congr fun i e => by
    simp only [Field.malformed?_eq_some_iff, MalformedAt]

def FailsToRead (d : Declaration) (e : Failure) : Prop :=
  FailsFirst (Attr.readOptions (Reader.directiveOption .struct)) .empty
    (d.attrs.filter (·.isNamed directiveName)) e

variable {d : Declaration} {directive : Directive}

theorem derive_of_failsToRead {e : Failure} (h : d.FailsToRead e) :
    derive d = .error (.failures e []) :=
  derive_of_unread (foldlM_eq_error_iff.mpr h)

theorem delegates_error {fault : NameFault} (h : FailsToName d.namedFields fault) :
    d.delegates = .error (.name fault) := by
  rw [delegates, readDelegates_error h, mapError_error, error_bind]

theorem delegates_of_named (h : ∀ fault, ¬ FailsToName d.namedFields fault) : ∃ found,
    d.delegates = (stopAt (d.namedFields.filterMap Field.malformed?)).map fun _ => found := by
  obtain ⟨found, hfound⟩ := readDelegates_ok h
  refine ⟨found, ?_⟩
  simp only [delegates, hfound, mapError_ok, ok_bind]
  cases stopAt (d.namedFields.filterMap Field.malformed?) <;> rfl

theorem derive_of_delegates (hd : Directive.ofAttrs d.attrs = .ok directive)
    (h : d.validate directive = .ok ()) (hof : directive.of.isSome = true) :
    (∀ trouble, d.delegates = .error trouble → derive d = .error trouble) ∧
    ∀ found, d.delegates = .ok found → ∃ out, derive d = .ok out := by
  rw [derive_of_valid hd h]
  obtain ⟨parent, hparent⟩ := Option.isSome_iff_exists.mp hof
  rw [hparent]
  cases d with
  | struct s =>
    constructor
    · intro trouble htrouble
      simp only [htrouble, error_bind]
    · intro found hfound
      refine ⟨s.rendering parent directive.runtimePath found, ?_⟩
      simp only [hfound, ok_bind, pure_eq_ok]
  | other attrs =>
    have hnone : (other attrs).delegates = .ok [] := rfl
    constructor
    · intro trouble htrouble
      cases hnone.symm.trans htrouble
    · exact fun found _ => ⟨[], rfl⟩

theorem derive_of_fields (hd : Directive.ofAttrs d.attrs = .ok directive)
    (h : d.validate directive = .ok ()) (hof : directive.of.isSome = true) :
    (∀ fault, FailsToName d.namedFields fault → derive d = .error (.name fault)) ∧
    ((∀ fault, ¬ FailsToName d.namedFields fault) →
      (∀ first more, InOrder (· < ·) (MalformedAt d.namedFields) (first :: more) →
        derive d = .error (.failures first more)) ∧
      (InOrder (· < ·) (MalformedAt d.namedFields) [] → ∃ out, derive d = .ok out)) := by
  obtain ⟨hfails, hfound⟩ := derive_of_delegates hd h hof
  refine ⟨fun fault hfault => hfails _ (delegates_error hfault), fun hnamed => ?_⟩
  obtain ⟨found, hdelegates⟩ := delegates_of_named hnamed
  have honly := (malformed_inOrder d.namedFields).iff_eq fun _ _ => Nat.lt_asymm
  constructor
  · intro first more hfailures
    refine hfails _ ?_
    rw [hdelegates, ← (honly _).mp hfailures]
    rfl
  · intro hnone
    refine hfound found ?_
    rw [hdelegates, ← (honly _).mp hnone]
    rfl

/-- What the derive reports once its directive is read. First come all mistakes that show without
reading the options of fields, in their order; then, with a parent, the field for which no variant
can be named, or else all fields that cannot be read. -/
structure Reports (d : Declaration) (directive : Directive) (fields : List Field) : Prop where
  seen : ∃! es, InOrder Spot.Before (d.Wrong directive) es
  invalid : ∀ first more, InOrder Spot.Before (d.Wrong directive) (first :: more) →
    d.validate directive = .error (.failures first more) ∧
    derive d = .error (.failures first more)
  valid : InOrder Spot.Before (d.Wrong directive) [] → d.validate directive = .ok ()
  parentless : InOrder Spot.Before (d.Wrong directive) [] → directive.of = none →
    derive d = .ok []
  read : ∃! es, InOrder (· < ·) (MalformedAt fields) es
  unnamable : InOrder Spot.Before (d.Wrong directive) [] → directive.of.isSome = true →
    ∀ fault, FailsToName fields fault → derive d = .error (.name fault)
  malformed : InOrder Spot.Before (d.Wrong directive) [] → directive.of.isSome = true →
    (∀ fault, ¬ FailsToName fields fault) →
      ∀ first more, InOrder (· < ·) (MalformedAt fields) (first :: more) →
        derive d = .error (.failures first more)
  clean : InOrder Spot.Before (d.Wrong directive) [] → directive.of.isSome = true →
    (∀ fault, ¬ FailsToName fields fault) → InOrder (· < ·) (MalformedAt fields) [] →
      ∃ out, derive d = .ok out

theorem reports (hd : Directive.ofAttrs d.attrs = .ok directive) :
    d.Reports directive d.namedFields := by
  have honly := (d.failures_inOrder directive).iff_eq fun _ _ => Spot.Before.asymm
  have hvalid (h : InOrder Spot.Before (d.Wrong directive) []) :
      d.validate directive = .ok () := by
    rw [validate, ← (honly _).mp h]
    rfl
  exact {
    seen := (d.failures_inOrder directive).existsUnique fun _ _ => Spot.Before.asymm
    invalid := by
      intro first more h
      have hinvalid : d.validate directive = .error (.failures first more) := by
        rw [validate, ← (honly _).mp h]
        rfl
      exact ⟨hinvalid, derive_of_invalid hd hinvalid⟩
    valid := hvalid
    parentless := by
      intro h hof
      rw [derive_of_valid hd (hvalid h), hof]
    read := (malformed_inOrder d.namedFields).existsUnique fun _ _ => Nat.lt_asymm
    unnamable := fun h hof => (derive_of_fields hd (hvalid h) hof).1
    malformed := fun h hof hnamed => ((derive_of_fields hd (hvalid h) hof).2 hnamed).1
    clean := fun h hof hnamed => ((derive_of_fields hd (hvalid h) hof).2 hnamed).2 }

/-- Mistakes are reported in the order in which they are looked for, and nothing is generated beside
them. The first directive that fails is reported alone, and all others after it is read. -/
theorem derive_mistakes (d : Declaration) :
    (∀ e, d.FailsToRead e → derive d = .error (.failures e [])) ∧
    ((∀ e, ¬ d.FailsToRead e) → ∃ directive fields, Directive.ofAttrs d.attrs = .ok directive ∧
      d.HasFields fields ∧ d.Reports directive fields) := by
  refine ⟨fun e => derive_of_failsToRead, fun hread => ?_⟩
  cases hd : Directive.ofAttrs d.attrs with
  | error e => exact absurd (foldlM_eq_error_iff.mp hd) (hread e)
  | ok directive => exact ⟨directive, d.namedFields, rfl, hasFields_iff.mpr rfl, reports hd⟩

/-- `#[parent_reducer_state(of = &A)] struct S(..)` with a marker that has arguments and with
options at its only field. -/
def wrongSample : Declaration :=
  .struct ⟨[sampleAttr directiveName (.list .paren
      [Code.word "of", Code.sign '=', Code.sign '&', Code.word "A"] .made)],
    .inherited, .made, ⟨"S", .made⟩, .empty,
    .tuple .made [⟨[sampleAttr directiveName .none,
        sampleAttr ignoreName (.list .paren [Code.word "x"] .made)],
      .inherited, none, .ofIdent ⟨"u8", .made⟩⟩] false .made⟩

def unknownOption (name : String) : Field :=
  sampleField [sampleAttr directiveName (.list .paren [Code.word "unknown"] .made)] name ["u8"]

/-- `#[parent_reducer_state]` without options, before one with a wrong option. -/
def unreadSample : Declaration :=
  .other [sampleAttr directiveName .none,
    sampleAttr directiveName (.list .paren [Code.word "unknown"] .made)]

theorem derive_wrongSample :
    (∃ first more, derive wrongSample = .error (.failures first more) ∧
      (first :: more).map Failure.cause =
        [.ownerNotPath, .ignoreArguments, .optionsOnTuple, .optionsOnTuple]) ∧
    (∃ first more, derive (.struct (fieldsSample
        [unknownOption "a", childField, unknownOption "b"])) = .error (.failures first more) ∧
      (first :: more).map Failure.cause = [.unsupportedOption .field, .unsupportedOption .field]) ∧
    ∃ e, derive unreadSample = .error (.failures e []) ∧
      e.cause = .noArguments directiveName := by
  refine ⟨?_, ?_, ?_⟩
  · have hread : ∀ e, ¬ wrongSample.FailsToRead e := fun e h => by
      cases foldlM_eq_error_iff.mpr h
    obtain ⟨directive, fields, hdirective, -, hreports⟩ := (derive_mistakes wrongSample).2 hread
    cases hdirective
    exact ⟨_, _, (hreports.invalid _ _ (failures_inOrder wrongSample _)).2, rfl⟩
  · let d : Declaration :=
      .struct (fieldsSample [unknownOption "a", childField, unknownOption "b"])
    have hread : ∀ e, ¬ d.FailsToRead e := fun e h => by
      cases foldlM_eq_error_iff.mpr h
    obtain ⟨directive, fields, hdirective, hfields, hreports⟩ := (derive_mistakes d).2 hread
    cases hdirective
    obtain rfl := hasFields_iff.mp hfields
    have hnamed : ∀ fault, ¬ FailsToName d.namedFields fault := fun fault h => by
      cases readDelegates_error h
    exact ⟨_, _,
      hreports.malformed (failures_inOrder d _) rfl hnamed _ _ (malformed_inOrder _), rfl⟩
  · have hfails : unreadSample.FailsToRead ⟨.noArguments directiveName, .made⟩ :=
      ⟨[], _, _, _, rfl, rfl, rfl⟩
    exact ⟨_, (derive_mistakes unreadSample).1 _ hfails, rfl⟩

end Declaration

end Delegation
