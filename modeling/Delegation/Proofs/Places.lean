import Delegation.Proofs.Stages

namespace Delegation

def Ident.bare (i : Ident) : Ident := ⟨i.name, .made⟩

mutual

def Path.bare : Path → Path
  | ⟨leading, segments⟩ => ⟨leading.map fun _ => .made, Segments.bare segments⟩

def Segments.bare : List Segment → List Segment
  | [] => []
  | s :: rest => s.bare :: Segments.bare rest

def Segment.bare : Segment → Segment
  | .plain name => .plain name.bare
  | .angled name turbofish _ args trailing _ =>
    .angled name.bare turbofish .made (Arguments.bare args) trailing .made

def Arguments.bare : List Argument → List Argument
  | [] => []
  | a :: rest => a.bare :: Arguments.bare rest

def Argument.bare : Argument → Argument
  | .type t => .type t.bare
  | .other tokens => .other (Trees.bare tokens)

def QPath.bare : QPath → QPath
  | .plain path => .plain path.bare
  | .qualified _ self via _ members =>
    .qualified .made self.bare (Via.bare via) .made (Segments.bare members)

def Via.bare : Option Path → Option Path
  | none => none
  | some path => some path.bare

def Ty.bare : Ty → Ty
  | .path path => .path path.bare
  | .reference _ lifetime mutable elem =>
    .reference .made (Trees.bare lifetime) (mutable.map fun _ => .made) elem.bare
  | .paren _ elem => .paren .made elem.bare
  | .group _ elem => .group .made elem.bare
  | .bound parens tokens => .bound (parens.map fun _ => .made) (Trees.bare tokens)
  | .other tokens => .other (Trees.bare tokens)

end

@[simp] theorem Trees.bare_nil : Trees.bare [] = [] := rfl

@[simp] theorem Trees.bare_cons (t : Tree) (ts : List Tree) :
    Trees.bare (t :: ts) = t.bare :: Trees.bare ts := rfl

@[simp] theorem Trees.bare_append (ts us : List Tree) :
    Trees.bare (ts ++ us) = Trees.bare ts ++ Trees.bare us := by
  induction ts with
  | nil => rfl
  | cons t ts ih => simp [ih]

theorem Trees.bare_flatMap {α : Type} (f : α → List Tree) (as : List α) :
    Trees.bare (as.flatMap f) = as.flatMap fun a => Trees.bare (f a) := by
  induction as with
  | nil => rfl
  | cons a as ih => simp [ih]

@[simp] theorem Tree.bare_mark (c : Char) (span : Span) : (mark c span).bare = mark c .made := rfl

@[simp] theorem Trees.bare_colons (span : Span) : Trees.bare (colons span) = colons .made := rfl

@[simp] theorem Ident.bare_tree (i : Ident) : i.bare.tree = i.tree.bare := rfl

mutual

theorem Path.tokens_bare (p : Path) : p.bare.tokens = Trees.bare p.tokens := by
  match p with
  | ⟨none, segments⟩ => simp [Path.bare, Path.tokens, Segments.tokens_bare segments]
  | ⟨some _, segments⟩ => simp [Path.bare, Path.tokens, Segments.tokens_bare segments]

theorem Segments.tokens_bare (ss : List Segment) :
    Segments.tokens (Segments.bare ss) = Trees.bare (Segments.tokens ss) := by
  match ss with
  | [] => rfl
  | s :: rest =>
    simp [Segments.bare, Segments.tokens, Segment.tokens_bare s, Segments.tokensAfter_bare rest]

theorem Segments.tokensAfter_bare (ss : List Segment) :
    Segments.tokensAfter (Segments.bare ss) = Trees.bare (Segments.tokensAfter ss) := by
  match ss with
  | [] => rfl
  | s :: rest =>
    simp [Segments.bare, Segments.tokensAfter, Segment.tokens_bare s,
      Segments.tokensAfter_bare rest]

theorem Segment.tokens_bare (s : Segment) : s.bare.tokens = Trees.bare s.tokens := by
  match s with
  | .plain name => simp [Segment.bare, Segment.tokens]
  | .angled name turbofish opening args trailing closing =>
    cases turbofish <;> cases trailing <;>
      simp [Segment.bare, Segment.tokens, Arguments.tokens_bare args]

theorem Arguments.tokens_bare (as : List Argument) :
    Arguments.tokens (Arguments.bare as) = Trees.bare (Arguments.tokens as) := by
  match as with
  | [] => rfl
  | a :: rest =>
    simp [Arguments.bare, Arguments.tokens, Argument.tokens_bare a,
      Arguments.tokensAfter_bare rest]

theorem Arguments.tokensAfter_bare (as : List Argument) :
    Arguments.tokensAfter (Arguments.bare as) = Trees.bare (Arguments.tokensAfter as) := by
  match as with
  | [] => rfl
  | a :: rest =>
    simp [Arguments.bare, Arguments.tokensAfter, Argument.tokens_bare a,
      Arguments.tokensAfter_bare rest]

theorem Argument.tokens_bare (a : Argument) : a.bare.tokens = Trees.bare a.tokens := by
  match a with
  | .type t => simp [Argument.bare, Argument.tokens, Ty.tokens_bare t]
  | .other tokens => simp [Argument.bare, Argument.tokens]

theorem QPath.tokens_bare (p : QPath) : p.bare.tokens = Trees.bare p.tokens := by
  match p with
  | .plain path => simp [QPath.bare, QPath.tokens, Path.tokens_bare path]
  | .qualified _ self via _ members =>
    simp [QPath.bare, QPath.tokens, Ty.tokens_bare self, Via.tokens_bare via,
      Segments.tokensAfter_bare members]

theorem Via.tokens_bare (via : Option Path) :
    Via.tokens (Via.bare via) = Trees.bare (Via.tokens via) := by
  match via with
  | none => rfl
  | some path => simp [Via.bare, Via.tokens, Path.tokens_bare path, Tree.bare]

theorem Ty.tokens_bare (t : Ty) : t.bare.tokens = Trees.bare t.tokens := by
  match t with
  | .path path => simp [Ty.bare, Ty.tokens, QPath.tokens_bare path]
  | .reference _ lifetime mutable elem =>
    cases mutable <;> simp [Ty.bare, Ty.tokens, Ty.tokens_bare elem, Tree.bare]
  | .paren _ elem => simp [Ty.bare, Ty.tokens, Ty.tokens_bare elem, Tree.bare]
  | .group _ elem => simp [Ty.bare, Ty.tokens, Ty.tokens_bare elem, Tree.bare]
  | .bound parens tokens => cases parens <;> simp [Ty.bare, Ty.tokens, Tree.bare]
  | .other tokens => simp [Ty.bare, Ty.tokens]

end

/-- Parentheses and groups are no matter of places. -/
theorem Ty.inner_bare (t : Ty) : t.bare.inner = t.inner.bare := by
  match t with
  | .paren _ elem => exact Ty.inner_bare elem
  | .group _ elem => exact Ty.inner_bare elem
  | .path _ | .reference .. | .bound .. | .other _ => rfl

theorem Ty.isPlainPath_bare (t : Ty) : t.bare.isPlainPath = t.isPlainPath := by
  rw [isPlainPath, inner_bare, isPlainPath]
  cases t.inner with
  | path p => cases p <;> rfl
  | paren | group | reference | bound | other => rfl

def Visibility.bare : Visibility → Visibility
  | .inherited => .inherited
  | .everywhere _ => .everywhere .made
  | .restricted _ _ within path => .restricted .made .made (within.map fun _ => .made) path.bare

theorem Visibility.tokens_bare (v : Visibility) : v.bare.tokens = Trees.bare v.tokens := by
  cases v with
  | inherited => rfl
  | everywhere => rfl
  | restricted span parens within path =>
    cases within <;> simp [bare, tokens, Tree.bare, Path.tokens_bare]

def GenericParam.bare (p : GenericParam) : GenericParam :=
  ⟨p.isLifetime, Trees.bare p.head, Trees.bare p.name, Trees.bare p.default⟩

namespace Generics

def bare (g : Generics) : Generics :=
  ⟨.made, g.params.map GenericParam.bare, g.trailing, .made, Trees.bare g.clause⟩

theorem commas_bare (trailing : Bool) (parts : List (List Tree)) :
    commas trailing (parts.map Trees.bare) = Trees.bare (commas trailing parts) := by
  fun_induction commas trailing parts with
  | case1 => rfl
  | case2 ts => cases trailing <;> simp [commas]
  | case3 ts parts hne ih =>
    cases parts with
    | nil => exact absurd rfl hne
    | cons us parts =>
      rw [List.map_cons, List.map_cons, commas, ← List.map_cons, ih]
      · simp
      · simp

theorem angled_bare (g : Generics) {part : GenericParam → List Tree}
    (h : ∀ p : GenericParam, part p.bare = Trees.bare (part p)) :
    g.bare.angled part = Trees.bare (g.angled part) := by
  have hparts : (g.params.map GenericParam.bare).map part = (g.params.map part).map Trees.bare := by
    simp [Function.comp_def, h]
  rw [angled, bare, List.isEmpty_map, hparts, commas_bare, angled]
  split
  next => rfl
  next => simp

end Generics

namespace Code

@[simp] theorem bare_word (name : String) : (word name).bare = word name := rfl

@[simp] theorem bare_sign (c : Char) : (sign c).bare = sign c := rfl

@[simp] theorem bare_parens (ts : List Tree) : (parens ts).bare = parens (Trees.bare ts) := rfl

@[simp] theorem bare_braces (ts : List Tree) : (braces ts).bare = braces (Trees.bare ts) := rfl

@[simp] theorem bare_brackets (ts : List Tree) :
    (brackets ts).bare = brackets (Trees.bare ts) := rfl

@[simp] theorem bare_below (names : List String) : Trees.bare (below names) = below names := by
  induction names with
  | nil => rfl
  | cons name names ih => simp [below, ih]

theorem bare_seenAs (type : Ty) (trait : List Tree) :
    Trees.bare (seenAs type trait) = seenAs type.bare (Trees.bare trait) := by
  simp [seenAs, Ty.tokens_bare]

theorem bare_asReducer (runtime : Path) (type : Ty) :
    Trees.bare (asReducer runtime type) = asReducer runtime.bare type.bare := by
  simp [asReducer, bare_seenAs, Path.tokens_bare]

end Code

namespace Delegate

open Code

def bare (d : Delegate) : Delegate :=
  ⟨d.name.bare, d.child.bare, d.optional, d.vis.bare, d.variant.bare⟩

theorem bare_reduceCall (d : Delegate) (parent : Ty) (runtime : Path) (state : List Tree) :
    Trees.bare (d.reduceCall parent runtime state) =
      d.bare.reduceCall parent.bare runtime.bare (Trees.bare state) := by
  simp [reduceCall, childValue, bare_asReducer, bare_seenAs, bare]

theorem bare_body (d : Delegate) (parent : Ty) (runtime : Path) :
    Trees.bare (d.body parent runtime) = d.bare.body parent.bare runtime.bare := by
  have hpresence : Trees.bare (d.presence runtime) = d.bare.presence runtime.bare := by
    simp [presence, Path.tokens_bare, bare]
  rw [body, body]
  change _ = if d.optional then _ else _
  split
  next => simp [hpresence, bare_reduceCall]
  next => simp [bare_reduceCall, bare]

/-- A method is written from what its field, its parent and the library are, not from where they
stand. -/
theorem bare_method (d : Delegate) (parent : Ty) (runtime : Path) :
    Trees.bare (d.method parent runtime) = d.bare.method parent.bare runtime.bare := by
  have hsummary : Text.quoted d.bare.summary = Text.quoted d.summary := rfl
  have harrow : Trees.bare (operator ['-', '>'] .made) = operator ['-', '>'] .made := rfl
  simp only [method, Trees.bare_append, Trees.bare_cons, Trees.bare_nil, bare_sign, bare_brackets,
    bare_word, bare_parens, bare_braces, bare_below, bare_asReducer, bare_body, harrow, hsummary,
    ← Visibility.tokens_bare, ← Path.tokens_bare, ← Ty.tokens_bare]
  rfl

end Delegate

/-- The block of a struct is written from its name, its parameters and the methods. -/
theorem Struct.bare_implBlock {s t : Struct} (hname : s.name.bare = t.name.bare)
    (hgenerics : s.generics.bare = t.generics.bare) {methods methods' : List Tree}
    (hmethods : Trees.bare methods = Trees.bare methods') :
    Trees.bare (s.implBlock methods) = Trees.bare (t.implBlock methods') := by
  have hangled {part : GenericParam → List Tree}
      (h : ∀ p : GenericParam, part p.bare = Trees.bare (part p)) :
      Trees.bare (s.generics.angled part) = Trees.bare (t.generics.angled part) := by
    rw [← Generics.angled_bare _ h, ← Generics.angled_bare _ h, hgenerics]
  have hhead : Trees.bare (s.generics.angled GenericParam.head) =
      Trees.bare (t.generics.angled GenericParam.head) := hangled fun _ => rfl
  have hnames : Trees.bare (s.generics.angled GenericParam.name) =
      Trees.bare (t.generics.angled GenericParam.name) := hangled fun _ => rfl
  have hclause : Trees.bare s.generics.clause = Trees.bare t.generics.clause :=
    congrArg Generics.clause hgenerics
  simp only [implBlock, Trees.bare_append, Trees.bare_cons, ← Ident.bare_tree, hname,
    Generics.headTokens, Generics.nameTokens, hhead, hnames, hclause, Code.bare_braces, hmethods]

def Directive.bare (d : Directive) : Directive := ⟨d.of.map Ty.bare, d.runtime.map Path.bare⟩

def Failure.bare (f : Failure) : Failure := ⟨f.cause, .made⟩

def Trouble.bare : Trouble → Trouble
  | .failures first more => .failures first.bare (more.map Failure.bare)
  | .name fault => .name fault

/-- What is generated or reported, places aside. -/
def bareOutcome : Except Trouble (List Tree) → Except Trouble (List Tree)
  | .ok tokens => .ok (Trees.bare tokens)
  | .error trouble => .error trouble.bare

theorem Directive.runtimePath_bare {d e : Directive} (h : d.bare = e.bare) :
    d.runtimePath.bare = e.runtimePath.bare := by
  have hruntime : d.runtime.map Path.bare = e.runtime.map Path.bare :=
    congrArg Directive.runtime h
  have hdefault (d : Directive) :
      d.runtimePath.bare = (d.runtime.map Path.bare).getD defaultRuntime.bare := by
    rw [runtimePath]
    cases d.runtime <;> rfl
  rw [hdefault, hruntime, ← hdefault]

theorem Directive.failures_bare {d e : Directive} (h : d.bare = e.bare) :
    d.failures.map Failure.bare = e.failures.map Failure.bare := by
  have hof : d.of.map Ty.bare = e.of.map Ty.bare := congrArg Directive.of h
  unfold failures
  cases hd : d.of with
  | none =>
    rw [hd, Option.map_none, eq_comm, Option.map_eq_none_iff] at hof
    rw [hof]
  | some t =>
    rw [hd, Option.map_some, eq_comm, Option.map_eq_some_iff] at hof
    obtain ⟨u, hu, hbare⟩ := hof
    have hplain : u.isPlainPath = t.isPlainPath := by
      rw [← Ty.isPlainPath_bare u, hbare, Ty.isPlainPath_bare]
    simp only [hu, hplain]
    split <;> rfl

theorem bareOutcome_stopAt {fs gs : List Failure} (h : fs.map Failure.bare = gs.map Failure.bare)
    {next next' : Except Trouble (List Tree)} (hnext : bareOutcome next = bareOutcome next') :
    bareOutcome (stopAt fs >>= fun _ => next) = bareOutcome (stopAt gs >>= fun _ => next') := by
  match fs, gs, h with
  | [], [], _ => exact hnext
  | f :: fs, g :: gs, h =>
    obtain ⟨hfirst, hmore⟩ := List.cons_eq_cons.mp h
    change Except.error (Trouble.failures f.bare (fs.map Failure.bare)) =
      Except.error (Trouble.failures g.bare (gs.map Failure.bare))
    rw [hfirst, hmore]

namespace Struct

theorem bare_rendering {s t : Struct} (hname : s.name.bare = t.name.bare)
    (hgenerics : s.generics.bare = t.generics.bare) {parent parent' : Ty}
    (hparent : parent.bare = parent'.bare) {runtime runtime' : Path}
    (hruntime : runtime.bare = runtime'.bare) {found found' : List Delegate}
    (hfound : found.map Delegate.bare = found'.map Delegate.bare) :
    Trees.bare (s.rendering parent runtime found) =
      Trees.bare (t.rendering parent' runtime' found') := by
  have hempty : found.isEmpty = found'.isEmpty := by
    simpa using congrArg List.isEmpty hfound
  have hmethods (ds : List Delegate) (parent : Ty) (runtime : Path) :
      Trees.bare (ds.flatMap (·.method parent runtime)) =
        (ds.map Delegate.bare).flatMap (·.method parent.bare runtime.bare) := by
    simp only [Trees.bare_flatMap, Delegate.bare_method, List.flatMap_map]
  rw [rendering, rendering, hempty]
  split
  next => rfl
  next =>
    refine bare_implBlock hname hgenerics ?_
    rw [hmethods, hmethods, hfound, hparent, hruntime]

/-- Directives that say the same generate the same. -/
theorem bareOutcome_derive {s t : Struct} (hname : s.name = t.name)
    (hgenerics : s.generics = t.generics) (hbody : s.body = t.body) {d e : Directive}
    (hd : Directive.ofAttrs s.attrs = .ok d) (he : Directive.ofAttrs t.attrs = .ok e)
    (h : d.bare = e.bare) :
    bareOutcome (derive (.struct s)) = bareOutcome (derive (.struct t)) := by
  have hfields : (Declaration.struct s).fieldFailures = (Declaration.struct t).fieldFailures := by
    rw [Declaration.fieldFailures, hbody, Declaration.fieldFailures]
  have hdelegates : (Declaration.struct s).delegates = (Declaration.struct t).delegates := by
    rw [Declaration.delegates, Declaration.namedFields, hbody]
    rfl
  have hof : d.of.map Ty.bare = e.of.map Ty.bare := congrArg Directive.of h
  rw [s.derive_eq hd, t.derive_eq he, hfields, hdelegates]
  refine bareOutcome_stopAt (by simp [Directive.failures_bare h]) ?_
  cases hp : d.of with
  | none =>
    rw [hp, Option.map_none, eq_comm, Option.map_eq_none_iff] at hof
    rw [hof]
  | some parent =>
    rw [hp, Option.map_some, eq_comm, Option.map_eq_some_iff] at hof
    obtain ⟨parent', hp', hparent⟩ := hof
    rw [hp']
    cases (Declaration.struct t).delegates with
    | error trouble => rfl
    | ok found =>
      exact congrArg Except.ok (bare_rendering (by rw [hname]) (by rw [hgenerics]) hparent.symm
        (Directive.runtimePath_bare h) rfl)

end Struct

end Delegation
