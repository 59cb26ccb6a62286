import Delegation.Proofs.Boundary.Look
import Delegation.Proofs.Written
import Delegation.Proofs.Decoration

namespace Delegation

def isLiteral : List Tree → Bool
  | [.literal _ _] => true
  | [.ident name _] => name == "true" || name == "false"
  | [.punct '-' false _, .literal text _] => isNumber text
  | _ => false

mutual

/-- Nothing in the path but lifetimes and literals is kept as tokens, and no word that leads a path
has arguments. -/
def Path.isClear : Path → Bool
  | ⟨_, segments⟩ => Segments.areClear segments

def Segments.areClear : List Segment → Bool
  | [] => true
  | s :: rest => s.isClear && Segments.areClear rest

def Segment.isClear : Segment → Bool
  | .plain _ => true
  | .angled name _ _ args _ _ => !name.leadsPath && Arguments.areClear args

def Arguments.areClear : List Argument → Bool
  | [] => true
  | a :: rest => a.isClear && Arguments.areClear rest

def Argument.isClear : Argument → Bool
  | .type t => t.isClear
  | .other tokens => (Argument.other tokens).isLifetime || isLiteral tokens

def QPath.isClear : QPath → Bool
  | .plain path => path.isClear
  | .qualified _ self via _ members => self.isClear && Via.isClear via && Segments.areClear members

def Via.isClear : Option Path → Bool
  | none => true
  | some path => path.isClear

def Ty.isClear : Ty → Bool
  | .path path => path.isClear
  | .reference _ _ _ elem => elem.isClear
  | .paren _ elem => elem.isClear
  | .group _ elem => elem.isClear
  | .bound .. => false
  | .other _ => false

end

theorem Segments.areClear_eq (ss : List Segment) :
    Segments.areClear ss = ss.all Segment.isClear := by
  induction ss with
  | nil => rfl
  | cons s ss ih => rw [Segments.areClear, ih, List.all_cons]

theorem Arguments.areClear_eq (as : List Argument) :
    Arguments.areClear as = as.all Argument.isClear := by
  induction as with
  | nil => rfl
  | cons a as ih => rw [Arguments.areClear, ih, List.all_cons]

/-- What is kept as tokens in a clear argument is read back. -/
theorem Argument.other_written {tokens : List Tree}
    (h : (Argument.other tokens).isClear = true) : (Argument.other tokens).Written := by
  simp only [isClear, Bool.or_eq_true] at h
  obtain h | h := h
  · unfold isLifetime at h
    split at h
    next name span heq =>
      cases heq
      exact .lifetime (i := ⟨name, span⟩)
    next => cases h
  · unfold isLiteral at h
    split at h
    next => exact .literal
    next name span =>
      simp only [Bool.or_eq_true, beq_iff_eq] at h
      exact .truth (i := ⟨name, span⟩) h
    next => exact .negative h
    next => cases h

namespace Reader

variable {α : Type} {P : α → Prop}

theorem Yields.enclosed {delim : Delim} {p : Reader α} (hp : p.Yields P) :
    (enclosed delim p).Yields fun r => P r.1 := by
  intro s r t h
  unfold Reader.enclosed at h
  split at h
  next => cases h
  next =>
    split at h
    next => cases h
    next ha =>
      cases h
      exact hp _ _ _ ha

/-- What holds if the question is answered with yes may depend on where it was asked. -/
theorem Yields.asked {q : Look} {p p' : Reader α}
    (hp : ∀ s a t, q s.rest = true → p s = .ok a t → P a) (hp' : p'.Yields P) :
    (look q >>= fun b => if b = true then p else p').Yields P := by
  intro s a t h
  rw [look_bind] at h
  split at h
  next hq => exact hp s a t hq h
  next => exact hp' s a t h

theorem Yields.separated {stop : Look} {separator : String} {p : Reader α} (hp : p.Yields P) :
    (separated stop separator p).Yields fun r =>
      (∀ a ∈ r.1, P a) ∧ (r.2 = true → r.1 ≠ []) := by
  refine Yields.loop (I := fun done => ∀ a ∈ done, P a) (fun done hdone => ?_) (by simp)
  refine .bind' fun _ => .ite (fun _ => .pure ?_) fun _ => ?_
  · simpa [Round.Holds] using hdone
  · refine hp.bind fun a ha => .bind' fun _ => .ite (fun _ => .pure ?_) fun _ => ?_
    · refine ⟨fun b hb => ?_, by simp⟩
      obtain rfl | hb := List.mem_cons.mp (List.mem_reverse.mp hb)
      · exact ha
      · exact hdone b hb
    · refine .bind' fun _ => .pure fun b hb => ?_
      obtain rfl | hb := List.mem_cons.mp hb
      · exact ha
      · exact hdone b hb

theorem lifetime_yields : lifetime.Yields fun ts => (Argument.other ts).isLifetime = true := by
  intro s ts t h
  unfold lifetime at h
  split at h
  next =>
    cases h
    rfl
  next => cases h

theorem operator?_singleton {c : Char} {ts tokens rest : List Tree}
    (h : operator? [c] ts = some (tokens, rest)) : ∃ span, tokens = [mark c span] := by
  unfold operator? at h
  split at h
  next =>
    split at h
    next =>
      cases h
      exact ⟨_, rfl⟩
    next => cases h
  next => cases h

theorem not_isLifetime_literal {ts tokens rest : List Tree}
    (h : literalHere? ts = some (tokens, rest)) : (Argument.other tokens).isLifetime = false := by
  unfold literalHere? at h
  split at h
  next =>
    cases h
    rfl
  next =>
    split at h
    next =>
      obtain ⟨-, h⟩ := Option.ite_none_right_eq_some.mp h
      cases h
      rfl
    next =>
      split at h
      next hminus =>
        obtain ⟨span, rfl⟩ := operator?_singleton hminus
        split at h
        next =>
          obtain ⟨-, h⟩ := Option.ite_none_right_eq_some.mp h
          cases h
          rfl
        next => cases h
      next => cases h

theorem literal_yields : literal.Yields fun ts => (Argument.other ts).isLifetime = false := by
  intro s ts t h
  unfold literal at h
  split at h
  next hread =>
    cases h
    exact not_isLifetime_literal hread
  next => cases h

end Reader

theorem not_isLifetime_fixable {t : Ty} (h : Reader.isFixable t = true) (us vs : List Tree) :
    (Argument.other (t.tokens ++ us ++ vs)).isLifetime = false := by
  unfold Reader.isFixable at h
  split at h
  next s => cases s <;> rfl
  next => cases h

theorem mem_lifetimesFirst {args : List (Bool × Argument)} {trailing : Bool} {a : Argument} :
    a ∈ (Reader.lifetimesFirst args trailing).1 ↔ ∃ b ∈ args, b.2 = a := by
  simp only [Reader.lifetimesFirst, List.map_append, List.mem_append, List.mem_map,
    List.mem_filter]
  constructor
  · rintro (⟨b, ⟨hb, -⟩, rfl⟩ | ⟨b, ⟨hb, -⟩, rfl⟩) <;> exact ⟨b, hb, rfl⟩
  · rintro ⟨b, hb, rfl⟩
    cases hflag : b.1 with
    | true => exact .inl ⟨b, ⟨hb, hflag⟩, rfl⟩
    | false => exact .inr ⟨b, ⟨hb, by rw [hflag]; rfl⟩, rfl⟩

theorem LifetimesFirst.append {as bs : List Argument} (has : ∀ a ∈ as, a.isLifetime = true)
    (hbs : ∀ b ∈ bs, b.isLifetime = false) : LifetimesFirst (as ++ bs) := by
  have hleft : (as ++ bs).filter Argument.isLifetime = as := by
    rw [List.filter_append, List.filter_eq_self.mpr has,
      List.filter_eq_nil_iff.mpr (by simpa using hbs), List.append_nil]
  have hright : (as ++ bs).filter (!·.isLifetime) = bs := by
    rw [List.filter_append, List.filter_eq_nil_iff.mpr (by simpa using has),
      List.filter_eq_self.mpr (by simpa using hbs), List.nil_append]
  rw [LifetimesFirst, hleft, hright]

theorem lifetimesFirst_lifetimesFirst {args : List (Bool × Argument)}
    (hargs : ∀ a ∈ args, a.1 = a.2.isLifetime) (trailing : Bool) :
    LifetimesFirst (Reader.lifetimesFirst args trailing).1 := by
  simp only [Reader.lifetimesFirst, List.map_append]
  apply LifetimesFirst.append
  · intro a ha
    obtain ⟨b, hb, rfl⟩ := List.mem_map.mp ha
    obtain ⟨hmem, hflag⟩ := List.mem_filter.mp hb
    rw [← hargs b hmem, hflag]
  · intro a ha
    obtain ⟨b, hb, rfl⟩ := List.mem_map.mp ha
    obtain ⟨hmem, hflag⟩ := List.mem_filter.mp hb
    rw [← hargs b hmem]
    simpa using hflag

theorem lifetimesFirst_ne_nil {args : List (Bool × Argument)} {trailing : Bool}
    (htrailing : trailing = true → args ≠ [])
    (h : (Reader.lifetimesFirst args trailing).2 = true) :
    (Reader.lifetimesFirst args trailing).1 ≠ [] := by
  have hargs : args ≠ [] := by
    rintro rfl
    simp only [Reader.lifetimesFirst, List.filter_nil, List.isEmpty_nil, Bool.not_true,
      Bool.false_and, Bool.or_false] at h
    exact htrailing h rfl
  obtain ⟨a, ha⟩ := List.exists_mem_of_ne_nil args hargs
  exact List.ne_nil_of_mem (mem_lifetimesFirst.mpr ⟨a, ha, rfl⟩)

/-- Clear types that the rules yield are read back, and blocks are groups in braces. -/
structure Rules.YieldsWritten (g : Rules) : Prop where
  type : ∀ plus generic, (g.type plus generic).Yields fun t => t.isClear = true → t.Written
  block : ∀ inner, (g.block inner).Yields fun ts =>
    ∃ content span, ts = [.group .brace content span]

/-- A clear path that is read back as a type; a plain one if it does not start with `try`. -/
def QPath.Clears : QPath → Prop
  | .plain p => p.isClear = true → p.Written
  | .qualified opening self via closing members =>
    QPath.isClear (.qualified opening self via closing members) = true →
      Ty.Written (.path (.qualified opening self via closing members))

/-- More segments, or arguments for the last: what is clear then was clear and is read back. -/
def Segments.Grow (ss grown : List Segment) : Prop :=
  Segments.areClear grown = true → Segments.areClear ss = true ∧
    (ss ≠ [] → (∀ s ∈ ss, s.Written) → (∀ s ∈ grown, s.Written) ∧
      Segments.firstName? grown = Segments.firstName? ss)

theorem Segments.grow_append {ss more : List Segment}
    (hmore : Segments.areClear more = true → ∀ s ∈ more, s.Written) :
    Segments.Grow ss (ss ++ more) := by
  intro hclear
  rw [Segments.areClear_eq, List.all_append, ← Segments.areClear_eq, ← Segments.areClear_eq,
    Bool.and_eq_true] at hclear
  refine ⟨hclear.1, fun hne hss => ⟨fun s hs => ?_, ?_⟩⟩
  · exact (List.mem_append.mp hs).elim (hss s) (hmore hclear.2 s)
  · cases ss with
    | nil => exact absurd rfl hne
    | cons => rfl

theorem Ty.written_path_iff {p : Path} : (Ty.path (.plain p)).Written ↔
    p.Written ∧ (p.leading = none → ∀ i ∈ Segments.firstName? p.segments, i.name ≠ "try") :=
  ⟨fun h => by cases h with | path hp htry => exact ⟨hp, htry⟩, fun h => .path h.1 h.2⟩

theorem ne_nil_of_firstName? {ss grown : List Segment} (hne : ss ≠ [])
    (h : Segments.firstName? grown = Segments.firstName? ss) : grown ≠ [] := by
  rintro rfl
  cases ss with
  | nil => exact hne rfl
  | cons => cases h

theorem Ty.written_qualified_iff {opening closing : Span} {self : Ty} {via : Option Path}
    {ss : List Segment} : (Ty.path (.qualified opening self via closing ss)).Written ↔
      self.Written ∧ (∀ p ∈ via, p.Written) ∧ ss ≠ [] ∧ ∀ s ∈ ss, s.Written := by
  constructor
  · rintro (_ | ⟨hself, hvia, hfirst, hmore⟩)
    exact ⟨hself, hvia, by simp, by simpa using ⟨hfirst, hmore⟩⟩
  · rintro ⟨hself, hvia, hne, hss⟩
    cases ss with
    | nil => exact absurd rfl hne
    | cons first more =>
      exact .qualified hself hvia (hss first (by simp)) fun s hs => hss s (by simp [hs])

theorem Segments.Grow.path {leading : Option Span} {ss grown : List Segment}
    (h : Segments.Grow ss grown)
    (hss : (Ty.path (.plain ⟨leading, ss⟩)).isClear = true →
      (Ty.path (.plain ⟨leading, ss⟩)).Written) :
    (Ty.path (.plain ⟨leading, grown⟩)).isClear = true →
      (Ty.path (.plain ⟨leading, grown⟩)).Written := by
  intro hclear
  obtain ⟨hclear, hgrown⟩ := h hclear
  obtain ⟨hp, htry⟩ := Ty.written_path_iff.mp (hss hclear)
  obtain ⟨hne, hss⟩ := Path.written_iff.mp hp
  obtain ⟨hgrown, hhead⟩ := hgrown hne hss
  refine Ty.written_path_iff.mpr ⟨Path.written_iff.mpr ⟨?_, hgrown⟩, by rwa [hhead]⟩
  exact ne_nil_of_firstName? hne hhead

theorem Segments.Grow.qualified {opening closing : Span} {self : Ty} {via : Option Path}
    {ss grown : List Segment} (h : Segments.Grow ss grown)
    (hss : (Ty.path (.qualified opening self via closing ss)).isClear = true →
      (Ty.path (.qualified opening self via closing ss)).Written) :
    (Ty.path (.qualified opening self via closing grown)).isClear = true →
      (Ty.path (.qualified opening self via closing grown)).Written := by
  intro hclear
  simp only [Ty.isClear, QPath.isClear, Bool.and_eq_true] at hclear hss
  obtain ⟨hsame, hclear⟩ := hclear
  obtain ⟨hclear, hgrown⟩ := h hclear
  obtain ⟨hself, hvia, hne, hss⟩ := Ty.written_qualified_iff.mp (hss ⟨hsame, hclear⟩)
  obtain ⟨hgrown, hfirst⟩ := hgrown hne hss
  exact Ty.written_qualified_iff.mpr ⟨hself, hvia, ne_nil_of_firstName? hne hfirst, hgrown⟩

theorem exists_plain_last {ss : List Segment}
    (h : (ss.getLast?.map Segment.isPlain).getD false = true) :
    ∃ init i, ss = init ++ [Segment.plain i] := by
  cases hlast : ss.getLast? with
  | none => simp [hlast] at h
  | some s =>
    obtain ⟨init, rfl⟩ := List.getLast?_eq_some_iff.mp hlast
    cases s with
    | plain i => exact ⟨init, i, rfl⟩
    | angled => simp [Segment.isPlain] at h

namespace Reader

variable {g : Rules} (hg : g.YieldsWritten)

include hg

theorem constant_yields : (constant g).Yields fun ts => (Argument.other ts).isLifetime = false := by
  refine .bind' fun _ => .ite (fun _ => literal_yields) fun _ => ?_
  refine .bind' fun _ => .ite (fun _ => .bind' fun _ => .pure rfl) fun _ => ?_
  refine .bind' fun _ => .ite (fun _ => ?_) fun _ => ?_
  · intro s ts t h
    obtain ⟨content, span, rfl⟩ := hg.block true s ts t h
    rfl
  · exact .fail fun s => by unfold nothing; split <;> exact ⟨_, rfl⟩

theorem argument_yields : (argument g).Yields fun r =>
    r.1 = r.2.isLifetime ∧ (r.2.isClear = true → r.2.Written) := by
  have hother {flag : Bool} {ts : List Tree} (h : (Argument.other ts).isLifetime = flag) :
      flag = (Argument.other ts).isLifetime ∧
        ((Argument.other ts).isClear = true → (Argument.other ts).Written) :=
    ⟨h.symm, Argument.other_written⟩
  refine .bind' fun _ => .ite (fun _ => ?_) fun _ => ?_
  · exact lifetime_yields.bind fun ts h => .pure (hother h)
  refine .bind' fun _ => .ite (fun _ => ?_) fun _ => ?_
  · exact (constant_yields hg).bind fun ts h => .pure (hother h)
  · refine (hg.type true true).bind fun t ht => ?_
    have htype : false = (Argument.type t).isLifetime ∧
        ((Argument.type t).isClear = true → (Argument.type t).Written) :=
      ⟨rfl, fun h => .type (ht h)⟩
    cases hfixable : isFixable t with
    | false =>
      simp only [Bool.false_eq_true, if_false]
      exact .pure htype
    | true =>
      have hfixed (us vs : List Tree) := hother (not_isLifetime_fixable hfixable us vs)
      refine .bind' fun _ => .ite (fun _ => .bind' fun _ => .bind' fun _ => .ite ?_ ?_) fun _ => ?_
      · exact fun _ => .bind' fun _ => .pure (hfixed _ _)
      · exact fun _ => .bind' fun _ => .pure (hfixed _ _)
      · refine .bind' fun _ => .ite (fun _ => ?_) fun _ => .pure htype
        exact .bind' fun _ => .bind' fun _ => .pure (hfixed _ _)

theorem angledArgs_clear {name : Ident} (hname : name.IsSegment) :
    (angledArgs g name).Yields fun s => s.isClear = true → s.Written := by
  have hlist (turbofish : Bool) : (angledList g name turbofish).Yields
      fun s => s.isClear = true → s.Written := by
    refine .bind' fun _ => (Yields.separated (argument_yields hg)).bind fun r hr => ?_
    obtain ⟨hargs, htrailing⟩ := hr
    refine .bind' fun _ => .pure fun hclear => ?_
    rw [Segment.isClear, Bool.and_eq_true, Bool.not_eq_true', Arguments.areClear_eq,
      List.all_eq_true] at hclear
    obtain ⟨hword, hclear⟩ := hclear
    refine .angled ((Ident.isSegment_iff.mp hname).resolve_left (by simp [hword])) (fun a ha => ?_)
      (lifetimesFirst_lifetimesFirst (fun a ha => (hargs a ha).1) r.2)
      (lifetimesFirst_ne_nil htrailing)
    have hmem : a ∈ (lifetimesFirst r.1 r.2).1 := ha
    obtain ⟨b, hb, rfl⟩ := mem_lifetimesFirst.mp hmem
    exact (hargs b hb).2 (hclear _ ha)
  refine .bind' fun turbofish => .ite (fun _ => .bind' fun _ => ?_) fun _ => ?_
  · exact hlist turbofish
  · exact hlist turbofish

theorem segmentNamed_clear {name : Ident} (hname : name.IsSegment) (expression : Bool) :
    (segmentNamed g expression name).Yields fun s => s.isClear = true → s.Written := by
  refine .bind' fun _ => .ite (fun _ => angledArgs_clear hg hname) fun _ => ?_
  exact .pure fun _ => .plain hname

theorem segment_clear (expression : Bool) :
    (segment g expression).Yields fun s => s.isClear = true → s.Written := by
  intro s seg t h
  obtain ⟨n, rest, -, ⟨rfl, hn⟩ | ⟨u, hn, h⟩⟩ := segment_ok g h
  · exact fun _ => .plain (Ident.isSegment_iff.mpr (.inl hn))
  · exact segmentNamed_clear hg (Ident.isSegment_iff.mpr (.inr hn)) expression u seg t h

theorem moreSegments_clear (expression : Bool) : (moreSegments g expression).Yields fun ss =>
    Segments.areClear ss = true → ∀ s ∈ ss, s.Written := by
  refine fun s ss t h hclear a ha => ?_
  rw [Segments.areClear_eq, List.all_eq_true] at hclear
  exact Yields.manyWhile (.bind' fun _ => segment_clear hg expression) s ss t h a ha (hclear a ha)

theorem path_clear (expression : Bool) :
    (path g expression).Yields fun p => p.isClear = true → p.Written := by
  refine .bind' fun leading => (segment_clear hg expression).bind fun first hfirst =>
    (moreSegments_clear hg expression).bind fun more hmore => .pure fun hclear => ?_
  rw [Path.isClear, Segments.areClear, Bool.and_eq_true] at hclear
  exact .of (hfirst hclear.1) (hmore hclear.2)

theorem members_clear (expression : Bool) : (members g expression).Yields fun ss => ∃ first more,
    ss = first :: more ∧ (first.isClear = true → first.Written) ∧
      (Segments.areClear more = true → ∀ s ∈ more, s.Written) := by
  refine .bind' fun _ => (segment_clear hg expression).bind fun first hfirst => ?_
  refine (Yields.manyWhile (.bind' fun _ => segment_clear hg expression)).bind fun more hmore => ?_
  refine .pure ⟨first, more, rfl, hfirst, fun hclear s hs => ?_⟩
  rw [Segments.areClear_eq, List.all_eq_true] at hclear
  exact hmore s hs (hclear s hs)

theorem qpath_clear (expression : Bool) : (qpath g expression).Yields QPath.Clears := by
  refine .bind' fun _ => .ite (fun _ => .bind' fun opening => ?_) fun _ => ?_
  · refine (hg.type true true).bind fun self hself => ?_
    have hrest (via : Option Path) (hvia : ∀ p ∈ via, p.isClear = true → p.Written) :
        Reader.Yields (do
          let closing ← opSpan ">"
          return QPath.qualified opening self via closing (← members g expression))
          QPath.Clears := by
      refine .bind' fun _ => (members_clear hg expression).bind fun ss hss => .pure fun hclear => ?_
      obtain ⟨first, more, rfl, hfirst, hmore⟩ := hss
      simp only [QPath.isClear, Segments.areClear, Bool.and_eq_true] at hclear
      obtain ⟨⟨hselfClear, hviaClear⟩, hfirstClear, hmoreClear⟩ := hclear
      refine .qualified (hself hselfClear) (fun p hp => hvia p hp ?_) (hfirst hfirstClear)
        (hmore hmoreClear)
      cases hp
      exact hviaClear
    refine .bind' fun _ => .ite (fun _ => .bind' fun _ => ?_) fun _ => ?_
    · exact (path_clear hg false).bind fun p hp => hrest (some p) (by simpa using hp)
    · exact hrest none (by simp)
  · exact (path_clear hg expression).bind fun p hp => .pure hp

omit hg

theorem path_word? {expression : Bool} {s t : Stream} {p : Path}
    (h : path g expression s = .ok p t) (hp : p.leading = none) :
    ∀ i ∈ Segments.firstName? p.segments, ∃ rest, word? s.rest = some (i, rest) := by
  obtain ⟨leading, u, hleading, h⟩ := bind_eq_ok.mp h
  obtain ⟨first, v, hfirst, h⟩ := bind_eq_ok.mp h
  obtain ⟨more, w, hmore, h⟩ := bind_eq_ok.mp h
  cases (pure_eq_ok.mp h).1
  obtain rfl : leading = none := hp
  intro i hi
  cases hi
  rw [← leadingColons_none hleading]
  exact (segment_word? g hfirst).2

theorem ne_try {ts rest : List Tree} {i : Ident} (hword : word? ts = some (i, rest))
    (hstart : Look.anyOf [.name, isTypeWord, .op "::", .op "<"] ts = true) : i.name ≠ "try" := by
  simp only [isTypeWord, Look.anyOf, List.any_cons, List.any_nil, Look.word_of_word? hword,
    Look.name_of_word? hword, Look.op_of_word? hword] at hstart
  rintro htry
  rw [htry] at hstart
  exact absurd hstart (by decide)

theorem qpath_word? {expression : Bool} {s t : Stream} {p : Path}
    (h : qpath g expression s = .ok (.plain p) t) (hp : p.leading = none) :
    ∀ i ∈ Segments.firstName? p.segments, ∃ rest, word? s.rest = some (i, rest) := by
  rw [qpath, look_bind] at h
  split at h
  next =>
    refine absurd rfl (Yields.bind' (Q := (· ≠ .plain p)) (fun _ => ?_) s _ t h)
    have hlast (opening : Span) (self : Ty) (via : Option Path) : Reader.Yields (do
        let closing ← opSpan ">"
        return QPath.qualified opening self via closing (← members g expression))
        (· ≠ .plain p) := .bind' fun _ => .bind' fun _ => .pure (by simp)
    refine .bind' fun self => .bind' fun _ => .ite (fun _ => .bind' fun _ => ?_) fun _ => ?_
    · exact .bind' fun via => hlast _ self (some via)
    · exact hlast _ self none
  next =>
    obtain ⟨q, u, hq, h⟩ := bind_eq_ok.mp h
    cases (pure_eq_ok.mp h).1
    exact path_word? hq hp

include hg

theorem pathType_clear {lifetimes : List Tree} {plus : Bool} {s u : Stream} {t : Ty}
    (hstart : Look.anyOf [.name, isTypeWord, .op "::", .op "<"] s.rest = true)
    (h : pathType g lifetimes plus s = .ok t u) (hclear : t.isClear = true) : t.Written := by
  obtain ⟨q, v, hq, h⟩ := bind_eq_ok.mp h
  have hread := qpath_clear hg false s q v hq
  cases q with
  | qualified =>
    cases (pure_eq_ok.mp h).1
    exact hread hclear
  | plain p =>
    have hsame : t.isClear = true → t = .path (.plain p) := by
      refine Yields.bind' (Q := fun t => t.isClear = true → t = .path (.plain p)) (fun _ => ?_)
        v t u h
      refine .ite (fun _ => .bind' fun _ => .pure nofun) fun _ => .bind' fun _ => .ite ?_ ?_
      · intro _
        refine .ite (fun _ => .bind' fun rest => ?_) fun _ => .bind' fun rest => ?_
        all_goals exact .pure (by cases rest <;> simp [Ty.isClear])
      · exact fun _ => .pure fun _ => rfl
    obtain rfl := hsame hclear
    refine .path (hread hclear) fun hp i hi => ?_
    obtain ⟨rest, hword⟩ := qpath_word? hq hp i hi
    exact ne_try hword hstart

/-- The last of the names gets arguments, and more names may follow. -/
theorem withArgs_clear (init : List Segment) (i : Ident) :
    (withArgs g (init ++ [Segment.plain i])).Yields (Segments.Grow (init ++ [.plain i])) := by
  have hlast : (init ++ [Segment.plain i]).getLast? = some (.plain i) := by simp
  rw [withArgs, hlast]
  intro s ss t h
  obtain ⟨angled, u, hangled, h⟩ := bind_eq_ok.mp h
  obtain ⟨more, v, hmore, h⟩ := bind_eq_ok.mp h
  cases (pure_eq_ok.mp h).1
  have hname : angled.name = i := (angledArgs_yields g _ s angled u hangled).1
  rw [List.dropLast_concat]
  intro hclear
  simp only [Segments.areClear_eq, List.all_append, List.all_cons, Bool.and_eq_true] at hclear ⊢
  obtain ⟨hinit, hangledClear, hmoreClear⟩ := hclear
  refine ⟨⟨hinit, rfl, rfl⟩, fun _ hss => ⟨?_, ?_⟩⟩
  · have hi : i.IsSegment := by
      cases hss (.plain i) (by simp) with
      | plain hi => exact hi
    have hwritten := angledArgs_clear hg hi s angled u hangled hangledClear
    have hmoreWritten := moreSegments_clear hg false u more v hmore
      (by rwa [Segments.areClear_eq])
    simp only [List.mem_append, List.mem_cons]
    rintro s (hs | rfl | hs)
    · exact hss s (by simp [hs])
    · exact hwritten
    · exact hmoreWritten s hs
  · cases init with
    | nil => exact congrArg some hname
    | cons => rfl

theorem parenType_clear : (parenType g).Yields fun content =>
    ∀ t, content = .single t → t.isClear = true → t.Written := by
  refine .bind' fun _ => .ite (fun _ => .pure nofun) fun _ => ?_
  refine .bind' fun _ => .ite (fun _ => .bind' fun _ => .pure nofun) fun _ => ?_
  refine .bind' fun _ => .ite (fun _ => .bind' fun _ => .pure nofun) fun _ => ?_
  refine (hg.type true true).bind fun first hfirst => .bind' fun _ => .ite (fun _ => ?_) fun _ => ?_
  · exact .bind' fun _ => .bind' fun _ => .pure nofun
  · refine .pure fun t ht => ?_
    cases ht
    exact hfirst

theorem parenthesized_clear (plus : Bool) :
    (parenthesized g plus).Yields fun t => t.isClear = true → t.Written := by
  refine (Yields.enclosed (parenType_clear hg)).bind fun r hr => ?_
  obtain ⟨content, span⟩ := r
  cases content with
  | tuple => exact .pure nofun
  | object => exact .pure nofun
  | maybe => exact .bind' fun more => .ite (fun _ => .pure nofun) fun _ => .pure nofun
  | single first =>
    refine .bind' fun more => ?_
    cases soleTrait? first <;> cases plus && more
    case some.true => exact .bind' fun _ => .pure nofun
    all_goals exact .pure fun hclear => .paren (hr first rfl hclear)

omit hg in
theorem lifetimeWhen_yields : lifetimeWhen.Yields fun ts =>
    ts = [] ∨ (Argument.other ts).isLifetime = true :=
  .bind' fun _ => .ite (fun _ s ts t h => .inr (lifetime_yields s ts t h)) fun _ => .pure (.inl rfl)

theorem referenceType_clear :
    (referenceType g).Yields fun t => t.isClear = true → t.Written := by
  refine .bind' fun amp => lifetimeWhen_yields.bind fun lifetime hlifetime => ?_
  have helem (mutable : Option Span) : Reader.Yields (do
      return Ty.reference amp lifetime mutable (← g.type false true))
      fun t => t.isClear = true → t.Written :=
    (hg.type false true).bind fun elem helem =>
      .pure fun hclear => .reference hlifetime (helem hclear)
  refine .bind' fun _ => .ite (fun _ => ?_) fun _ => ?_
  · exact .bind' fun _ => helem _
  · exact helem none

/-- A path in an invisible group may go on behind it. -/
theorem groupType_clear (generic : Bool) :
    (groupType g generic).Yields fun t => t.isClear = true → t.Written := by
  refine (Yields.enclosed (hg.type true true)).bind fun r helem => ?_
  obtain ⟨elem, span⟩ := r
  have hgroup : (Ty.group span elem).isClear = true → (Ty.group span elem).Written :=
    fun hclear => .group (helem hclear)
  have hmembers : Reader.Yields (do
      let p ← path g false
      return Ty.path (.qualified span elem none span p.segments))
      fun t => t.isClear = true → t.Written := by
    refine (path_clear hg false).bind fun p hp => .pure fun hclear => ?_
    simp only [Ty.isClear, QPath.isClear, Via.isClear, Bool.and_true, Bool.and_eq_true] at hclear
    obtain ⟨helemClear, hclear⟩ := hclear
    obtain ⟨leading, segments⟩ := p
    obtain ⟨hne, hsegments⟩ := Path.written_iff.mp (hp hclear)
    exact Ty.written_qualified_iff.mpr ⟨helem helemClear, by simp, hne, hsegments⟩
  -- a `::` behind the group goes on with the path in it, or with members of another type
  refine .bind' fun _ => .ite (fun _ => ?_) fun _ => .bind' fun _ => .bind' fun _ => ?_
  · match elem with
    | .path (.plain ⟨leading, segments⟩) =>
      exact (moreSegments_clear hg false).bind fun more hmore =>
        .pure ((Segments.grow_append hmore).path helem)
    | .path (.qualified ..) =>
      exact (moreSegments_clear hg false).bind fun more hmore =>
        .pure ((Segments.grow_append hmore).qualified helem)
    | .reference .. | .paren .. | .group .. | .bound .. | .other _ => exact hmembers
  · refine .ite (fun _ => ?_) fun _ => .pure hgroup
    match elem with
    | .path (.plain ⟨leading, segments⟩) =>
      refine .ite (fun hplain => ?_) fun _ => .pure hgroup
      obtain ⟨init, i, rfl⟩ := exists_plain_last hplain
      exact (withArgs_clear hg init i).bind fun ss hss => .pure (hss.path helem)
    | .path (.qualified opening self via closing members) =>
      refine .ite (fun hplain => ?_) fun _ => .pure hgroup
      obtain ⟨init, i, rfl⟩ := exists_plain_last hplain
      exact (withArgs_clear hg init i).bind fun ss hss => .pure (hss.qualified helem)
    | .reference .. | .paren .. | .group .. | .bound .. | .other _ => exact .pure hgroup

theorem typeRule_clear (plus generic : Bool) :
    (typeRule g plus generic).Yields fun t => t.isClear = true → t.Written := by
  refine .bind' fun _ => .ite (fun _ => groupType_clear hg generic) fun _ => ?_
  refine .bind' fun _ => .bind' fun lifetimes => .bind' fun _ => .ite (fun _ => ?_) fun _ => ?_
  · exact .fail fun s => ⟨_, rfl⟩
  refine .bind' fun _ => .ite (fun _ => parenthesized_clear hg plus) fun _ => ?_
  refine .bind' fun _ => .ite (fun _ => .bind' fun _ => .pure nofun) fun _ => ?_
  refine .bind' fun _ => .ite (fun _ => .bind' fun _ => .bind' fun _ => .pure nofun) fun _ => ?_
  refine .asked (fun s t u hstart h => pathType_clear hg hstart h) ?_
  refine .bind' fun _ => .ite (fun _ => .bind' fun _ => .pure nofun) fun _ => ?_
  refine .bind' fun _ => .ite (fun _ => .bind' fun _ => .pure nofun) fun _ => ?_
  refine .bind' fun _ => .ite (fun _ => .bind' fun _ => .pure nofun) fun _ => ?_
  refine .bind' fun _ => .ite (fun _ => referenceType_clear hg) fun _ => ?_
  refine .bind' fun _ => .ite (fun _ => .bind' fun _ => .pure nofun) fun _ => ?_
  refine .bind' fun _ => .ite (fun _ => .bind' fun _ => .pure nofun) fun _ => ?_
  refine .bind' fun _ => .ite (fun _ => .bind' fun _ => .pure nofun) fun _ => ?_
  refine .bind' fun _ => .ite (fun _ => .bind' fun _ => .pure nofun) fun _ => ?_
  exact .fail fun s => ⟨_, rfl⟩

end Reader

theorem rules_yieldsWritten (depth : Nat) : (rules depth).YieldsWritten := by
  induction depth with
  | zero => exact ⟨fun _ _ => .fail fun s => ⟨_, rfl⟩, fun _ => .fail fun s => ⟨_, rfl⟩⟩
  | succ depth ih =>
    refine ⟨Reader.typeRule_clear ih, fun inner => ?_⟩
    exact .bind' fun r => .pure ⟨_, _, rfl⟩

def Directive.isClear (d : Directive) : Bool := d.of.all Ty.isClear && d.runtime.all Path.isClear

/-- The reducer and the library that a module is given are read back if they are clear. -/
theorem Directive.ofArgs_clear {ts : List Tree} {args : Directive}
    (h : Directive.ofArgs ts = .ok args) : (∀ t ∈ args.of, t.isClear = true → t.Written) ∧
      ∀ p ∈ args.runtime, p.isClear = true → p.Written := by
  obtain ⟨t, ht⟩ := Reader.run_ok h
  have hrules := rules_yieldsWritten (4 * Trees.weight ts + 16)
  exact Reader.options_yields
    (I := fun d : Directive => (∀ t ∈ d.of, t.isClear = true → t.Written) ∧
      ∀ p ∈ d.runtime, p.isClear = true → p.Written)
    (fun d hd => Reader.directiveOption_yields (rulesFor ts) (hrules.type true true)
      (Reader.path_clear hrules false) .container d (fun t ht => ⟨by simpa using ht, hd.2⟩)
      fun p hp => ⟨hd.1, by simpa using hp⟩)
    (by simp [Directive.empty]) _ args t ht

theorem Directive.ofArgs_written {ts : List Tree} {args : Directive}
    (h : Directive.ofArgs ts = .ok args) (hclear : args.isClear = true) :
    (∀ t ∈ args.of, t.Written) ∧ ∀ p ∈ args.runtime, p.Written := by
  obtain ⟨hof, hruntime⟩ := Directive.ofArgs_clear h
  simp only [isClear, Bool.and_eq_true, Option.all_eq_true] at hclear
  exact ⟨fun t ht => hof t ht (hclear.1 t ht), fun p hp => hruntime p hp (hclear.2 p hp)⟩

theorem Directive.runtimePath_written {ts : List Tree} {args : Directive}
    (h : Directive.ofArgs ts = .ok args) (hclear : args.runtimePath.isClear = true) :
    args.runtimePath.Written := by
  cases hruntime : args.runtime with
  | none =>
    have hspelled := Directive.runtimePath_spelled h
    rw [runtimePath, hruntime] at hspelled ⊢
    exact hspelled.written rfl
  | some p =>
    rw [runtimePath, hruntime] at hclear ⊢
    exact (Directive.ofArgs_clear h).2 p hruntime hclear

end Delegation
