import Delegation.Proofs.Boundary.Reader
import Delegation.Syntax.Type

namespace Delegation

/-- The rules that can end where an option ends take no notice of what stands behind it. -/
structure Rules.Bounded (us : List Tree) (g : Rules) : Prop where
  type : ∀ plus generic, (g.type plus generic).Bounded us
  bound : ∀ captures const, (g.bound captures const).Bounded us
  bound_starved : ∀ captures const, (g.bound captures const).Starved
  expr : ∀ braces, (g.expr braces).Bounded us
  expr_starved : ∀ braces, (g.expr braces).Starved
  unary : ∀ braces, (g.unary braces).Bounded us
  unary_starved : ∀ braces, (g.unary braces).Starved
  operators : ∀ braces floor left,
    (g.operators braces floor left).Bounded us
  pattern : g.pattern.Bounded us
  block : ∀ inner, (g.block inner).Bounded us

namespace Rules.Bounded

open Reader

variable {g : Rules} {us : List Tree}

theorem anyType (h : g.Bounded us) : g.anyType.Bounded us :=
  (h.type true true).bind fun _ => .pure

theorem narrowType (h : g.Bounded us) : g.narrowType.Bounded us :=
  (h.type false true).bind fun _ => .pure

theorem anyExpr (h : g.Bounded us) : g.anyExpr.Bounded us :=
  (h.expr true).bind fun _ => .pure

theorem headExpr (h : g.Bounded us) : g.headExpr.Bounded us :=
  (h.expr false).bind fun _ => .pure

theorem anyPattern (h : g.Bounded us) : g.anyPattern.Bounded us :=
  h.pattern.bind fun _ => .pure

end Rules.Bounded

namespace Reader

variable {g : Rules} {us : List Tree} [Trees.Tail us]

theorem constant_bounded (h : g.Bounded us) : (constant g).Bounded us := by
  unfold constant
  refine .ifLook .literal ?_ (by simp)
  refine .ifLook (.bind .name fun _ => .pure) ?_ (by simp)
  exact .ifLook (h.block true) .nothing (by simp)

/-- A lifetime as an argument may not be the first of several bounds. -/
theorem lifetimeArgument_append (vs : List Tree) :
    Look.and .lifetime (.not (.second (.op "+"))) (vs ++ us) =
      Look.and .lifetime (.not (.second (.op "+"))) vs := by
  refine Look.and_append (by simp) fun h => ?_
  have hvs := Look.shown_of (fun _ => Look.lifetime_hollow) h
  rw [Look.not, Look.not, Look.second_append hvs (by simp)]

theorem argument_bounded (h : g.Bounded us) : (argument g).Bounded us := by
  unfold argument
  dsimp only
  refine .ifLook (.bind .lifetime fun _ => .pure) ?_ lifetimeArgument_append
  refine .ifLook (.bind (constant_bounded h) fun _ => .pure) ?_ (by simp [Look.or])
  refine .bind (h.type true true) fun type => .ite ?_ .pure
  refine .ifLook (.bind .op fun eq => ?_) ?_ (by simp)
  · refine .ifLook (.bind (constant_bounded h) fun _ => .pure) ?_ (by simp [Look.or])
    exact .bind h.anyType fun _ => .pure
  · refine .ifLook (.bind .op fun colon => .bind ?_ fun _ => .pure) .pure (by simp)
    refine .chained (.bind (h.bound false true) fun _ => .pure) ?_ ?_ ?_ (by simp)
    · exact (h.bound_starved false true).bind
    · intro vs hvs
      simp [Look.or, Look.comma_append us hvs]
    · intro vs hvs
      simp [Look.or, hvs]

theorem angledArgs_bounded (h : g.Bounded us) (name : Ident) :
    (angledArgs g name).Bounded us := by
  unfold angledArgs
  dsimp only
  have hargs : (separated (.op ">") "," (argument g)).Bounded us :=
    .separated (argument_bounded h) (by simp)
  refine .bind (.look (by simp)) fun turbofish => .ite (.bind .op fun _ => ?_) ?_
  · exact .bind .opSpan fun _ => .bind hargs fun _ => .bind .opSpan fun _ => .pure
  · exact .bind .opSpan fun _ => .bind hargs fun _ => .bind .opSpan fun _ => .pure

/-- Two characters stand before the third token. -/
theorem colons_third_append {p : Look} (hp : ∀ vs, p (vs ++ us) = p vs) (vs : List Tree) :
    Look.and (.op "::") (.third p) (vs ++ us) = Look.and (.op "::") (.third p) vs := by
  refine Look.and_append (by simp) fun h => ?_
  exact Look.third_append (Look.shown_of (fun _ => Look.op_hollow) h)
    (fun _ => Look.shown_after_colons h) fun _ last _ _ => hp last

theorem startsAngled_append (expression : Bool) (vs : List Tree) :
    startsAngled expression (vs ++ us) = startsAngled expression vs := by
  simp [startsAngled, Look.or, colons_third_append]

theorem segment_bounded (h : g.Bounded us) (expression : Bool) :
    (segment g expression).Bounded us := by
  unfold segment
  dsimp only
  have hrest (i : Ident) : (do
      if ← look (startsAngled expression) then angledArgs g i
      else return Segment.plain i).Bounded us :=
    .ifLook (angledArgs_bounded h i) .pure (startsAngled_append expression)
  refine .ifLook (.bind .anyWord fun _ => .pure) ?_ (by simp [isPathWord])
  exact .ifLook (.bind .anyWord hrest) (.bind .name hrest) (by simp)

/-- Where a path goes on. -/
theorem moreSegments_append (vs : List Tree) :
    Look.and (.op "::") (.not (.third (.group .paren))) (vs ++ us) =
      Look.and (.op "::") (.not (.third (.group .paren))) vs := by
  refine Look.and_append (by simp) fun h => ?_
  rw [Look.not, Look.not, Look.third_append (Look.shown_of (fun _ => Look.op_hollow) h)
    (fun _ => Look.shown_after_colons h) (by simp)]

theorem moreSegments_bounded (h : g.Bounded us) (expression : Bool) :
    (moreSegments g expression).Bounded us :=
  .manyWhile (.bind .op fun _ => segment_bounded h expression) moreSegments_append

theorem leadingColons_bounded : leadingColons.Bounded us :=
  .ifLook (.bind .opSpan fun _ => .pure) .pure (by simp)

theorem path_bounded (h : g.Bounded us) (expression : Bool) :
    (path g expression).Bounded us := by
  refine .bind leadingColons_bounded fun _ => .bind (segment_bounded h expression) fun _ => ?_
  exact .bind (moreSegments_bounded h expression) fun _ => .pure

theorem members_bounded (h : g.Bounded us) (expression : Bool) :
    (members g expression).Bounded us := by
  refine .bind .op fun _ => .bind (segment_bounded h expression) fun _ => ?_
  refine .bind (.manyWhile ?_ (by simp)) fun _ => .pure
  exact .bind .op fun _ => segment_bounded h expression

theorem qpath_bounded (h : g.Bounded us) (expression : Bool) :
    (qpath g expression).Bounded us := by
  unfold qpath
  dsimp only
  refine .ifLook (.bind .opSpan fun _ => .bind (h.type true true) fun _ => ?_) ?_ (by simp)
  · have hrest (opening : Span) (self : Ty) (via : Option Path) : (do
        let closing ← opSpan ">"
        return QPath.qualified opening self via closing (← members g expression)).Bounded us :=
      .bind .opSpan fun _ => .bind (members_bounded h expression) fun _ => .pure
    refine .ifLook (.bind .word fun _ => ?_) (hrest _ _ _) (by simp)
    exact .bind (path_bounded h false) fun _ => hrest _ _ _
  · exact .bind (path_bounded h expression) fun _ => .pure

theorem outerAttr_bounded : (outerAttr g).Bounded us := by
  unfold outerAttr attrBody
  exact .bind .opSpan fun _ => .bind .enclosed fun _ => .pure

theorem outerAttrs_bounded : (outerAttrs g).Bounded us := .manyWhile outerAttr_bounded (by simp)

theorem outerAttrTokens_bounded : (outerAttrTokens g).Bounded us :=
  .bind outerAttrs_bounded fun _ => .pure

omit [Trees.Tail us] in
theorem boundTokens_bounded (h : g.Bounded us) : (boundTokens g).Bounded us :=
  .bind (h.bound false true) fun _ => .pure

omit [Trees.Tail us] in
theorem boundTokens_starved (h : g.Bounded us) : (boundTokens g).Starved :=
  (h.bound_starved false true).bind

theorem colonWith_bounded {p : Reader (List Tree)} (hp : p.Bounded us) :
    (colonWith p).Bounded us :=
  .ifLook (.bind .op fun _ => .bind hp fun _ => .pure) .pure (by simp)

theorem lifetimeParam_bounded (attrs : List Tree) : (lifetimeParam attrs).Bounded us := by
  refine .bind .lifetime fun _ => .bind (colonWith_bounded ?_) fun _ => .pure
  exact .chained_ended .lifetime .lifetime (by simp) (by simp)

theorem typeParam_bounded (h : g.Bounded us) (attrs : List Tree) :
    (typeParam g attrs).Bounded us := by
  refine .bind .name fun _ => .bind (colonWith_bounded ?_) fun _ => ?_
  · exact .chained_ended (boundTokens_bounded h) (boundTokens_starved h) (by simp) (by simp)
  · refine .bind (.whenLook ?_ (by simp)) fun _ => .pure
    exact .sequence_cons .op (.sequence_cons h.anyType .sequence_nil)

theorem constParam_bounded (h : g.Bounded us) (attrs : List Tree) :
    (constParam g attrs).Bounded us := by
  refine .bind .word fun _ => .bind .name fun _ => .bind .op fun _ => .bind h.anyType fun _ => ?_
  refine .bind (.whenLook ?_ (by simp)) fun _ => .pure
  exact .sequence_cons .op (.sequence_cons (constant_bounded h) .sequence_nil)

theorem boundParam_bounded (h : g.Bounded us) : (boundParam g).Bounded us := by
  refine .bind outerAttrTokens_bounded fun attrs => ?_
  refine .ifLook (typeParam_bounded h attrs) ?_ (by simp)
  refine .ifLook (lifetimeParam_bounded attrs) ?_ (by simp)
  exact .ifLook (constParam_bounded h attrs) .expected (by simp)

theorem binder_bounded (h : g.Bounded us) : (binder g).Bounded us := by
  refine .bind .word fun _ => .bind .op fun _ => ?_
  refine .bind (.separatedTokens ?_ (by simp)) fun _ => .bind .op fun _ => .pure
  exact .bind (boundParam_bounded h) fun _ => .pure

theorem binderWhen_bounded (h : g.Bounded us) : (binderWhen g).Bounded us :=
  .whenLook (binder_bounded h) (by simp)

theorem returnType_bounded (h : g.Bounded us) (plus : Bool) : (returnType g plus).Bounded us :=
  .ifLook (.bind .op fun _ => .bind (h.type plus true) fun _ => .pure) .pure (by simp)

theorem traitPath_bounded (h : g.Bounded us) : (traitPath g).Bounded us := by
  have hparens (vs : List Tree) :
      Look.or (.group .paren) (.and (.op "::") (.third (.group .paren))) (vs ++ us) =
        Look.or (.group .paren) (.and (.op "::") (.third (.group .paren))) vs := by
    simp [Look.or, colons_third_append]
  refine .bind (path_bounded h false) fun p => .bind (.look hparens) fun _ => .ite ?_ .pure
  refine .bind (.whenLook .op (by simp)) fun _ => .bind .grouped fun _ => ?_
  exact .bind (returnType_bounded h false) fun _ => .pure

theorem traitBound_bounded (h : g.Bounded us) (const : Bool) : (traitBound g const).Bounded us := by
  have hrest (lifetimes constant : List Tree) (asWritten : Bool) : (do
      let question ← here
      let maybe ← opWhen "?"
      let late ← if lifetimes.isEmpty && !maybe.isEmpty then binderWhen g else pure []
      let path ← traitPath g
      if !(lifetimes ++ late).isEmpty && !maybe.isEmpty then
        failAt question
          (.refused "`for<...>` binder not allowed with `?` trait polarity modifier" false)
      return (constant ++ maybe ++ lifetimes ++ path, asWritten)).Bounded us := by
    refine .here fun _ _ => .bind (.whenLook .op (by simp)) fun maybe => .ite ?_ ?_
    · refine .bind (binderWhen_bounded h) fun late => .bind (traitPath_bounded h) fun p => ?_
      exact .ite .failAt_bind .pure
    · refine .bind .pure fun late => .bind (traitPath_bounded h) fun p => ?_
      exact .ite .failAt_bind .pure
  refine .bind (binderWhen_bounded h) fun lifetimes => .here fun _ _ => ?_
  refine .ifLook ?_ (.ifLook ?_ ?_ (by simp)) (by simp)
  · exact .bind .enclosed fun _ => .ite .failAt_bind (hrest _ _ _)
  · exact .bind .word fun _ => .ite .failAt_bind (hrest _ _ _)
  · exact hrest _ _ _

theorem captured_bounded : captured.Bounded us := by
  refine .ifLook (.bind .lifetime fun _ => .pure) ?_ (by simp)
  exact .ifLook (.bind .anyWord fun _ => .pure) .expected (by simp [Look.or])

theorem capture_bounded : capture.Bounded us := by
  refine .bind .word fun _ => .bind .op fun _ => .bind (.loop fun done => ?_) fun _ => ?_
  · refine .ifLook .pure (.bind captured_bounded fun _ => .ifLook .pure ?_ (by simp)) (by simp)
    exact .ifComma (.bind .op fun _ => .pure) .expected .expected
  · exact .bind .op fun _ => .pure

theorem boundRule_bounded (h : g.Bounded us) (captures const : Bool) :
    (boundRule g captures const).Bounded us := by
  refine .ifLook (.bind .lifetime fun _ => .pure) (.ifLook ?_ ?_ (by simp)) (by simp)
  · exact .here fun _ _ => .bind capture_bounded fun _ => .ite .pure .failAt_bind
  · refine .ahead fun before => .ifLook ?_ ?_ (by simp)
    · refine .bind .enclosed fun found => .bind .pure fun _ => .ahead fun after => ?_
      rw [Trees.between_append]
      exact .pure
    · refine .bind (traitBound_bounded h const) fun _ => .ahead fun after => ?_
      rw [Trees.between_append]
      exact .pure

omit [Trees.Tail us] in
theorem path_starved : (path g false).Starved := by
  have hpath (vs : List Tree) (hvs : Trees.shown vs = []) : isPathWord vs = false := by
    simp [isPathWord, hvs]
  have hsegment : (segment g false).Starved :=
    .ifLook (.ifLook (Starved.name.bind) fun _ => Look.word_hollow) hpath
  intro vs hvs
  have hleading : Reads leadingColons vs none vs := .look (Look.op_hollow hvs) .pure
  exact .of_reads hleading (hsegment.bind vs hvs)

omit [Trees.Tail us] in
theorem boundRule_starved (captures const : Bool) : (boundRule g captures const).Starved := by
  have hbound : (traitBound g const).Starved := by
    refine .whenLook (.here fun _ => ?_) fun _ => Look.word_hollow
    refine .ifLook (.ifLook ?_ fun _ => Look.word_hollow) fun _ => Look.group_hollow (by decide)
    refine .here fun _ => .whenLook ?_ fun _ => Look.op_hollow
    exact .pure (.bind path_starved.bind)
  refine .ifLook (.ifLook ?_ fun _ => Look.word_hollow) fun _ => Look.lifetime_hollow
  exact .ahead fun _ _ => .ifLook hbound.bind fun _ => Look.group_hollow (by decide)

theorem startsBound_append (const : Bool) (vs : List Tree) :
    startsBound const (vs ++ us) = startsBound const vs := by
  simp [startsBound, Look.or]

theorem bounds_bounded (h : g.Bounded us) (plus captures const : Bool) :
    (bounds g plus captures const).Bounded us := by
  refine .loop fun state => .bind (h.bound captures const) fun b => ?_
  refine .bind (.look (by simp)) fun _ => ?_
  exact .ite (.bind .op fun _ => .ifLook .pure .pure (startsBound_append const)) .pure

/-- The place where a type starts is not part of it. -/
theorem traitBounds_fits (h : g.Bounded us) (start start' : Span) (plus captures const : Bool)
    (complaint : String) : Fits us (traitBounds g start plus captures const complaint)
      (traitBounds g start' plus captures const complaint) :=
  .bind (bounds_bounded h plus captures const) fun _ => .ite .pure .failAt

theorem traitObject_bounded (h : g.Bounded us) (plus : Bool) : (traitObject g plus).Bounded us := by
  refine .here fun _ _ => .ifLook ?_ (traitBounds_fits h _ _ _ _ _ _) (by simp)
  refine .ahead fun before => .bind .word fun _ => .bind (.whenLook .op (by simp)) fun _ => ?_
  refine .bind (traitBounds_fits h _ _ _ _ _ _) fun _ => .ahead fun after => ?_
  rw [Trees.between_append]
  exact .pure

theorem plusBounds_bounded (h : g.Bounded us) : (plusBounds g).Bounded us :=
  .manyTokens (.bind .op fun _ => .bind (h.bound false false) fun _ => .pure) (by simp)

theorem parenthesized_bounded (h : g.Bounded us) (plus : Bool) :
    (parenthesized g plus).Bounded us := by
  refine .bind .enclosed fun (content, span) => ?_
  cases content with
  | tuple | object => exact .pure
  | maybe tokens => exact .bind (plusBounds_bounded h) fun _ => .ite .pure .pure
  | single first =>
    refine .bind (.look (by simp)) fun more => ?_
    split
    · exact .bind (plusBounds_bounded h) fun _ => .pure
    · exact .pure

theorem withArgs_bounded (h : g.Bounded us) (segments : List Segment) :
    (withArgs g segments).Bounded us := by
  unfold withArgs
  split
  · exact .bind (angledArgs_bounded h _) fun _ =>
      .bind (moreSegments_bounded h false) fun _ => .pure
  · exact .pure

theorem groupType_bounded (h : g.Bounded us) (generic : Bool) :
    (groupType g generic).Bounded us := by
  refine .bind .enclosed fun (elem, span) => ?_
  refine .ifLook ?_ ?_ (colons_third_append (by simp))
  · split
    · exact .bind (moreSegments_bounded h false) fun _ => .pure
    · exact .bind (moreSegments_bounded h false) fun _ => .pure
    · exact .bind (path_bounded h false) fun _ => .pure
  refine .bind (.look (by simp)) fun _ => ?_
  refine .bind (.look (colons_third_append (by simp))) fun _ => .ite ?_ .pure
  split
  · exact .ite (.bind (withArgs_bounded h _) fun _ => .pure) .pure
  · exact .ite (.bind (withArgs_bounded h _) fun _ => .pure) .pure
  · exact .pure

theorem linkage_bounded : linkage.Bounded us :=
  have hname : (whenLook .text text).Bounded us := .whenLook .text (by simp)
  .whenLook (.sequence_cons .word (.sequence_cons hname .sequence_nil)) (by simp)

theorem functionType_bounded (h : g.Bounded us) : (functionType g).Bounded us := by
  refine .sequence_cons (.whenLook .word (by simp)) (.sequence_cons linkage_bounded ?_)
  refine .sequence_cons .word (.sequence_cons .grouped ?_)
  exact .sequence_cons (returnType_bounded h false) .sequence_nil

theorem invocation_bounded : invocation.Bounded us :=
  .bind .op fun _ => .bind .wholeGroup fun _ => .pure

theorem startsInvocation_append (vs : List Tree) :
    startsInvocation (vs ++ us) = startsInvocation vs := by
  simp [startsInvocation, Look.and, Look.not]

theorem pathType_bounded (h : g.Bounded us) (lifetimes : List Tree) (plus : Bool) :
    (pathType g lifetimes plus).Bounded us := by
  refine .bind (qpath_bounded h false) fun p => ?_
  cases p with
  | qualified => exact .pure
  | plain p =>
    refine .bind (.look startsInvocation_append) fun _ => .ite ?_ ?_
    · exact .bind invocation_bounded fun _ => .pure
    · refine .bind (.look (by simp)) fun more => .ite (.ite ?_ (.bind .pure fun _ => .pure)) .pure
      refine .bind (.loop fun done => ?_) fun _ => .pure
      refine .ifLook (.bind .op fun _ => ?_) .pure (by simp)
      exact .ifLook (.bind (h.bound false false) fun _ => .pure) .pure (startsBound_append false)

theorem pointerType_bounded (h : g.Bounded us) : (pointerType g).Bounded us := by
  refine .bind .op fun _ => .ifLook ?_ .expected (by simp [Look.or])
  exact .bind .anyWord fun _ => .bind h.narrowType fun _ => .pure

theorem referenceType_bounded (h : g.Bounded us) : (referenceType g).Bounded us := by
  have hrest (amp : Span) (lifetime : List Tree) (mutable : Option Span) : (do
      return Ty.reference amp lifetime mutable (← g.type false true)).Bounded us :=
    .bind (h.type false true) fun _ => .pure
  refine .bind .opSpan fun _ => .bind (.whenLook .lifetime (by simp)) fun _ => ?_
  exact .ifLook (.bind .wordSpan fun _ => hrest _ _ _) (hrest _ _ _) (by simp)

theorem hiddenType_bounded (h : g.Bounded us) (plus : Bool) : (hiddenType g plus).Bounded us :=
  .here fun _ _ => .bind .word fun _ => .bind (traitBounds_fits h _ _ _ _ _ _) fun _ => .pure

theorem startsBuiltin_append (vs : List Tree) : startsBuiltin (vs ++ us) = startsBuiltin vs := by
  refine Look.and_append (by simp) fun h => ?_
  exact Look.second_append (Look.shown_of (fun _ => Look.word_hollow) h) (by simp)

theorem builtin_bounded : builtin.Bounded us := by
  refine .bind (.sequence_cons .word (.sequence_cons .op .sequence_nil)) fun _ => ?_
  exact .bind .name fun _ => .bind .enclosed fun _ => .pure

theorem typeRule_bounded (h : g.Bounded us) (plus generic : Bool) :
    (typeRule g plus generic).Bounded us := by
  refine .ifLook (groupType_bounded h generic) ?_ (by simp)
  refine .ahead fun begins => .bind (binderWhen_bounded h) fun lifetimes => ?_
  refine .bind (.look ?_) fun _ => .ite .expected ?_
  · simp [isFunctionWord, isTypeWord]
  refine .ifLook (parenthesized_bounded h plus) ?_ (by simp)
  refine .ifLook (.bind (functionType_bounded h) fun _ => .pure) ?_ (by simp [isFunctionWord])
  refine .ifLook ?_ ?_ startsBuiltin_append
  · refine .bind builtin_bounded fun _ => .ahead fun after => ?_
    rw [Trees.between_append]
    exact .pure
  refine .ifLook (pathType_bounded h lifetimes plus) ?_ (by simp [isTypeWord])
  refine .ifLook (.bind (traitObject_bounded h plus) fun _ => .pure) ?_ (by simp)
  refine .ifLook (.bind .grouped fun _ => .pure) ?_ (by simp)
  refine .ifLook (.bind (pointerType_bounded h) fun _ => .pure) ?_ (by simp)
  refine .ifLook (referenceType_bounded h) ?_ (by simp)
  refine .ifLook (.bind .op fun _ => .pure) ?_ (by simp)
  refine .ifLook (.bind (hiddenType_bounded h plus) fun _ => .pure) ?_ (by simp)
  refine .ifLook (.bind .word fun _ => .pure) ?_ (by simp)
  exact .ifLook (.bind (traitObject_bounded h plus) fun _ => .pure) .expected (by simp)

end Reader

end Delegation
