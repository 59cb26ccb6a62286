import Delegation.Proofs.Boundary.Types
import Delegation.Syntax.Grammar

namespace Delegation

namespace Reader

variable {g : Rules} {us : List Tree} [Trees.Tail us]

theorem patternCases_bounded (h : g.Bounded us) : (patternCases g).Bounded us := by
  refine .bind (.whenLook .op (by simp)) fun _ => .bind h.pattern fun _ => ?_
  refine .bind (.manyTokens ?_ ?_) fun _ => .ite .pure .pure
  · exact .sequence_cons .op (.sequence_cons h.anyPattern .sequence_nil)
  · simp [isBar, Look.and, Look.not]

theorem patterns_bounded (h : g.Bounded us) : (patterns g).Bounded us :=
  .bind (patternCases_bounded h) fun _ => .pure

theorem rangeDots_bounded (old : Bool) : (rangeDots old).Bounded us := by
  refine .ifLook (.bind .op fun _ => .pure) ?_ (by simp)
  refine .ifLook (.ite (.bind .op fun _ => .pure) .expected) ?_ (by simp)
  exact .ifLook (.bind .op fun _ => .pure) .expected (by simp)

theorem rangeBound_bounded (h : g.Bounded us) : (rangeBound g).Bounded us := by
  have hps : ∀ p ∈ [Look.op "|", .op "=", .and (.op ":") (.not (.op "::")), .op ";", .word "if"],
      ∀ vs, p (vs ++ us) = p vs := by
    simp [Look.and, Look.not]
  have horder (ts : List Tree) :
      Look.anyOf [.ended, .op "|", .op "=", .and (.op ":") (.not (.op "::")), .op ",", .op ";",
        .word "if"] ts =
      Look.anyOf [.ended, .op ",", .op "|", .op "=", .and (.op ":") (.not (.op "::")), .op ";",
        .word "if"] ts := by
    simp only [Look.anyOf_cons]
    ac_rfl
  refine .ifStop .pure ?_ ?_ (fun vs hvs => ?_) fun vs hvs hstop => ?_
  · refine .ifLook .literal ?_ (by simp)
    refine .ifLook (.bind (qpath_bounded h true) fun _ => .pure) ?_ (by simp)
    refine .ifLook ?_ .expected (by simp)
    exact .sequence_cons .word (.sequence_cons (h.block true) .sequence_nil)
  · refine .ifLook (.ifLook (.ifLook .expected ?_) ?_) fun _ => Look.literal_hollow
    · exact fun _ => Look.word_hollow
    · exact fun vs hvs => by simp [hvs]
  · rw [horder, horder, Look.stop_shown hps hvs]
  · rw [horder] at hstop ⊢
    exact Look.stop_hollow hps hvs hstop

theorem rangeEnd_bounded (h : g.Bounded us) (old : Bool) (start : List Tree) :
    (rangeEnd g old start).Bounded us := by
  refine .bind (rangeDots_bounded old) fun _ => .bind (rangeBound_bounded h) fun _ => ?_
  exact .ite .refuse_bind .pure

omit [Trees.Tail us] in
theorem plainPattern_bounded {p : Reader (List Tree)} (hp : p.Bounded us) :
    (plainPattern p).Bounded us :=
  .bind hp fun _ => .pure

theorem pathPattern_bounded (h : g.Bounded us) : (pathPattern g).Bounded us := by
  refine .bind (qpath_bounded h true) fun p => .bind (.look startsInvocation_append) fun _ => ?_
  refine .ite (.bind invocation_bounded fun _ => .pure) ?_
  refine .ifLook (.bind .grouped fun _ => .pure) ?_ (by simp)
  refine .ifLook (.bind .grouped fun _ => .pure) ?_ (by simp)
  exact .ifLook (rangeEnd_bounded h true _) .pure (by simp)

theorem namePattern_bounded (h : g.Bounded us) : (namePattern g).Bounded us := by
  have hrest (byRef mutable : List Tree) (name : Ident) : (do
      let sub ← whenLook (.op "@") (sequence [op "@", g.anyPattern])
      return byRef ++ mutable ++ name.tree :: sub).Bounded us := by
    refine .bind (.whenLook ?_ (by simp)) fun _ => .pure
    exact .sequence_cons .op (.sequence_cons h.anyPattern .sequence_nil)
  refine .bind (.whenLook .word (by simp)) fun _ => .bind (.whenLook .word (by simp)) fun _ => ?_
  exact .ifLook (.bind .anyWord fun _ => hrest _ _ _) (.bind .name fun _ => hrest _ _ _) (by simp)

theorem literalPattern_bounded (h : g.Bounded us) : (literalPattern g).Bounded us :=
  .bind (rangeBound_bounded h) fun _ => .ifLook (rangeEnd_bounded h true _) .pure (by simp)

theorem startsPathPattern_append (vs : List Tree) :
    startsPathPattern (vs ++ us) = startsPathPattern vs := by
  refine Look.anyOf_append ?_
  simp only [List.forall_mem_cons, List.not_mem_nil, false_implies, implies_true, and_true]
  refine ⟨Look.and_append (by simp) fun h => ?_, Look.and_append (by simp) fun h => ?_, by simp⟩
  · exact Look.second_append (Look.shown_of (fun _ => Look.name_hollow) h) (by simp)
  · exact Look.second_append (Look.shown_of (fun _ => Look.word_hollow) h) (by simp)

theorem patternRule_bounded (h : g.Bounded us) : (patternRule g).Bounded us := by
  refine .ifLook (pathPattern_bounded h) ?_ startsPathPattern_append
  refine .ifLook (plainPattern_bounded .word) ?_ (by simp)
  refine .ifLook (.bind (.verbatim ?_) fun _ => .pure) ?_ (by simp)
  · exact .sequence_cons .word (.sequence_cons h.anyPattern .sequence_nil)
  refine .ifLook (literalPattern_bounded h) ?_ (by simp)
  refine .ifLook (plainPattern_bounded (namePattern_bounded h)) ?_ (by simp)
  refine .ifLook (plainPattern_bounded ?_) ?_ (by simp)
  · exact .sequence_cons .op (.sequence_cons (.whenLook .word (by simp))
      (.sequence_cons h.anyPattern .sequence_nil))
  refine .ifLook (plainPattern_bounded .grouped) ?_ (by simp)
  refine .ifLook (plainPattern_bounded .grouped) ?_ (by simp)
  exact .ifLook (rangeEnd_bounded h false []) .expected (by simp [Look.and, Look.not])

theorem binary?_append (vs : List Tree) : binary? (vs ++ us) = binary? vs := by
  have hplain : ∀ o ∈ binaryOperators, ',' ∉ o.1.toList := by decide
  unfold binary?
  generalize binaryOperators = os at hplain ⊢
  induction os with
  | nil => rfl
  | cons o os ih =>
    rw [List.find?_cons, List.find?_cons, Look.op_append us vs (hplain o List.mem_cons_self),
      ih fun o ho => hplain o (List.mem_cons_of_mem _ ho)]

theorem startsAssign_append (vs : List Tree) : startsAssign (vs ++ us) = startsAssign vs := by
  simp [startsAssign, Look.and, Look.not]

theorem nextPrecedence_append (vs : List Tree) : nextPrecedence (vs ++ us) = nextPrecedence vs := by
  simp [nextPrecedence, binary?_append, startsAssign_append]

theorem rightOperand_bounded (h : g.Bounded us) (braces : Bool) (p : Precedence) :
    (rightOperand g braces p).Bounded us := by
  refine .bind (h.unary braces) fun first => .loop fun right => .ahead fun ts => ?_
  rw [nextPrecedence_append]
  refine .ite (.bind (h.operators braces _ right) fun more => .ahead fun after => ?_) .pure
  simp only [Trees.flat_append, Nat.add_right_cancel_iff]
  exact .ite .pure .pure

theorem rangeRest_bounded (h : g.Bounded us) (braces : Bool) : (rangeRest g braces).Bounded us := by
  have hps : ∀ p ∈ [Look.op ";", .and (.op ".") (.not (.op "..")), .op "?", .op "=>", .op "=",
      .op "+", .op "/", .op "%", .op "^", .op ">", .op "<=", .op "!=", .op "-=", .op "*=", .op "&=",
      .op "|=", .op "<<=", .word "as"], ∀ vs, p (vs ++ us) = p vs := by
    simp [Look.and, Look.not]
  have hrest (dots : List Tree) : (do
      let stop := (← rightOperand g braces .range).tokens
      return dots ++ if braces then stop else shielded stop).Bounded us :=
    .bind (rightOperand_bounded h braces _) fun _ => .pure
  refine .bind (rangeDots_bounded false) fun read => ?_
  obtain ⟨dots, closed⟩ := read
  cases closed with
  | true => exact fun vs close close' left => hrest dots vs close close' left
  | false =>
    refine .ifStop .pure (hrest dots) ?_ (fun vs hvs => ?_) fun vs hvs hstop => ?_
    · exact (Starved.bind (h.unary_starved braces)).bind
    · simp only [noRangeEnd, Look.stop_shown hps hvs, Look.group_append]
    · have hbrace : Look.group .brace vs = false := Look.group_hollow (by decide) hvs
      simp only [noRangeEnd, hbrace, Bool.and_false, Bool.or_false] at hstop
      rw [noRangeEnd, Look.stop_hollow hps hvs hstop, Bool.true_or]

/-- A dot that is not the first of two. -/
theorem dot_append (vs : List Tree) :
    Look.and (.op ".") (.not (.op "..")) (vs ++ us) = Look.and (.op ".") (.not (.op "..")) vs := by
  simp [Look.and, Look.not]

theorem checkCast_bounded : checkCast.Bounded us := by
  refine .ahead fun ts => ?_
  rw [dot_append]
  by_cases hdot : Look.and (.op ".") (.not (.op "..")) ts = true
  · have hts : Trees.shown ts ≠ [] :=
      Look.shown_of (fun _ => Look.op_hollow) (Bool.and_eq_true_iff.mp hdot).1
    have hcall : Look.and (.second .name) (.third (.or (.group .paren) (.op "::"))) (ts ++ us) =
        Look.and (.second .name) (.third (.or (.group .paren) (.op "::"))) ts := by
      refine Look.and_append (Look.second_append hts (by simp)) fun h => ?_
      refine Look.third_append hts (fun rest hrest => ?_) (by simp [Look.or])
      exact Look.shown_of (fun _ => Look.name_hollow) (Look.of_second h hrest)
    rw [if_pos hdot, if_pos hdot, Look.second_append hts (by simp), hcall]
    exact .ite .refuse (.ite .refuse .refuse)
  · rw [if_neg hdot, if_neg hdot, Look.op_append us ts (by decide), Look.group_append,
      Look.group_append]
    exact .ite .refuse (.ite .refuse (.ite .refuse .pure))

theorem operatorsRule_bounded (h : g.Bounded us) (braces : Bool) (floor : Precedence)
    (left : Expr) : (operatorsRule g braces floor left).Bounded us := by
  refine .loop fun left => .ite .pure (.ahead fun ts => ?_)
  rw [binary?_append, startsAssign_append, Look.op_append us ts (by decide), Look.word_append]
  split
  · refine .ite .pure (.ite .refuse_bind ?_)
    exact .bind .op fun _ => .bind (rightOperand_bounded h braces _) fun _ => .pure
  · refine .ite ?_ (.ite ?_ (.ite ?_ .pure))
    · exact .bind .op fun _ => .bind (rightOperand_bounded h braces _) fun _ => .pure
    · exact .bind (rangeRest_bounded h braces) fun _ => .pure
    · refine .bind .word fun _ => .bind (h.type false false) fun _ => ?_
      exact .bind checkCast_bounded fun _ => .pure

theorem exprAttrs_bounded : (exprAttrs g).Bounded us :=
  .bind (.manyWhile outerAttr_bounded (by simp [Look.and, Look.not])) fun _ => .pure

theorem ahead?_append (vs : List Tree) :
    Numeral.ahead? (vs ++ us) = (Numeral.ahead? vs).map fun (n, rest) => (n, rest ++ us) := by
  unfold Numeral.ahead?
  rw [literal?_append, operator?_append us vs (by decide)]
  cases literal? vs with
  | some found =>
    dsimp only [Option.map_some]
    cases Literal.number? found.1.toList <;> rfl
  | none =>
    cases operator? ['-'] vs with
    | none => rfl
    | some found =>
      dsimp only [Option.map_some, Option.map_none]
      rw [literal?_append]
      cases literal? found.2 with
      | none => rfl
      | some number =>
        dsimp only [Option.map_some]
        cases Literal.number? number.1.toList <;> rfl

theorem suffix_of_ahead? {vs rest : List Tree} {n : Numeral}
    (h : Numeral.ahead? vs = some (n, rest)) : Trees.visible rest <:+ Trees.visible vs := by
  unfold Numeral.ahead? at h
  split at h
  next hliteral =>
    rw [Option.map_eq_some_iff] at h
    obtain ⟨_, -, h⟩ := h
    cases h
    exact suffix_of_literal? hliteral
  next =>
    split at h
    next hminus =>
      split at h
      next hliteral =>
        rw [Option.map_eq_some_iff] at h
        obtain ⟨_, -, h⟩ := h
        cases h
        exact (suffix_of_literal? hliteral).trans (suffix_of_operator? hminus)
      next => cases h
    next => cases h

theorem member_bounded : member.Bounded us := by
  refine .ifLook (.bind .name fun _ => .pure) (fun vs => .ahead ?_) (by simp)
  rw [ahead?_append]
  cases hn : Numeral.ahead? vs with
  | none => exact Fits.expected vs
  | some found =>
    obtain ⟨n, rest⟩ := found
    dsimp only [Option.map_some]
    by_cases hfractional : n.isFractional = true
    · rw [if_pos hfractional, if_pos hfractional]
      exact Fits.expected_bind vs
    · rw [if_neg hfractional, if_neg hfractional]
      split
      · exact .bind (.advance (suffix_of_ahead? hn)) fun _ ws _ => Fits.pure ws
      · exact Fits.failAt vs

theorem selected_bounded (h : g.Bounded us) (left : List Tree) : (selected g left).Bounded us := by
  refine .ifLook (.bind .word fun _ => .pure) ?_ (by simp)
  refine .bind member_bounded fun (field, named) => ?_
  refine .bind (.look (by simp)) fun generic => .ite ?_ ?_
  · exact .bind (angledArgs_bounded h _) fun _ => .bind .grouped fun _ => .pure
  · exact .bind (.look (by simp)) fun _ => .ite (.bind .grouped fun _ => .pure) .pure

theorem dotted_bounded (h : g.Bounded us) (e : Expr) : (dotted g e).Bounded us := by
  refine .bind .op fun dot vs => .ahead ?_
  rw [ahead?_append]
  cases hn : Numeral.ahead? vs with
  | none => exact selected_bounded h _ vs
  | some found =>
    obtain ⟨n, rest⟩ := found
    dsimp only [Option.map_some]
    by_cases hfractional : n.isFractional = true
    · rw [if_pos hfractional, if_pos hfractional]
      split
      · refine .bind (.advance (suffix_of_ahead? hn)) fun _ ws _ => ?_
        exact Fits.ite (selected_bounded h _) .pure ws
      · exact Fits.failAt vs
    · rw [if_neg hfractional, if_neg hfractional]
      exact selected_bounded h _ vs

theorem trailers_bounded (h : g.Bounded us) (e : Expr) : (trailers g e).Bounded us := by
  refine .loop fun e => .ahead fun ts => ?_
  rw [Look.group_append, Look.group_append, dot_append, Look.op_append us ts (by decide)]
  refine .ite (.bind .enclosed fun _ => .pure) (.ite (.bind (dotted_bounded h e) fun _ => .pure) ?_)
  refine .ite (.bind .grouped fun _ => .pure) (.ite (.bind .op fun _ => .pure) .pure)

theorem pathRest_bounded (braces : Bool) (p : QPath) :
    (pathRest g braces p).Bounded us := by
  refine .bind (.look startsInvocation_append) fun _ => .ite ?_ ?_
  · exact .bind invocation_bounded fun _ => .pure
  · exact .bind (.look (by simp)) fun _ => .ite (.bind .grouped fun _ => .pure) .pure

theorem groupExpr_bounded (h : g.Bounded us) (braces : Bool) : (groupExpr g braces).Bounded us := by
  refine .bind .enclosed fun (inner, span) => ?_
  dsimp only
  split
  · refine .bind (moreSegments_bounded h true) fun more => .bind (pathRest_bounded braces _) ?_
    intro e
    split
    · exact .ite .pure .pure
    · exact .pure
  · exact .pure

theorem parenExpr_bounded : (parenExpr g).Bounded us := by
  refine .bind .enclosed fun (content, span) => ?_
  cases content with
  | inl e => exact .pure
  | inr tokens => exact .pure

omit [Trees.Tail us] in
theorem plainExpr_bounded {p : Reader (List Tree)} (hp : p.Bounded us) :
    (plainExpr p).Bounded us :=
  .bind hp fun _ => .pure

theorem closureArg_bounded (h : g.Bounded us) : (closureArg g).Bounded us := by
  refine .bind outerAttrTokens_bounded fun attrs => .bind h.pattern fun pattern => ?_
  exact .ifLook (.bind (.sequence_cons .op (.sequence_cons h.anyType .sequence_nil)) fun _ => .pure)
    .pure (by simp)

theorem closure_bounded (h : g.Bounded us) (braces : Bool) : (closure g braces).Bounded us := by
  have hfront : (sequence [binderWhen g, wordWhen "const", wordWhen "static", wordWhen "async",
      wordWhen "move", op "|", separatedTokens (.op "|") "," (closureArg g),
      op "|"]).Bounded us := by
    have hwhen (name : String) : (wordWhen name).Bounded us := .whenLook .word (by simp)
    refine .sequence_cons (binderWhen_bounded h) (.sequence_cons (hwhen _) ?_)
    refine .sequence_cons (hwhen _) (.sequence_cons (hwhen _) ?_)
    refine .sequence_cons (hwhen _) (.sequence_cons .op ?_)
    refine .sequence_cons (.separatedTokens (closureArg_bounded h) (by simp)) ?_
    exact .sequence_cons .op .sequence_nil
  refine .bind hfront fun _ => .ifLook ?_ (.bind (h.expr braces) fun _ => .pure) (by simp)
  exact .bind .op fun _ => .bind h.anyType fun _ => .bind (h.block false) fun _ => .pure

theorem startsExpr_append (vs : List Tree) : startsExpr (vs ++ us) = startsExpr vs := by
  simp [startsExpr, Look.and, Look.not]

theorem breakExpr_bounded (h : g.Bounded us) (braces : Bool) : (breakExpr g braces).Bounded us := by
  have hlabel (vs : List Tree) : Look.and .lifetime (.second (.op ":")) (vs ++ us) =
      Look.and .lifetime (.second (.op ":")) vs := by
    refine Look.and_append (by simp) fun h => ?_
    exact Look.second_append (Look.shown_of (fun _ => Look.lifetime_hollow) h) (by simp)
  refine .bind .word fun _ => .here fun _ _ => .ifLook ?_ ?_ hlabel
  · exact .bind h.anyExpr fun _ => .failAt_bind
  · refine .bind (.whenLook .lifetime (by simp)) fun _ => ?_
    exact .bind (.whenLook h.anyExpr (by simp [startsExpr_append])) fun _ => .pure

theorem optionalExpr_bounded (h : g.Bounded us) : (optionalExpr g).Bounded us :=
  .whenLook h.anyExpr startsExpr_append

theorem ifExpr_bounded (h : g.Bounded us) : (ifExpr g).Bounded us := by
  refine .loop fun done => .bind ?_ fun clause => .ifLook ?_ .pure (by simp)
  · exact .sequence_cons .word
      (.sequence_cons h.headExpr (.sequence_cons (h.block false) .sequence_nil))
  · refine .bind .word fun other => .ifLook .pure ?_ (by simp)
    exact .ifLook (.bind (h.block false) fun _ => .pure) .expected (by simp)

theorem forExpr_bounded (h : g.Bounded us) : (forExpr g).Bounded us := by
  refine .sequence_cons .word (.sequence_cons (patterns_bounded h) (.sequence_cons .word ?_))
  exact .sequence_cons h.headExpr (.sequence_cons (h.block true) .sequence_nil)

theorem whileExpr_bounded (h : g.Bounded us) : (whileExpr g).Bounded us :=
  .sequence_cons .word (.sequence_cons h.headExpr (.sequence_cons (h.block true) .sequence_nil))

theorem loopExpr_bounded (h : g.Bounded us) : (loopExpr g).Bounded us :=
  .sequence_cons .word (.sequence_cons (h.block true) .sequence_nil)

theorem labelled_bounded (h : g.Bounded us) : (labelled g).Bounded us := by
  refine .bind (.sequence_cons .lifetime (.sequence_cons .op .sequence_nil)) fun label => ?_
  refine .bind (.look (by simp)) fun _ => .bind (.look (by simp)) fun _ => ?_
  refine .bind (.look (by simp)) fun _ => .bind (.look (by simp)) fun _ => ?_
  refine .ite (.bind (whileExpr_bounded h) fun _ => .pure) ?_
  refine .ite (.bind (forExpr_bounded h) fun _ => .pure) ?_
  refine .ite (.bind (loopExpr_bounded h) fun _ => .pure) ?_
  exact .ite (.bind (h.block true) fun _ => .pure) .refuse_bind

theorem letExpr_bounded (h : g.Bounded us) (braces : Bool) : (letExpr g braces).Bounded us := by
  refine .bind ?_ fun _ => .bind (h.unary braces) fun left => ?_
  · exact .sequence_cons .word (.sequence_cons (patterns_bounded h)
      (.sequence_cons .op .sequence_nil))
  · exact .bind (h.operators braces _ left) fun _ => .pure

/-- `<` and one parameter, with nothing shown after it. -/
def LoneParam (vs : List Tree) : Prop :=
  ∃ rest last, Look.op "<" vs = true ∧ skipOne? vs = some rest ∧
    Look.or .lifetime .name rest = true ∧ skipOne? rest = some last ∧ Trees.shown last = []

/-- Whether `<` opens parameters is seen before the tokens behind, unless these stand right behind
the first parameter. -/
theorem startsParams_append {vs : List Tree} (h : ¬ LoneParam vs) :
    startsParams (vs ++ us) = startsParams vs := by
  refine Look.and_append (by simp) fun hlt => ?_
  have hvs := Look.shown_of (fun _ => Look.op_hollow) hlt
  have hsecond {q : Look} (hq : ∀ ts, q (ts ++ us) = q ts) :
      Look.second q (vs ++ us) = Look.second q vs :=
    Look.second_append hvs fun rest _ => hq rest
  refine Look.anyOf_append ?_
  simp only [List.forall_mem_cons, List.not_mem_nil, false_implies, implies_true, and_true]
  refine ⟨hsecond (by simp), hsecond (by simp), Look.and_append ?_ fun hparam => ?_,
    hsecond (by simp)⟩
  · rw [Look.or, Look.or, hsecond (by simp), hsecond (by simp)]
  · have hor {rest : List Tree} (hrest : skipOne? vs = some rest) :
        Look.or .lifetime .name rest = true := by
      rw [Look.or, Look.second, Look.second, hrest] at hparam
      exact hparam
    refine Look.third_append hvs (fun rest hrest => ?_) fun rest last hrest hlast => ?_
    · refine Look.shown_of (fun ts hts => ?_) (hor hrest)
      simp [Look.or, hts]
    · have hshown : Trees.shown last ≠ [] :=
        fun hhollow => h ⟨rest, last, hlt, hrest, hor hrest, hlast, hhollow⟩
      simp [Look.and, Look.not, Look.comma_append us hshown]

namespace LoneParam

variable {vs : List Tree}

theorem startsParams_eq (h : LoneParam vs) : startsParams vs = false := by
  obtain ⟨rest, last, -, hrest, hparam, hlast, hhollow⟩ := h
  have hsecond (q : Look) : Look.second q vs = q rest := by rw [Look.second, hrest]; rfl
  have hthird (q : Look) : Look.third q vs = q last := by
    rw [Look.third, hrest, Option.bind_some, hlast]
    rfl
  have hrest : Look.op ">" rest = false ∧ Look.op "#" rest = false ∧
      Look.word "const" rest = false := by
    rw [Look.or, Bool.or_eq_true] at hparam
    obtain hlifetime | hname := hparam
    · exact ⟨Look.op_of_lifetime hlifetime _, Look.op_of_lifetime hlifetime _,
        Look.word_of_lifetime hlifetime _⟩
    · obtain ⟨⟨i, r⟩, hi, -⟩ := (Option.any_eq_true _ _).mp hname
      refine ⟨Look.op_of_word? hi _, Look.op_of_word? hi _, ?_⟩
      rw [Look.word_of_word? hi]
      refine beq_false_of_ne fun hconst => ?_
      rw [Look.name_of_word? hi, hconst] at hname
      cases hname
  simp [startsParams, Look.and, hsecond, hthird, hrest, hhollow]

/-- No word among them is followed by anything. -/
theorem ident_last (h : LoneParam vs) {name : String} {span : Span} {ws : List Tree}
    (hws : .ident name span :: ws <:+ Trees.visible vs) : ws = [] := by
  obtain ⟨rest, last, hlt, hrest, hparam, hlast, hhollow⟩ := h
  have hnil := Trees.visible_of_hollow hhollow
  cases hp : punct? vs with
  | none => simp [Look.op, operator?, hp] at hlt
  | some found =>
    obtain ⟨c, joint, place, after⟩ := found
    obtain rfl : after = rest := Option.some.inj ((skipOne?_of_punct? hp).symm.trans hrest)
    rw [visible_of_punct? hp] at hws
    rw [Look.or, Bool.or_eq_true] at hparam
    obtain hparam | hparam := hparam
    · obtain ⟨⟨tick, i, r⟩, hi⟩ := Option.isSome_iff_exists.mp hparam
      obtain rfl : r = last := Option.some.inj ((skipOne?_of_lifetime? hi).symm.trans hlast)
      rw [visible_of_lifetime? hi, hnil] at hws
      exact (show _ ∧ ws = [] by simpa [List.suffix_cons_iff, Ident.tree] using hws).2
    · obtain ⟨⟨i, r⟩, hi, -⟩ := (Option.any_eq_true _ _).mp hparam
      obtain rfl : r = last := Option.some.inj ((skipOne?_of_word? hi).symm.trans hlast)
      rw [visible_of_word? hi, hnil] at hws
      exact (show _ ∧ ws = [] by simpa [List.suffix_cons_iff, Ident.tree] using hws).2

end LoneParam

theorem forExpr_fails (h : g.Bounded us) {vs rest : List Tree} {i : Ident}
    (hvs : word? vs = some (i, rest)) (hrest : LoneParam rest) : (forExpr g).FailsOn vs := by
  intro close left
  cases hr : forExpr g ⟨vs, close, left⟩ with
  | fail e => exact ⟨e, rfl⟩
  | ok tokens t =>
    obtain ⟨_, t₁, hfor, hr⟩ := bind_eq_ok.mp hr
    obtain ⟨_, _, hr, -⟩ := bind_eq_ok.mp hr
    obtain ⟨_, t₂, hpattern, hr⟩ := bind_eq_ok.mp hr
    obtain ⟨_, _, hr, -⟩ := bind_eq_ok.mp hr
    obtain ⟨_, t₃, hin, hr⟩ := bind_eq_ok.mp hr
    obtain ⟨_, _, hr, -⟩ := bind_eq_ok.mp hr
    obtain ⟨_, t₄, hhead, -⟩ := bind_eq_ok.mp hr
    obtain ⟨_, hword⟩ := word_ok hfor
    obtain ⟨-, rfl⟩ : _ ∧ rest = t₁.rest := by simpa using hvs.symm.trans hword
    obtain ⟨_, hword⟩ := word_ok hin
    have hsuffix := (patterns_bounded h).suffix hpattern
    rw [visible_of_word? hword] at hsuffix
    have hhollow : Trees.shown t₃.rest = [] :=
      hollow_of_visible (hrest.ident_last hsuffix)
    obtain ⟨e, he⟩ := (h.expr_starved false).bind t₃.rest hhollow t₃.close t₃.leftover
    exact absurd (hhead.symm.trans he) (by simp)

theorem startsBinder_of_word? {vs rest : List Tree} {i : Ident} (hi : word? vs = some (i, rest)) :
    startsBinder vs = (i.name == "for" && startsParams rest) := by
  rw [startsBinder, Look.and, Look.word_of_word? hi, Look.second, skipOne?_of_word? hi]
  rfl

/-- Where the tokens behind decide between a closure and a loop, they stand behind `for`, `<` and
one parameter. -/
theorem startsBinder_append {vs : List Tree} (h : startsBinder (vs ++ us) ≠ startsBinder vs) :
    ∃ i rest, word? vs = some (i, rest) ∧ i.name = "for" ∧ LoneParam rest := by
  cases hvs : word? vs with
  | none =>
    have hword : Look.word "for" vs = false := by rw [Look.word, hvs]; rfl
    refine absurd ?_ h
    simp [startsBinder, Look.and, hword]
  | some found =>
    obtain ⟨i, rest⟩ := found
    have hvs' : word? (vs ++ us) = some (i, rest ++ us) := by rw [word?_append, hvs]; rfl
    rw [startsBinder_of_word? hvs, startsBinder_of_word? hvs'] at h
    refine ⟨i, rest, rfl, ?_, ?_⟩
    · cases hname : i.name == "for" with
      | true => exact beq_iff_eq.mp hname
      | false =>
        rw [hname] at h
        exact absurd rfl h
    · by_cases hlone : LoneParam rest
      · exact hlone
      · rw [startsParams_append hlone] at h
        exact absurd rfl h

/-- A word, and a question about the token after it. -/
theorem word_second_append {q : Look} (name : String) (hq : ∀ ts, q (ts ++ us) = q ts)
    (vs : List Tree) :
    Look.and (.word name) (.second q) (vs ++ us) = Look.and (.word name) (.second q) vs := by
  refine Look.and_append (by simp) fun h => ?_
  exact Look.second_append (Look.shown_of (fun _ => Look.word_hollow) h) fun rest _ => hq rest

theorem startsClosure_append {vs : List Tree} (h : startsBinder (vs ++ us) = startsBinder vs) :
    startsClosure (vs ++ us) = startsClosure vs := by
  have hword {name : String} (hname : Look.word name vs = true) {q : Look}
      (hq : ∀ ts, q (ts ++ us) = q ts) : Look.second q (vs ++ us) = Look.second q vs :=
    Look.second_append (Look.shown_of (fun _ => Look.word_hollow) hname) fun rest _ => hq rest
  refine Look.anyOf_append ?_
  simp only [List.forall_mem_cons, List.not_mem_nil, false_implies, implies_true, and_true]
  refine ⟨by simp, by simp, h, ?_, by simp, ?_⟩
  · refine Look.and_append (by simp) fun hconst => ?_
    rw [Look.not, Look.not, hword hconst (by simp)]
  · refine Look.and_append (by simp) fun hasync => ?_
    rw [Look.or, Look.or, hword hasync (by simp), hword hasync (by simp)]

theorem startsPathExpr_append (vs : List Tree) : startsPathExpr (vs ++ us) = startsPathExpr vs := by
  have htry : Look.and (.word "try") (.or (.second (.op "!")) (.second (.op "::"))) (vs ++ us) =
      Look.and (.word "try") (.or (.second (.op "!")) (.second (.op "::"))) vs := by
    refine Look.and_append (by simp) fun h => ?_
    have hvs := Look.shown_of (fun _ => Look.word_hollow) h
    rw [Look.or, Look.or, Look.second_append hvs (by simp), Look.second_append hvs (by simp)]
  simp [startsPathExpr, htry]

theorem blockExpr?_append {vs : List Tree} (h : startsBinder (vs ++ us) = startsBinder vs) :
    blockExpr? g (vs ++ us) = blockExpr? g vs := by
  simp only [blockExpr?, Look.word_append, Look.group_append, h,
    word_second_append "try" (Look.group_append us · .brace),
    word_second_append "const" (Look.group_append us · .brace)]

theorem blockExpr?_bounded (h : g.Bounded us) {vs : List Tree} {p : Reader (List Tree)}
    (hp : blockExpr? g vs = some p) : p.Bounded us := by
  have hheaded (name : String) : (sequence [word name, g.headExpr,
      grouped .brace (sequence [innerAttrTokens g, manyTokens (.not .ended) g.arm])]).Bounded us :=
    .sequence_cons .word (.sequence_cons h.headExpr (.sequence_cons .grouped .sequence_nil))
  have hblock (name : String) (inner : Bool) : (sequence [word name, g.block inner]).Bounded us :=
    .sequence_cons .word (.sequence_cons (h.block inner) .sequence_nil)
  unfold blockExpr? at hp
  repeat' split at hp
  all_goals cases hp
  · exact ifExpr_bounded h
  · exact whileExpr_bounded h
  · exact forExpr_bounded h
  · exact loopExpr_bounded h
  · exact hheaded _
  · exact hblock _ _
  · exact hblock _ _
  · exact hblock _ _
  · exact h.block true

theorem startsAsync_append (vs : List Tree) :
    Look.and (.word "async") (.or (.second (.group .brace))
      (.and (.second (.word "move")) (.third (.group .brace)))) (vs ++ us) =
    Look.and (.word "async") (.or (.second (.group .brace))
      (.and (.second (.word "move")) (.third (.group .brace)))) vs := by
  refine Look.and_append (by simp) fun h => ?_
  have hvs := Look.shown_of (fun _ => Look.word_hollow) h
  have hmove : Look.and (.second (.word "move")) (.third (.group .brace)) (vs ++ us) =
      Look.and (.second (.word "move")) (.third (.group .brace)) vs := by
    refine Look.and_append (Look.second_append hvs (by simp)) fun hsecond => ?_
    refine Look.third_append hvs (fun rest hrest => ?_) (by simp)
    exact Look.shown_of (fun _ => Look.word_hollow) (Look.of_second hsecond hrest)
  rw [Look.or, Look.or, Look.second_append hvs (by simp), hmove]

/-- `for` where it is taken for a loop. -/
theorem atom_for (braces : Bool) {vs rest : List Tree} {i : Ident} (hi : word? vs = some (i, rest))
    (hname : i.name = "for") (hparams : startsParams rest = false)
    (hgroup : Look.group .invisible vs = false) (h : (forExpr g).FailsOn vs) :
    (atom g braces).FailsOn vs := by
  intro close left
  obtain ⟨e, he⟩ := h close left
  refine ⟨e, ?_⟩
  have hword := Look.word_of_word? hi
  have hop := Look.op_of_word? hi
  have hparen : Look.group .paren vs = false := Look.group_of_word? hi (by decide)
  have hbracket : Look.group .bracket vs = false := Look.group_of_word? hi (by decide)
  have hkey : Look.name vs = false := by rw [Look.name_of_word? hi, hname]; rfl
  have hliteral : Look.literal vs = false := Look.literal_of_word? hi (by rw [hname]; decide)
  have hbinder : startsBinder vs = false := by
    rw [startsBinder_of_word? hi, hparams, Bool.and_false]
  have hclosure : startsClosure vs = false := by
    simp [startsClosure, hbinder, hword, hop, hname, Look.and]
  have hpath : startsPathExpr vs = false := by
    simp [startsPathExpr, hkey, hword, hop, hname, Look.and]
  have hblock : blockExpr? g vs = some (forExpr g) := by
    simp [blockExpr?, hbinder, hword, hname]
  have hatom : atom g braces ⟨vs, close, left⟩ =
      (do return Expr.other .blockLike (← forExpr g)) ⟨vs, close, left⟩ := by
    change (if Look.group .invisible vs then _ else _ : Reader Expr) _ = _
    simp [hgroup, hliteral, hclosure, hpath, hparen, hbracket, hblock, hword, hname, Look.and,
      startsBuiltin]
  rw [hatom]
  simp only [Bind.bind, he]

theorem atom_bounded (h : g.Bounded us) (braces : Bool) : (atom g braces).Bounded us := by
  intro vs
  -- what stands behind decides only between a closure and a loop, both of which start with `for <`
  by_cases hbinder : startsBinder (vs ++ us) = startsBinder vs
  · refine .ahead ?_
    rw [Look.group_append, Look.literal_append, startsAsync_append,
      word_second_append "try" (Look.group_append us · .brace), startsClosure_append hbinder,
      startsBuiltin_append, startsPathExpr_append, Look.group_append, Look.word_append,
      Look.word_append, Look.word_append, Look.word_append, Look.group_append, Look.word_append,
      Look.word_append, blockExpr?_append hbinder, Look.op_append us vs (by decide),
      Look.word_append, Look.lifetime_append]
    have hwords {ps : List (Reader (List Tree))} (hps : (sequence ps).Bounded us) (form : Form) :
        (do return Expr.other form (← sequence ps)).Bounded us :=
      .bind hps fun _ => .pure
    refine Fits.ite (groupExpr_bounded h braces) (.ite (plainExpr_bounded .literal) ?_) vs
    refine .ite (plainExpr_bounded ?_) (.ite (hwords ?_ _) ?_)
    · exact .sequence_cons .word (.sequence_cons (.whenLook .word (by simp))
        (.sequence_cons (h.block false) .sequence_nil))
    · exact .sequence_cons .word (.sequence_cons (h.block false) .sequence_nil)
    refine .ite (plainExpr_bounded (closure_bounded h braces)) ?_
    refine .ite (.bind (.verbatim builtin_bounded) fun _ => .pure) ?_
    refine .ite (.bind (qpath_bounded h true) fun p => pathRest_bounded braces p) ?_
    refine .ite parenExpr_bounded (.ite (plainExpr_bounded (breakExpr_bounded h braces)) ?_)
    refine .ite (plainExpr_bounded ?_) (.ite (plainExpr_bounded ?_) ?_)
    · exact .sequence_cons .word (.sequence_cons (.whenLook .lifetime (by simp)) .sequence_nil)
    · exact .sequence_cons .word (.sequence_cons (optionalExpr_bounded h) .sequence_nil)
    refine .ite (.bind (.verbatim ?_) fun _ => .pure) (.ite (plainExpr_bounded .grouped) ?_)
    · exact .sequence_cons .word (.sequence_cons h.anyExpr .sequence_nil)
    refine .ite (plainExpr_bounded (letExpr_bounded h braces)) (.ite (plainExpr_bounded ?_) ?_)
    · exact .sequence_cons .word (.sequence_cons (optionalExpr_bounded h) .sequence_nil)
    split
    next hp => exact .bind (blockExpr?_bounded h hp) fun _ => .pure
    next =>
      refine .ite (.bind (rangeRest_bounded h braces) fun _ => .pure) ?_
      refine .ite (plainExpr_bounded .word) (.ite (.bind (labelled_bounded h) fun _ => .pure) ?_)
      exact .refuse
  · -- alone it is taken for a loop, and that fails
    have hus : us ≠ [] := by
      rintro rfl
      exact hbinder (by rw [List.append_nil])
    obtain ⟨i, rest, hi, hname, hlone⟩ := startsBinder_append hbinder
    cases hgroup : Look.group .invisible vs with
    | true =>
      refine .ahead ?_
      rw [if_pos hgroup, if_pos ((Look.group_append us vs _).trans hgroup)]
      exact groupExpr_bounded h braces vs
    | false =>
      exact .failing hus
        (atom_for braces hi hname hlone.startsParams_eq hgroup (forExpr_fails h hi hlone))

theorem unaryRule_bounded (h : g.Bounded us) (braces : Bool) : (unaryRule g braces).Bounded us := by
  have hraw (vs : List Tree) :
      Look.and (.word "raw") (.or (.second (.word "mut")) (.second (.word "const"))) (vs ++ us) =
        Look.and (.word "raw") (.or (.second (.word "mut")) (.second (.word "const"))) vs := by
    refine Look.and_append (by simp) fun h => ?_
    have hvs := Look.shown_of (fun _ => Look.word_hollow) h
    rw [Look.or, Look.or, Look.second_append hvs (by simp), Look.second_append hvs (by simp)]
  refine .ahead fun begins => .bind exprAttrs_bounded fun attrs => .ahead fun ts => ?_
  rw [Look.group_append, Look.op_append us ts (by decide), Look.op_append us ts (by decide),
    Look.op_append us ts (by decide), Look.anyOf_append (by simp)]
  refine .ite ?_ (.ite ?_ ?_)
  · refine .bind .op fun _ => .bind (.whenLook .word hraw) fun _ => ?_
    refine .bind (.whenLook .word (by simp)) fun _ => .ite ?_ ?_
    · exact .bind .pure fun _ => .bind (h.unary braces) fun _ => .pure
    · exact .bind .word fun _ => .bind (h.unary braces) fun _ => .pure
  · refine .ite ?_ (.ite ?_ ?_)
    all_goals exact .bind .op fun _ => .bind (h.unary braces) fun _ => .pure
  · refine .bind (atom_bounded h braces) fun e => .bind (trailers_bounded h e) fun e => ?_
    refine .ite .failAt (.ite (.ahead fun after => ?_) .pure)
    rw [Trees.between_append]
    exact .pure

omit [Trees.Tail us] in
theorem exprRule_bounded (h : g.Bounded us) (braces : Bool) : (exprRule g braces).Bounded us :=
  .bind (h.unary braces) fun left => h.operators braces .jump left

theorem blockRule_bounded (inner : Bool) : (blockRule g inner).Bounded us := .grouped

section Starved

variable {vs : List Tree}

omit [Trees.Tail us]

theorem groupExpr_fails (h : ∀ braces, (g.expr braces).Starved) (braces : Bool)
    (hvs : Trees.shown vs = []) : (groupExpr g braces).FailsOn vs := by
  have henclosed : (enclosed .invisible (g.expr true)).FailsOn vs := by
    intro close left
    cases hgroup : group? .invisible vs with
    | none =>
      simp only [enclosed, hgroup]
      exact ⟨_, rfl⟩
    | some found =>
      obtain ⟨inner, span, rest⟩ := found
      obtain ⟨e, he⟩ := h true inner (hollow_of_group? hgroup hvs) span.closing left
      exact ⟨e, by simp only [enclosed, hgroup, he]⟩
  exact henclosed.bind

theorem atom_fails (h : ∀ braces, (g.expr braces).Starved) (braces : Bool)
    (hvs : Trees.shown vs = []) : (atom g braces).FailsOn vs := by
  refine .ahead ?_
  cases hgroup : Look.group .invisible vs with
  | true => exact groupExpr_fails h braces hvs
  | false =>
    have hbinder : startsBinder vs = false := by simp [startsBinder, Look.and, hvs]
    have hclosure : startsClosure vs = false := by simp [startsClosure, Look.and, hbinder, hvs]
    have hpath : startsPathExpr vs = false := by simp [startsPathExpr, Look.and, hvs]
    have hblock : blockExpr? g vs = none := by simp [blockExpr?, Look.and, hvs]
    simp only [hclosure, hpath, hblock, Look.and, startsBuiltin, Look.literal_hollow hvs,
      Look.word_hollow hvs, Look.op_hollow hvs, Look.lifetime_hollow hvs,
      Look.group_hollow (by decide : Delim.paren ≠ .invisible) hvs,
      Look.group_hollow (by decide : Delim.bracket ≠ .invisible) hvs, Bool.false_and]
    exact Starved.refuse vs hvs

theorem unaryRule_starved (h : ∀ braces, (g.expr braces).Starved) (braces : Bool) :
    (unaryRule g braces).Starved := by
  intro vs hvs
  have hattrs : Reads (exprAttrs g) vs [] vs := by
    refine .bind (a := []) ?_ .pure
    exact .one (.look (c := false) (by simp [Look.and, hvs]) .pure)
  refine .ahead (.of_reads hattrs (.ahead ?_))
  simp only [Look.op_hollow hvs, Look.anyOf_cons, Look.anyOf_nil, Bool.or_false, Bool.and_false]
  exact (atom_fails h braces hvs).bind

theorem exprRule_starved (h : ∀ braces, (g.unary braces).Starved) (braces : Bool) :
    (exprRule g braces).Starved :=
  (h braces).bind

end Starved

end Reader

namespace Rules

theorem stuck_bounded (us : List Tree) : stuck.Bounded us where
  type _ _ := .refuse
  bound _ _ := .refuse
  bound_starved _ _ := .refuse
  expr _ := .refuse
  expr_starved _ := .refuse
  unary _ := .refuse
  unary_starved _ := .refuse
  operators _ _ _ := .refuse
  pattern := .refuse
  block _ := .refuse

end Rules

theorem rules_bounded (us : List Tree) [Trees.Tail us] (depth : Nat) :
    (rules depth).Bounded us := by
  induction depth with
  | zero => exact Rules.stuck_bounded us
  | succ depth ih =>
    exact {
      type := Reader.typeRule_bounded ih
      bound := Reader.boundRule_bounded ih
      bound_starved := Reader.boundRule_starved
      expr := Reader.exprRule_bounded ih
      expr_starved := Reader.exprRule_starved ih.unary_starved
      unary := Reader.unaryRule_bounded ih
      unary_starved := Reader.unaryRule_starved ih.expr_starved
      operators := Reader.operatorsRule_bounded ih
      pattern := Reader.patternRule_bounded ih
      block := Reader.blockRule_bounded }

end Delegation
