import Delegation.Proofs.Depth.Types
import Delegation.Syntax.Grammar

namespace Delegation

namespace Reader

variable {g g' : Rules}

@[gcongr] theorem patternCases_mono (h : g.Below g') : patternCases g ≤ patternCases g' := by
  unfold patternCases
  simp only [sequence]
  gcongr

@[gcongr] theorem patterns_mono (h : g.Below g') : patterns g ≤ patterns g' := by
  unfold patterns
  gcongr

@[gcongr] theorem rangeBound_mono (h : g.Below g') : rangeBound g ≤ rangeBound g' := by
  unfold rangeBound
  simp only [sequence]
  gcongr

@[gcongr] theorem rangeEnd_mono (h : g.Below g') (old : Bool) (start : List Tree) :
    rangeEnd g old start ≤ rangeEnd g' old start := by
  unfold rangeEnd
  dsimp only
  gcongr

@[gcongr] theorem slicePattern_mono (h : g.Below g') : slicePattern g ≤ slicePattern g' := by
  unfold slicePattern
  gcongr

@[gcongr] theorem fieldPattern_mono (h : g.Below g') : fieldPattern g ≤ fieldPattern g' := by
  unfold fieldPattern
  dsimp only
  gcongr

@[gcongr] theorem structPattern_mono (h : g.Below g') : structPattern g ≤ structPattern g' := by
  unfold structPattern
  gcongr

@[gcongr] theorem pathPattern_mono (h : g.Below g') : pathPattern g ≤ pathPattern g' := by
  unfold pathPattern
  dsimp only
  gcongr

@[gcongr] theorem namePattern_mono (h : g.Below g') : namePattern g ≤ namePattern g' := by
  unfold namePattern
  simp only [sequence]
  gcongr

@[gcongr] theorem literalPattern_mono (h : g.Below g') : literalPattern g ≤ literalPattern g' := by
  unfold literalPattern
  gcongr

@[gcongr] theorem patternRule_mono (h : g.Below g') : patternRule g ≤ patternRule g' := by
  unfold patternRule
  simp only [sequence]
  gcongr

@[gcongr] theorem rightOperand_mono (h : g.Below g') (braces : Bool) (p : Precedence) :
    rightOperand g braces p ≤ rightOperand g' braces p := by
  unfold rightOperand
  dsimp only
  gcongr

@[gcongr] theorem rangeRest_mono (h : g.Below g') (braces : Bool) :
    rangeRest g braces ≤ rangeRest g' braces := by
  unfold rangeRest
  dsimp only
  gcongr

@[gcongr] theorem operatorsRule_mono (h : g.Below g') (braces : Bool) (floor : Precedence)
    (left : Expr) : operatorsRule g braces floor left ≤ operatorsRule g' braces floor left := by
  unfold operatorsRule
  dsimp only
  gcongr
  split
  next => gcongr
  next => gcongr

@[gcongr] theorem exprAttrs_mono (h : g.Below g') : exprAttrs g ≤ exprAttrs g' := by
  unfold exprAttrs
  gcongr

@[gcongr] theorem exprList_mono (h : g.Below g') : exprList g ≤ exprList g' := by
  unfold exprList
  gcongr

@[gcongr] theorem selected_mono (h : g.Below g') (left : List Tree) :
    selected g left ≤ selected g' left := by
  unfold selected
  dsimp only
  gcongr

@[gcongr] theorem dotted_mono (h : g.Below g') (e : Expr) : dotted g e ≤ dotted g' e := by
  unfold dotted
  dsimp only
  gcongr
  split
  next =>
    gcongr
    split
    next => gcongr
    next => exact le_refl _
  next => gcongr

@[gcongr] theorem trailers_mono (h : g.Below g') (e : Expr) : trailers g e ≤ trailers g' e := by
  unfold trailers
  gcongr

@[gcongr] theorem fieldValue_mono (h : g.Below g') : fieldValue g ≤ fieldValue g' := by
  unfold fieldValue
  dsimp only
  gcongr

@[gcongr] theorem structLiteral_mono (h : g.Below g') : structLiteral g ≤ structLiteral g' := by
  unfold structLiteral
  gcongr

@[gcongr] theorem pathRest_mono (h : g.Below g') (braces : Bool) (p : QPath) :
    pathRest g braces p ≤ pathRest g' braces p := by
  unfold pathRest
  dsimp only
  gcongr

@[gcongr] theorem groupExpr_mono (h : g.Below g') (braces : Bool) :
    groupExpr g braces ≤ groupExpr g' braces := by
  unfold groupExpr
  gcongr with content
  obtain ⟨inner, span⟩ := content
  dsimp only
  split
  next => gcongr
  next => exact le_refl _

@[gcongr] theorem parenExpr_mono (h : g.Below g') : parenExpr g ≤ parenExpr g' := by
  unfold parenExpr
  gcongr

@[gcongr] theorem arrayExpr_mono (h : g.Below g') : arrayExpr g ≤ arrayExpr g' := by
  unfold arrayExpr
  gcongr

@[gcongr] theorem closureArg_mono (h : g.Below g') : closureArg g ≤ closureArg g' := by
  unfold closureArg
  simp only [sequence]
  gcongr

@[gcongr] theorem closure_mono (h : g.Below g') (braces : Bool) :
    closure g braces ≤ closure g' braces := by
  unfold closure
  simp only [sequence]
  gcongr

@[gcongr] theorem breakExpr_mono (h : g.Below g') (braces : Bool) :
    breakExpr g braces ≤ breakExpr g' braces := by
  unfold breakExpr
  dsimp only
  gcongr
  all_goals exact whenLook_mono (Rules.anyExpr_mono h)

@[gcongr] theorem optionalExpr_mono (h : g.Below g') : optionalExpr g ≤ optionalExpr g' := by
  unfold optionalExpr
  gcongr

@[gcongr] theorem ifExpr_mono (h : g.Below g') : ifExpr g ≤ ifExpr g' := by
  unfold ifExpr
  simp only [sequence]
  gcongr

@[gcongr] theorem forExpr_mono (h : g.Below g') : forExpr g ≤ forExpr g' := by
  unfold forExpr
  simp only [sequence]
  gcongr

@[gcongr] theorem whileExpr_mono (h : g.Below g') : whileExpr g ≤ whileExpr g' := by
  unfold whileExpr
  simp only [sequence]
  gcongr

@[gcongr] theorem loopExpr_mono (h : g.Below g') : loopExpr g ≤ loopExpr g' := by
  unfold loopExpr
  simp only [sequence]
  gcongr

@[gcongr] theorem labelled_mono (h : g.Below g') : labelled g ≤ labelled g' := by
  unfold labelled
  dsimp only
  gcongr

@[gcongr] theorem letExpr_mono (h : g.Below g') (braces : Bool) :
    letExpr g braces ≤ letExpr g' braces := by
  unfold letExpr
  simp only [sequence]
  gcongr

theorem blockExpr?_mono (h : g.Below g') (ts : List Tree) :
    Option.Rel (· ≤ ·) (blockExpr? g ts) (blockExpr? g' ts) := by
  unfold blockExpr?
  simp only [sequence]
  repeat' split
  all_goals constructor
  all_goals gcongr

@[gcongr] theorem atom_mono (h : g.Below g') (braces : Bool) : atom g braces ≤ atom g' braces := by
  unfold atom
  simp only [sequence]
  gcongr with ts
  have hblock := blockExpr?_mono h ts
  generalize blockExpr? g ts = p at hblock ⊢
  generalize blockExpr? g' ts = q at hblock ⊢
  obtain hp | _ := hblock
  · dsimp only
    gcongr
  · dsimp only
    gcongr

@[gcongr] theorem unaryRule_mono (h : g.Below g') (braces : Bool) :
    unaryRule g braces ≤ unaryRule g' braces := by
  unfold unaryRule
  dsimp only
  gcongr

@[gcongr] theorem exprRule_mono (h : g.Below g') (braces : Bool) :
    exprRule g braces ≤ exprRule g' braces := by
  unfold exprRule
  gcongr

@[gcongr] theorem leadingExpr_mono (h : g.Below g') : leadingExpr g ≤ leadingExpr g' := by
  unfold leadingExpr
  dsimp only
  gcongr with attrs ts
  have hblock := blockExpr?_mono h ts
  generalize blockExpr? g ts = p at hblock ⊢
  generalize blockExpr? g' ts = q at hblock ⊢
  obtain hp | _ := hblock
  · dsimp only
    gcongr
  · dsimp only
    gcongr

@[gcongr] theorem armRule_mono (h : g.Below g') : armRule g ≤ armRule g' := by
  unfold armRule
  simp only [sequence]
  gcongr

@[gcongr] theorem receiver_mono (h : g.Below g') : receiver g ≤ receiver g' := by
  unfold receiver
  simp only [sequence]
  gcongr

@[gcongr] theorem functionArgs_mono (h : g.Below g') : functionArgs g ≤ functionArgs g' := by
  unfold functionArgs
  dsimp only
  gcongr

@[gcongr] theorem signature_mono (h : g.Below g') (safe : Bool) :
    signature g safe ≤ signature g' safe := by
  unfold signature
  gcongr

@[gcongr] theorem letStatement_mono (h : g.Below g') : letStatement g ≤ letStatement g' := by
  unfold letStatement
  simp only [sequence]
  gcongr

@[gcongr] theorem statement_mono (h : g.Below g') : statement g ≤ statement g' := by
  unfold statement
  dsimp only
  gcongr

@[gcongr] theorem statements_mono (h : g.Below g') : statements g ≤ statements g' := by
  unfold statements
  gcongr

@[gcongr] theorem blockRule_mono (h : g.Below g') (inner : Bool) :
    blockRule g inner ≤ blockRule g' inner := by
  unfold blockRule
  simp only [sequence]
  gcongr

@[gcongr] theorem useTreeRule_mono (h : g.Below g') (root : Bool) :
    useTreeRule g root ≤ useTreeRule g' root := by
  unfold useTreeRule
  dsimp only
  gcongr

@[gcongr] theorem useItem_mono (h : g.Below g') : useItem g ≤ useItem g' := by
  unfold useItem
  gcongr

@[gcongr] theorem typeAlias_mono (h : g.Below g') (place : ClausePlace) :
    typeAlias g place ≤ typeAlias g' place := by
  unfold typeAlias
  simp only [sequence]
  gcongr

@[gcongr] theorem constRest_mono (h : g.Below g') (others : List String) :
    constRest g others ≤ constRest g' others := by
  unfold constRest
  simp only [sequence]
  gcongr

@[gcongr] theorem implMember_mono (h : g.Below g') : implMember g ≤ implMember g' := by
  unfold implMember
  dsimp only
  gcongr

@[gcongr] theorem traitMember_mono (h : g.Below g') : traitMember g ≤ traitMember g' := by
  unfold traitMember
  dsimp only
  gcongr

@[gcongr] theorem foreignMember_mono (h : g.Below g') : foreignMember g ≤ foreignMember g' := by
  unfold foreignMember
  simp only [sequence]
  gcongr

@[gcongr] theorem bodyOf_mono (h : g.Below g') {p q : Reader (List Tree)} (hp : p ≤ q) :
    bodyOf g p ≤ bodyOf g' q := by
  unfold bodyOf
  simp only [sequence]
  gcongr

@[gcongr] theorem foreignItems_mono (h : g.Below g') : foreignItems g ≤ foreignItems g' := by
  unfold foreignItems
  simp only [sequence]
  gcongr

@[gcongr] theorem traitRest_mono (h : g.Below g') : traitRest g ≤ traitRest g' := by
  unfold traitRest
  dsimp only
  gcongr

@[gcongr] theorem traitItem_mono (h : g.Below g') : traitItem g ≤ traitItem g' := by
  unfold traitItem
  dsimp only
  gcongr

@[gcongr] theorem implItem_mono (h : g.Below g') (attrs : List Tree) :
    implItem g attrs ≤ implItem g' attrs := by
  unfold implItem
  dsimp only
  gcongr
  all_goals split <;> gcongr

@[gcongr] theorem moduleItem_mono (h : g.Below g') (attrs : List Attr) :
    moduleItem g attrs ≤ moduleItem g' attrs := by
  unfold moduleItem
  dsimp only
  gcongr

@[gcongr] theorem staticItem_mono (h : g.Below g') : staticItem g ≤ staticItem g' := by
  unfold staticItem
  simp only [sequence]
  gcongr

@[gcongr] theorem implOrWritten_mono (h : g.Below g') (begins : List Tree) (attrs : List Attr) :
    implOrWritten g begins attrs ≤ implOrWritten g' begins attrs := by
  unfold implOrWritten
  gcongr

@[gcongr] theorem itemRule_mono (h : g.Below g') : itemRule g ≤ itemRule g' := by
  unfold itemRule
  dsimp only
  gcongr

end Reader

theorem rules_below_succ (depth : Nat) : (rules depth).Below (rules (depth + 1)) := by
  induction depth with
  -- the first rules are stuck and give way to any others
  | zero => exact Rules.stuck_below _
  | succ depth ih =>
    exact {
      type := Reader.typeRule_mono ih
      bound := Reader.boundRule_mono ih
      expr := Reader.exprRule_mono ih
      unary := Reader.unaryRule_mono ih
      operators := Reader.operatorsRule_mono ih
      pattern := Reader.patternRule_mono ih
      block := Reader.blockRule_mono ih
      arm := Reader.armRule_mono ih
      item := Reader.itemRule_mono ih
      useTree := Reader.useTreeRule_mono ih }

/-- Rules that are nested deeper do the same, and more where the others run out of depth. -/
theorem rules_below {m n : Nat} (h : m ≤ n) : (rules m).Below (rules n) := by
  induction h with
  | refl => exact .refl _
  | step _ ih => exact ih.trans (rules_below_succ _)

theorem rulesFor_below {ts us : List Tree} (h : Trees.weight ts ≤ Trees.weight us) :
    (rulesFor ts).Below (rulesFor us) :=
  rules_below (by omega)

end Delegation
