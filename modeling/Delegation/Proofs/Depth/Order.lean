import Mathlib.Order.Basic
import Mathlib.Tactic.GCongr
import Delegation.Proofs.Reading
import Delegation.Syntax.Item

namespace Delegation

namespace Reader

variable {α β σ : Type}

/-- `q` does what `p` does, unless `p` runs out of depth. -/
instance : Preorder (Reader α) where
  le p q := ∀ s, q s = p s ∨ ∃ e, p s = .fail e ∧ e.cause.isTooDeep = true
  le_refl _ _ := .inl rfl
  le_trans p q r hpq hqr s := by
    obtain hq | hdeep := hpq s
    · obtain hr | hdeep := hqr s
      · exact .inl (hr.trans hq)
      · exact .inr (hq ▸ hdeep)
    · exact .inr hdeep

theorem ok_of_le {p q : Reader α} (h : p ≤ q) {s t : Stream} {a : α} (hp : p s = .ok a t) :
    q s = .ok a t := by
  obtain hq | ⟨e, he, -⟩ := h s
  · exact hq.trans hp
  · cases hp.symm.trans he

theorem bind_fail {p : Reader α} {f : α → Reader β} {s : Stream} {e : Failure}
    (h : p s = .fail e) : (p >>= f) s = .fail e := by
  simp only [Bind.bind, h]

theorem tooDeep_le (p : Reader α) : tooDeep ≤ p := fun _ => .inr ⟨_, rfl, rfl⟩

@[gcongr] theorem bind_mono {p q : Reader α} {f f' : α → Reader β} (hp : p ≤ q)
    (hf : ∀ a, f a ≤ f' a) : p >>= f ≤ q >>= f' := by
  intro s
  obtain hq | ⟨e, he, hdeep⟩ := hp s
  · cases hps : p s with
    | ok a t =>
      rw [bind_of_ok hps, bind_of_ok (hq.trans hps)]
      exact hf a t
    | fail e =>
      rw [bind_fail hps, bind_fail (hq.trans hps)]
      exact .inl rfl
  · exact .inr ⟨e, bind_fail he, hdeep⟩

@[gcongr] theorem ite_mono {c : Prop} [Decidable c] {p q p' q' : Reader α} (hp : p ≤ p')
    (hq : q ≤ q') : (if c then p else q) ≤ if c then p' else q' := by
  split
  · exact hp
  · exact hq

theorem rounds_mono {step step' : σ → Reader (Round σ β)} (h : ∀ a, step a ≤ step' a)
    (fuel : Nat) (a : σ) : rounds step fuel a ≤ rounds step' fuel a := by
  induction fuel generalizing a with
  | zero => exact le_refl _
  | succ fuel ih =>
    refine bind_mono (h a) fun round => ?_
    cases round with
    | again b => exact ih b
    | done b => exact le_refl _

@[gcongr] theorem loop_mono {step step' : σ → Reader (Round σ β)} (h : ∀ a, step a ≤ step' a)
    (a : σ) : loop step a ≤ loop step' a :=
  fun s => rounds_mono h _ a s

@[gcongr] theorem attempt?_mono {p q : Reader α} (h : p ≤ q) : attempt? p ≤ attempt? q := by
  intro s
  obtain hq | ⟨e, he, hdeep⟩ := h s
  · left
    simp only [attempt?, hq]
  · refine .inr ⟨e, ?_, hdeep⟩
    simp only [attempt?, he, hdeep, if_true]

@[gcongr] theorem enclosed_mono {delim : Delim} {p q : Reader α} (h : p ≤ q) :
    enclosed delim p ≤ enclosed delim q := by
  intro s
  unfold enclosed
  split
  next => exact .inl rfl
  next inner span rest _ =>
    obtain hq | ⟨e, he, hdeep⟩ := h ⟨inner, span.closing, s.leftover⟩
    · rw [hq]
      exact .inl rfl
    · rw [he]
      exact .inr ⟨e, rfl, hdeep⟩

section Parts

variable {p q : Reader α} {r r' : Reader (List Tree)} {look : Look} {separator : String}

@[gcongr] theorem whenLook_mono (h : r ≤ r') : whenLook look r ≤ whenLook look r' := by
  unfold whenLook
  gcongr

@[gcongr] theorem grouped_mono {delim : Delim} (h : r ≤ r') :
    grouped delim r ≤ grouped delim r' := by
  unfold grouped
  gcongr

@[gcongr] theorem separated_mono (h : p ≤ q) :
    separated look separator p ≤ separated look separator q := by
  unfold separated
  gcongr

@[gcongr] theorem separatedTokens_mono (h : r ≤ r') :
    separatedTokens look separator r ≤ separatedTokens look separator r' := by
  unfold separatedTokens
  gcongr

@[gcongr] theorem chained_mono (h : r ≤ r') :
    chained look separator r ≤ chained look separator r' := by
  unfold chained
  gcongr

@[gcongr] theorem terminated_mono (h : r ≤ r') : terminated r ≤ terminated r' := by
  unfold terminated
  gcongr

@[gcongr] theorem manyWhile_mono (h : p ≤ q) : manyWhile look p ≤ manyWhile look q := by
  unfold manyWhile
  gcongr

@[gcongr] theorem manyTokens_mono (h : r ≤ r') : manyTokens look r ≤ manyTokens look r' := by
  unfold manyTokens
  gcongr

@[gcongr] theorem verbatim_mono (h : p ≤ q) : verbatim p ≤ verbatim q := by
  unfold verbatim
  gcongr

@[gcongr] theorem colonWith_mono (h : r ≤ r') : colonWith r ≤ colonWith r' := by
  unfold colonWith
  gcongr

@[gcongr] theorem plainPattern_mono (h : r ≤ r') : plainPattern r ≤ plainPattern r' := by
  unfold plainPattern
  gcongr

@[gcongr] theorem plainExpr_mono (h : r ≤ r') : plainExpr r ≤ plainExpr r' := by
  unfold plainExpr
  gcongr

@[gcongr] theorem afterVisibility_mono {attrs : List Attr} (h : r ≤ r') :
    afterVisibility attrs r ≤ afterVisibility attrs r' := by
  unfold afterVisibility
  gcongr

end Parts

end Reader

/-- The rules `g'` do what the rules `g` do, unless these run out of depth. -/
structure Rules.Below (g g' : Rules) : Prop where
  type : ∀ plus generic, g.type plus generic ≤ g'.type plus generic
  bound : ∀ captures const, g.bound captures const ≤ g'.bound captures const
  expr : ∀ braces, g.expr braces ≤ g'.expr braces
  unary : ∀ braces, g.unary braces ≤ g'.unary braces
  operators : ∀ braces floor left, g.operators braces floor left ≤ g'.operators braces floor left
  pattern : g.pattern ≤ g'.pattern
  block : ∀ inner, g.block inner ≤ g'.block inner
  arm : g.arm ≤ g'.arm
  item : g.item ≤ g'.item
  useTree : ∀ root, g.useTree root ≤ g'.useTree root

variable {g g' : Rules}

namespace Rules

@[gcongr] theorem type_mono (h : g.Below g') (plus generic : Bool) :
    g.type plus generic ≤ g'.type plus generic := h.type plus generic

@[gcongr] theorem bound_mono (h : g.Below g') (captures const : Bool) :
    g.bound captures const ≤ g'.bound captures const := h.bound captures const

@[gcongr] theorem expr_mono (h : g.Below g') (braces : Bool) : g.expr braces ≤ g'.expr braces :=
  h.expr braces

@[gcongr] theorem unary_mono (h : g.Below g') (braces : Bool) :
    g.unary braces ≤ g'.unary braces := h.unary braces

@[gcongr] theorem operators_mono (h : g.Below g') (braces : Bool) (floor : Precedence)
    (left : Expr) : g.operators braces floor left ≤ g'.operators braces floor left :=
  h.operators braces floor left

@[gcongr] theorem pattern_mono (h : g.Below g') : g.pattern ≤ g'.pattern := h.pattern

@[gcongr] theorem block_mono (h : g.Below g') (inner : Bool) : g.block inner ≤ g'.block inner :=
  h.block inner

@[gcongr] theorem arm_mono (h : g.Below g') : g.arm ≤ g'.arm := h.arm

@[gcongr] theorem item_mono (h : g.Below g') : g.item ≤ g'.item := h.item

@[gcongr] theorem useTree_mono (h : g.Below g') (root : Bool) :
    g.useTree root ≤ g'.useTree root := h.useTree root

@[gcongr] theorem anyType_mono (h : g.Below g') : g.anyType ≤ g'.anyType := by
  unfold anyType
  gcongr

@[gcongr] theorem narrowType_mono (h : g.Below g') : g.narrowType ≤ g'.narrowType := by
  unfold narrowType
  gcongr

@[gcongr] theorem anyExpr_mono (h : g.Below g') : g.anyExpr ≤ g'.anyExpr := by
  unfold anyExpr
  gcongr

@[gcongr] theorem headExpr_mono (h : g.Below g') : g.headExpr ≤ g'.headExpr := by
  unfold headExpr
  gcongr

@[gcongr] theorem anyPattern_mono (h : g.Below g') : g.anyPattern ≤ g'.anyPattern := by
  unfold anyPattern
  gcongr

theorem Below.refl (g : Rules) : g.Below g where
  type _ _ := le_refl _
  bound _ _ := le_refl _
  expr _ := le_refl _
  unary _ := le_refl _
  operators _ _ _ := le_refl _
  pattern := le_refl _
  block _ := le_refl _
  arm := le_refl _
  item := le_refl _
  useTree _ := le_refl _

theorem Below.trans {g g' g'' : Rules} (h : g.Below g') (h' : g'.Below g'') : g.Below g'' where
  type _ _ := le_trans (h.type _ _) (h'.type _ _)
  bound _ _ := le_trans (h.bound _ _) (h'.bound _ _)
  expr _ := le_trans (h.expr _) (h'.expr _)
  unary _ := le_trans (h.unary _) (h'.unary _)
  operators _ _ _ := le_trans (h.operators _ _ _) (h'.operators _ _ _)
  pattern := le_trans h.pattern h'.pattern
  block _ := le_trans (h.block _) (h'.block _)
  arm := le_trans h.arm h'.arm
  item := le_trans h.item h'.item
  useTree _ := le_trans (h.useTree _) (h'.useTree _)

theorem stuck_below (g : Rules) : stuck.Below g where
  type _ _ := Reader.tooDeep_le _
  bound _ _ := Reader.tooDeep_le _
  expr _ := Reader.tooDeep_le _
  unary _ := Reader.tooDeep_le _
  operators _ _ _ := Reader.tooDeep_le _
  pattern := Reader.tooDeep_le _
  block _ := Reader.tooDeep_le _
  arm := Reader.tooDeep_le _
  item := Reader.tooDeep_le _
  useTree _ := Reader.tooDeep_le _

end Rules

end Delegation
