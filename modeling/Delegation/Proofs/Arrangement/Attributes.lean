import Delegation.Proofs.Arrangement.Listing

namespace Delegation

namespace OptionKind

open Reader

variable {σ P : Type} (K : OptionKind σ P)

def Alone (p : P) (ts : List Tree) : Prop :=
  ∃ t, K.Spells (rulesFor ts) p ⟨ts, .made, none⟩ t ∧ t.rest = [] ∧ t.leftover = none

structure Written where
  part : P
  tokens : List Tree
  alone : K.Alone part tokens

/-- Options with commas between them, and perhaps one behind the last. -/
inductive Joined : List K.Written → List Tree → Prop
  | nil : Joined [] []
  | last (o : K.Written) : Joined [o] o.tokens
  | cons (o : K.Written) (joint : Bool) (span : Span) {os : List K.Written} {ts : List Tree}
    (h : Joined os ts) : Joined (o :: os) (o.tokens ++ .punct ',' joint span :: ts)

/-- Attributes that give these options, any number of them in one attribute, and between them the
other attributes. -/
inductive Arranged : List Attr → List K.Written → List Attr → Prop
  | nil : Arranged [] [] []
  | other {a : Attr} {others attrs : List Attr} {os : List K.Written}
    (hname : a.isNamed directiveName = false) (h : Arranged others os attrs) :
    Arranged (a :: others) os (a :: attrs)
  | directive {a : Attr} {others attrs : List Attr} {os more : List K.Written} {ts : List Tree}
    (ha : a.IsDirective ts) (hts : K.Joined os ts) (h : Arranged others more attrs) :
    Arranged others (os ++ more) (a :: attrs)

variable {K} {g : Rules} {x : σ} {before : List P} {os : List K.Written} {ts : List Tree}
  {others attrs : List Attr}

theorem Joined.weight_le (h : K.Joined os ts) :
    ∀ o ∈ os, Trees.weight o.tokens ≤ Trees.weight ts := by
  induction h with
  | nil => simp
  | last o => simp
  | cons o joint span h ih =>
    intro o' ho'
    rw [Trees.weight_append, Trees.weight]
    obtain rfl | ho' := List.mem_cons.mp ho'
    · omega
    · have := ih o' ho'
      omega

theorem Joined.listed (h : K.Joined os ts) (hbelow : ∀ o ∈ os, (rulesFor o.tokens).Below g)
    (hg : ∀ us [Trees.Tail us], g.Bounded us) (close : Span) :
    ∃ t, Listed (K.Spells g) ⟨ts, close, none⟩ (os.map Written.part) t ∧ t.leftover = none := by
  induction h generalizing close with
  | nil => exact ⟨_, .nil rfl, rfl⟩
  | last o =>
    obtain ⟨t, ht, hrest, hleft⟩ := o.alone
    obtain ⟨t', hrest', hleft', hspells⟩ :=
      K.spells_append (hg []) (K.spells_mono (hbelow o (by simp)) ht) close
    rw [List.append_nil] at hrest' hspells
    exact ⟨t', .last hspells (hrest'.trans hrest), hleft'.trans hleft⟩
  | @cons o joint span os ts h ih =>
    obtain ⟨t, ht, hrest, hleft⟩ := o.alone
    obtain ⟨t', hrest', hleft', hspells⟩ :=
      K.spells_append (hg (.punct ',' joint span :: ts)) (K.spells_mono (hbelow o (by simp)) ht)
        close
    rw [hrest, List.nil_append] at hrest'
    obtain ⟨rest', close', left'⟩ := t'
    subst hrest'
    obtain rfl : left' = none := hleft'.trans hleft
    obtain ⟨u, hu, hleftu⟩ := ih (fun o' ho' => hbelow o' (List.mem_cons_of_mem _ ho')) close'
    exact ⟨u, .cons hspells rfl hu, hleftu⟩

theorem Joined.lists (h : K.Joined os ts) (close : Span) :
    K.Lists (os.map Written.part) ts close := by
  have hbelow (o : K.Written) (ho : o ∈ os) : (rulesFor o.tokens).Below (rulesFor ts) :=
    rulesFor_below (h.weight_le o ho)
  exact h.listed hbelow (fun us => rules_bounded us _) close

theorem Arranged.outcome (h : K.Arranged others os attrs) (hx : K.Holds x before) :
    K.Outcome (before ++ os.map Written.part)
      ((directives attrs).foldlM (Attr.readOptions K.entry) x) := by
  induction h generalizing x before with
  | nil =>
    rw [List.map_nil, List.append_nil]
    exact .read hx
  | @other a others attrs os hname h ih =>
    have hskip : directives (a :: attrs) = directives attrs := by simp [directives, hname]
    rw [hskip]
    exact ih hx
  | @directive a others attrs os more ts ha hts h ih =>
    have hkeep : directives (a :: attrs) = a :: directives attrs := by simp [directives, ha.name]
    rw [hkeep, List.foldlM_cons, List.map_append, ← List.append_assoc]
    refine Outcome.bind ?_ fun y hy => ih hy
    obtain ⟨delim, span, hargs⟩ := ha.args
    rw [Attr.readOptions, hargs]
    exact (hts.lists _).outcome hx

end OptionKind

end Delegation
