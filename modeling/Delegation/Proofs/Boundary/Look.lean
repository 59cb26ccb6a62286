import Delegation.Syntax.Stream

namespace Delegation

mutual

/-- The tree, or the visible tokens of an invisible group. -/
def Tree.visible : Tree → List Tree
  | .group .invisible inner _ => Trees.visible inner
  | t => [t]

def Trees.visible : List Tree → List Tree
  | [] => []
  | t :: ts => t.visible ++ Trees.visible ts

end

namespace Trees

@[simp] theorem visible_append (ts us : List Tree) :
    visible (ts ++ us) = visible ts ++ visible us := by
  induction ts with
  | nil => rfl
  | cons t ts ih => simp only [List.cons_append, visible, ih, List.append_assoc]

end Trees

mutual

theorem Tree.visible_of_shown {t first : Tree} {more : List Tree} (h : t.shown = first :: more) :
    t.visible = first :: Trees.visible more := by
  match t with
  | .group .invisible inner _ => exact Trees.visible_of_shown h
  | .group .paren .. | .group .bracket .. | .group .brace .. | .ident .. | .punct ..
  | .literal .. =>
    cases h
    rfl

theorem Trees.visible_of_shown {ts : List Tree} {first : Tree} {more : List Tree}
    (h : Trees.shown ts = first :: more) : Trees.visible ts = first :: Trees.visible more := by
  match ts with
  | [] => cases h
  | t :: ts =>
    rw [Trees.shown] at h
    rw [Trees.visible]
    cases ht : t.shown with
    | nil =>
      rw [ht] at h
      rw [Tree.visible_of_hollow ht, Trees.visible_of_shown h, List.nil_append]
    | cons f m =>
      rw [ht] at h
      cases h
      rw [Tree.visible_of_shown ht]
      exact congrArg (first :: ·) (Trees.visible_append m ts).symm

theorem Tree.visible_of_hollow {t : Tree} (h : t.shown = []) : t.visible = [] := by
  match t with
  | .group .invisible inner _ => exact Trees.visible_of_hollow h
  | .group .paren .. | .group .bracket .. | .group .brace .. | .ident .. | .punct ..
  | .literal .. =>
    cases h

theorem Trees.visible_of_hollow {ts : List Tree} (h : Trees.shown ts = []) :
    Trees.visible ts = [] := by
  match ts with
  | [] => rfl
  | t :: ts =>
    rw [Trees.shown] at h
    rw [Trees.visible]
    cases ht : t.shown with
    | nil =>
      rw [ht] at h
      rw [Tree.visible_of_hollow ht, Trees.visible_of_hollow h, List.nil_append]
    | cons f m =>
      rw [ht] at h
      cases h

end

mutual

theorem Tree.length_visible_le (t : Tree) : t.visible.length ≤ t.weight := by
  match t with
  | .group .invisible inner _ => exact Nat.le_succ_of_le (Trees.length_visible_le inner)
  | .group .paren .. | .group .bracket .. | .group .brace .. => exact Nat.succ_pos _
  | .ident .. | .punct .. | .literal .. => exact Nat.le_refl 1

theorem Trees.length_visible_le (ts : List Tree) :
    (Trees.visible ts).length ≤ Trees.weight ts := by
  match ts with
  | [] => exact Nat.le_refl 0
  | t :: ts =>
    rw [Trees.visible, Trees.weight, List.length_append]
    exact Nat.add_le_add (Tree.length_visible_le t) (Trees.length_visible_le ts)

end

namespace Trees

variable {ts us vs : List Tree} {first : Tree} {more : List Tree}

theorem shown_append_cons (h : shown ts = first :: more) (us : List Tree) :
    shown (ts ++ us) = first :: (more ++ us) := by
  induction ts generalizing first more with
  | nil => cases h
  | cons t ts ih =>
    rw [shown] at h
    rw [List.cons_append, shown]
    cases ht : t.shown with
    | nil =>
      rw [ht] at h
      exact ih h
    | cons f m =>
      rw [ht] at h
      cases h
      simp

theorem shown_append_nil (h : shown ts = []) (us : List Tree) : shown (ts ++ us) = shown us := by
  induction ts with
  | nil => rfl
  | cons t ts ih =>
    rw [shown] at h
    rw [List.cons_append, shown]
    cases ht : t.shown with
    | nil =>
      rw [ht] at h
      exact ih h
    | cons f m =>
      rw [ht] at h
      cases h

/-- What may follow an option: nothing, or a comma and anything after it. -/
class Tail (us : List Tree) : Prop where
  shape : us = [] ∨ ∃ joint span more, us = .punct ',' joint span :: more

instance : Tail [] := ⟨.inl rfl⟩

instance (joint : Bool) (span : Span) (more : List Tree) : Tail (.punct ',' joint span :: more) :=
  ⟨.inr ⟨joint, span, more, rfl⟩⟩

/-- What is shown first of tokens before a tail is what they show alone, or if they show nothing,
nothing or a comma. -/
theorem shown_append_cases (us vs : List Tree) [h : Tail us] :
    (∃ first more, shown vs = first :: more ∧ shown (vs ++ us) = first :: (more ++ us)) ∨
      shown vs = [] ∧ (us = [] ∧ shown (vs ++ us) = [] ∨
        ∃ joint span more, shown (vs ++ us) = .punct ',' joint span :: more) := by
  cases hvs : shown vs with
  | cons first more => exact .inl ⟨first, more, rfl, shown_append_cons hvs us⟩
  | nil =>
    obtain rfl | ⟨joint, span, more, rfl⟩ := h.shape
    · exact .inr ⟨rfl, .inl ⟨rfl, shown_append_nil hvs []⟩⟩
    · exact .inr ⟨rfl, .inr ⟨joint, span, more, shown_append_nil hvs _⟩⟩

@[simp] theorem flat_append (ts us : List Tree) : flat (ts ++ us) = flat ts + flat us := by
  induction ts with
  | nil => simp [flat]
  | cons t ts ih => simp [flat, ih, Nat.add_assoc]

theorem taken_append {n : Nat} (h : n ≤ flat ts) (us : List Tree) :
    taken n (ts ++ us) = taken n ts := by
  induction ts generalizing n with
  | nil =>
    obtain rfl : n = 0 := by simpa [flat] using h
    cases us <;> rfl
  | cons t ts ih =>
    rw [flat] at h
    simp only [List.cons_append, taken, ih (show n - t.flat ≤ flat ts by omega)]

@[simp] theorem between_append (ts vs us : List Tree) :
    between (ts ++ us) (vs ++ us) = between ts vs := by
  unfold between
  rw [flat_append, flat_append, Nat.add_sub_add_right, taken_append (Nat.sub_le _ _)]

end Trees

section Finders

variable (us vs : List Tree) [Trees.Tail us]

theorem word?_append : word? (vs ++ us) = (word? vs).map fun (i, rest) => (i, rest ++ us) := by
  unfold word?
  obtain ⟨first, more, h, h'⟩ | ⟨h, ⟨-, h'⟩ | ⟨_, _, _, h'⟩⟩ := Trees.shown_append_cases us vs
  · rw [h, h']
    cases first <;> rfl
  · rw [h, h']
    rfl
  · rw [h, h']
    rfl

theorem literal?_append :
    literal? (vs ++ us) = (literal? vs).map fun (text, span, rest) => (text, span, rest ++ us) := by
  unfold literal?
  obtain ⟨first, more, h, h'⟩ | ⟨h, ⟨-, h'⟩ | ⟨_, _, _, h'⟩⟩ := Trees.shown_append_cases us vs
  · rw [h, h']
    cases first <;> rfl
  · rw [h, h']
    rfl
  · rw [h, h']
    rfl

theorem group?_append (delim : Delim) : group? delim (vs ++ us) =
    (group? delim vs).map fun (inner, span, rest) => (inner, span, rest ++ us) := by
  unfold group?
  by_cases hd : delim = .invisible
  · rw [if_pos hd, if_pos hd]
    cases vs with
    | nil => obtain rfl | ⟨_, _, _, rfl⟩ := ‹Trees.Tail us›.shape <;> rfl
    | cons t vs =>
      cases t <;> try rfl
      dsimp only [List.cons_append]
      split <;> rfl
  · rw [if_neg hd, if_neg hd]
    obtain ⟨first, more, h, h'⟩ | ⟨h, ⟨-, h'⟩ | ⟨_, _, _, h'⟩⟩ := Trees.shown_append_cases us vs
    · rw [h, h']
      cases first <;> try rfl
      dsimp only
      split <;> rfl
    · rw [h, h']
      rfl
    · rw [h, h']
      rfl

omit [Trees.Tail us] in
variable {vs} in
theorem hollow_of_group? {inner rest : List Tree} {span : Span}
    (h : group? .invisible vs = some (inner, span, rest)) (hvs : Trees.shown vs = []) :
    Trees.shown inner = [] := by
  rw [group?, if_pos rfl] at h
  split at h
  next delim inner' span' rest' =>
    rw [Option.ite_none_right_eq_some] at h
    obtain ⟨rfl, h⟩ := h
    cases h
    rw [Trees.shown, Tree.shown] at hvs
    cases hinner : Trees.shown inner with
    | nil => rfl
    | cons first more =>
      rw [hinner] at hvs
      cases hvs
  next => cases h

variable {us vs} in
/-- The name of a lifetime is no part of a tail. -/
theorem ident_of_append {name : String} {span : Span} {rest : List Tree}
    (h : vs ++ us = .ident name span :: rest) :
    ∃ rest', vs = .ident name span :: rest' ∧ rest = rest' ++ us := by
  cases vs with
  | nil => obtain rfl | ⟨_, _, _, rfl⟩ := ‹Trees.Tail us›.shape <;> cases h
  | cons t vs =>
    cases h
    exact ⟨vs, rfl, rfl⟩

theorem lifetime?_append : lifetime? (vs ++ us) =
    (lifetime? vs).map fun (tick, i, rest) => (tick, i, rest ++ us) := by
  unfold lifetime?
  obtain ⟨first, more, h, h'⟩ | ⟨h, ⟨-, h'⟩ | ⟨_, _, _, h'⟩⟩ := Trees.shown_append_cases us vs
  · rw [h, h']
    split
    next heq =>
      obtain ⟨rfl, hmore⟩ := List.cons.inj heq
      obtain ⟨rest, rfl, rfl⟩ := ident_of_append hmore
      rfl
    next hne =>
      split
      next heq =>
        cases heq
        exact absurd rfl (hne _ _ _ _)
      next => rfl
  · rw [h, h']
    rfl
  · rw [h, h']
    rfl

theorem skipOne?_append (h : Trees.shown vs ≠ []) :
    skipOne? (vs ++ us) = (skipOne? vs).map (· ++ us) := by
  obtain ⟨first, more, h⟩ := List.exists_cons_of_ne_nil h
  unfold skipOne?
  rw [h, Trees.shown_append_cons h]
  split
  next heq => cases heq
  next heq =>
    obtain ⟨rfl, hmore⟩ := List.cons.inj heq
    obtain ⟨rest, rfl, rfl⟩ := ident_of_append hmore
    rfl
  next hne heq =>
    cases heq
    split
    next heq => cases heq
    next heq =>
      cases heq
      exact absurd rfl (hne _ _ _ _ rfl)
    next heq =>
      cases heq
      rfl

section Found

variable {ts rest : List Tree}

theorem shown_of_word? {i : Ident} (h : word? ts = some (i, rest)) :
    Trees.shown ts = i.tree :: rest := by
  unfold word? at h
  split at h
  next hshown =>
    cases h
    exact hshown
  next => cases h

theorem shown_of_literal? {text : String} {span : Span}
    (h : literal? ts = some (text, span, rest)) :
    Trees.shown ts = .literal text span :: rest := by
  unfold literal? at h
  split at h
  next hshown =>
    cases h
    exact hshown
  next => cases h

theorem shown_of_lifetime? {tick : Span} {i : Ident} (h : lifetime? ts = some (tick, i, rest)) :
    Trees.shown ts = .punct '\'' true tick :: i.tree :: rest := by
  unfold lifetime? at h
  split at h
  next hshown =>
    cases h
    exact hshown
  next => cases h

theorem shown_of_punct? {c : Char} {joint : Bool} {span : Span}
    (h : punct? ts = some (c, joint, span, rest)) :
    c ≠ '\'' ∧ Trees.shown ts = .punct c joint span :: rest := by
  unfold punct? at h
  split at h
  next hshown =>
    rw [Option.ite_none_left_eq_some] at h
    obtain ⟨hc, h⟩ := h
    cases h
    exact ⟨hc, hshown⟩
  next => cases h

theorem skipOne?_of_word? {i : Ident} (h : word? ts = some (i, rest)) :
    skipOne? ts = some rest := by
  rw [skipOne?, shown_of_word? h]
  rfl

theorem skipOne?_of_lifetime? {tick : Span} {i : Ident} (h : lifetime? ts = some (tick, i, rest)) :
    skipOne? ts = some rest := by
  rw [skipOne?, shown_of_lifetime? h]
  rfl

theorem skipOne?_of_punct? {c : Char} {joint : Bool} {span : Span}
    (h : punct? ts = some (c, joint, span, rest)) : skipOne? ts = some rest := by
  obtain ⟨hc, hshown⟩ := shown_of_punct? h
  simp [skipOne?, hshown, hc]

end Found

omit [Trees.Tail us] in
theorem punct?_append (h : Trees.shown vs ≠ []) : punct? (vs ++ us) =
    (punct? vs).map fun (c, joint, span, rest) => (c, joint, span, rest ++ us) := by
  obtain ⟨first, more, h⟩ := List.exists_cons_of_ne_nil h
  unfold punct?
  rw [h, Trees.shown_append_cons h]
  cases first <;> try rfl
  dsimp only
  split <;> rfl

/-- The next punctuation character before a tail is the one found alone, if it is not the comma of
the tail. -/
theorem punct?_append_cases : punct? (vs ++ us) =
      (punct? vs).map (fun (c, joint, span, rest) => (c, joint, span, rest ++ us)) ∨
    punct? vs = none ∧ ∃ joint span rest, punct? (vs ++ us) = some (',', joint, span, rest) := by
  by_cases h : Trees.shown vs = []
  · have hvs : punct? vs = none := by rw [punct?, h]
    obtain rfl | ⟨joint, span, more, rfl⟩ := ‹Trees.Tail us›.shape
    · left
      rw [List.append_nil, hvs]
      rfl
    · right
      refine ⟨hvs, joint, span, more, ?_⟩
      rw [punct?, Trees.shown_append_nil h]
      rfl
  · exact .inl (punct?_append us vs h)

/-- An operator before a tail is the one found alone, if it has no comma in it. -/
theorem operator?_append_cases (cs : List Char) : operator? cs (vs ++ us) =
      (operator? cs vs).map (fun (tokens, rest) => (tokens, rest ++ us)) ∨
    operator? cs vs = none ∧ ',' ∈ cs := by
  induction cs generalizing vs with
  | nil => exact .inl rfl
  | cons c cs ih =>
    obtain hp | ⟨hp, joint, span, rest, hp'⟩ := punct?_append_cases us vs
    · cases hvs : punct? vs with
      | none =>
        rw [hvs] at hp
        left
        cases cs <;> simp [operator?, hp, hvs]
      | some found =>
        obtain ⟨d, joint, span, rest⟩ := found
        rw [hvs] at hp
        cases cs with
        | nil =>
          left
          simp only [operator?, hp, hvs, Option.map_some]
          split <;> rfl
        | cons c' cs =>
          simp only [operator?, hp, hvs, Option.map_some]
          split
          · obtain h | ⟨h, hcomma⟩ := ih rest
            · left
              rw [h]
              cases operator? (c' :: cs) rest <;> rfl
            · right
              rw [h]
              exact ⟨rfl, List.mem_cons_of_mem c hcomma⟩
          · exact .inl rfl
    · by_cases hc : ',' = c
      · right
        refine ⟨?_, hc ▸ List.mem_cons_self⟩
        cases cs <;> simp [operator?, hp]
      · left
        cases cs <;> simp [operator?, hp, hp', hc]

variable {vs} in
theorem operator?_append_of_some {cs : List Char} {tokens rest : List Tree}
    (h : operator? cs vs = some (tokens, rest)) :
    operator? cs (vs ++ us) = some (tokens, rest ++ us) := by
  obtain h' | ⟨hnone, -⟩ := operator?_append_cases us vs cs
  · rw [h', h, Option.map_some]
  · cases h.symm.trans hnone

theorem operator?_append {cs : List Char} (hcs : ',' ∉ cs) : operator? cs (vs ++ us) =
    (operator? cs vs).map fun (tokens, rest) => (tokens, rest ++ us) := by
  obtain h | ⟨-, hcomma⟩ := operator?_append_cases us vs cs
  · exact h
  · exact absurd hcomma hcs

theorem literalHere?_append : literalHere? (vs ++ us) =
    (literalHere? vs).map fun (tokens, rest) => (tokens, rest ++ us) := by
  have hminus : ',' ∉ ['-'] := by decide
  unfold literalHere?
  rw [literal?_append, word?_append, operator?_append us vs hminus]
  cases literal? vs with
  | some found => rfl
  | none =>
    cases word? vs with
    | some found =>
      dsimp only [Option.map_some, Option.map_none]
      split <;> rfl
    | none =>
      cases operator? ['-'] vs with
      | none => rfl
      | some found =>
        dsimp only [Option.map_some, Option.map_none]
        rw [literal?_append]
        cases literal? found.2 with
        | none => rfl
        | some number =>
          dsimp only [Option.map_some]
          split <;> rfl

end Finders

namespace Look

section Answers

variable (us vs : List Tree) [Trees.Tail us]

@[simp] theorem word_append (name : String) : word name (vs ++ us) = word name vs := by
  rw [word, word, word?_append]
  cases word? vs <;> rfl

@[simp] theorem name_append : name (vs ++ us) = name vs := by
  rw [name, name, word?_append]
  cases word? vs <;> rfl

@[simp] theorem anyWord_append : anyWord (vs ++ us) = anyWord vs := by
  rw [anyWord, anyWord, word?_append, Option.isSome_map]

@[simp] theorem lifetime_append : lifetime (vs ++ us) = lifetime vs := by
  rw [lifetime, lifetime, lifetime?_append, Option.isSome_map]

@[simp] theorem group_append (delim : Delim) : group delim (vs ++ us) = group delim vs := by
  rw [group, group, group?_append, Option.isSome_map]

@[simp] theorem literal_append : literal (vs ++ us) = literal vs := by
  rw [literal, literal, literalHere?_append, Option.isSome_map]

@[simp] theorem text_append : text (vs ++ us) = text vs := by
  rw [text, text, literal?_append]
  cases literal? vs <;> rfl

@[simp] theorem op_append {text : String} (h : ',' ∉ text.toList) :
    op text (vs ++ us) = op text vs := by
  rw [op, op, operator?_append us vs h, Option.isSome_map]

end Answers

section Shown

variable {us vs : List Tree} {p q : Look}

@[simp] theorem word_hollow {name : String} (h : Trees.shown vs = []) : word name vs = false := by
  rw [word, word?, h]
  rfl

@[simp] theorem name_hollow (h : Trees.shown vs = []) : name vs = false := by
  rw [name, word?, h]
  rfl

@[simp] theorem lifetime_hollow (h : Trees.shown vs = []) : lifetime vs = false := by
  rw [lifetime, lifetime?, h]
  rfl

theorem op_of_punct? (h : punct? vs = none) (text : String) : op text vs = false := by
  rw [op]
  cases text.toList with
  | nil => rfl
  | cons c cs => cases cs <;> simp [operator?, h]

@[simp] theorem op_hollow {text : String} (h : Trees.shown vs = []) : op text vs = false :=
  op_of_punct? (by rw [punct?, h]) text

@[simp] theorem literal_hollow (h : Trees.shown vs = []) : literal vs = false := by
  have hp : punct? vs = none := by rw [punct?, h]
  simp [literal, literalHere?, literal?, word?, operator?, hp, h]

@[simp] theorem group_hollow {delim : Delim} (hd : delim ≠ .invisible) (h : Trees.shown vs = []) :
    group delim vs = false := by
  rw [group, group?, if_neg hd, h]
  rfl

@[simp] theorem second_hollow (h : Trees.shown vs = []) : second p vs = false := by
  rw [second, skipOne?, h]
  rfl

section Word

variable {i : Ident} {rest : List Tree} (h : word? vs = some (i, rest))
include h

theorem word_of_word? (name : String) : word name vs = (i.name == name) := by
  rw [word, h]
  rfl

theorem name_of_word? : name vs = !isKeyword i.name := by
  rw [Look.name, h]
  rfl

theorem op_of_word? (text : String) : op text vs = false :=
  op_of_punct? (by rw [punct?, shown_of_word? h]; rfl) text

theorem group_of_word? {delim : Delim} (hd : delim ≠ .invisible) : group delim vs = false := by
  rw [group, group?, if_neg hd, shown_of_word? h]
  rfl

theorem literal_of_word? (hi : ¬ (i.name = "true" ∨ i.name = "false")) : literal vs = false := by
  rw [literal, literalHere?, literal?, shown_of_word? h, h]
  simp [Ident.tree, hi]

end Word

section Lifetime

variable (h : lifetime vs = true)
include h

theorem shown_of_lifetime : ∃ tick more, Trees.shown vs = .punct '\'' true tick :: more := by
  obtain ⟨⟨tick, i, rest⟩, h⟩ := Option.isSome_iff_exists.mp h
  exact ⟨tick, _, shown_of_lifetime? h⟩

theorem op_of_lifetime (text : String) : op text vs = false := by
  obtain ⟨_, _, hshown⟩ := shown_of_lifetime h
  exact op_of_punct? (by rw [punct?, hshown]; rfl) text

theorem word_of_lifetime (name : String) : word name vs = false := by
  obtain ⟨_, _, hshown⟩ := shown_of_lifetime h
  rw [word, word?, hshown]
  rfl

end Lifetime

theorem shown_of (hp : ∀ ts, Trees.shown ts = [] → p ts = false) (h : p vs = true) :
    Trees.shown vs ≠ [] := by
  intro hvs
  rw [hp vs hvs] at h
  cases h

/-- After the first of the characters of `::` the second one is shown. -/
theorem shown_after_colons (h : op "::" vs = true) {rest : List Tree}
    (hrest : skipOne? vs = some rest) : Trees.shown rest ≠ [] := by
  have hop : (operator? [':', ':'] vs).isSome = true := h
  intro hnil
  cases hp : punct? vs with
  | none => simp [operator?, hp] at hop
  | some found =>
    obtain ⟨c, joint, span, after⟩ := found
    have hafter := skipOne?_of_punct? hp
    obtain rfl : after = rest := Option.some.inj (hafter.symm.trans hrest)
    have hnone : punct? after = none := by rw [punct?, hnil]
    simp [operator?, hp, hnone] at hop

theorem of_second (h : second p vs = true) {rest : List Tree} (hrest : skipOne? vs = some rest) :
    p rest = true := by
  rw [second, hrest] at h
  exact h

@[simp] theorem anyOf_nil : anyOf [] vs = false := rfl

@[simp] theorem anyOf_cons {ps : List Look} : anyOf (p :: ps) vs = (p vs || anyOf ps vs) := rfl

theorem anyOf_append {ps : List Look} (h : ∀ p ∈ ps, p (vs ++ us) = p vs) :
    anyOf ps (vs ++ us) = anyOf ps vs := by
  induction ps with
  | nil => rfl
  | cons p ps ih =>
    rw [anyOf_cons, anyOf_cons, h p List.mem_cons_self,
      ih fun p hp => h p (List.mem_cons_of_mem _ hp)]

theorem and_append (hp : p (vs ++ us) = p vs) (hq : p vs = true → q (vs ++ us) = q vs) :
    and p q (vs ++ us) = and p q vs := by
  rw [and, and, hp]
  cases h : p vs with
  | false => rfl
  | true => rw [hq h]

theorem comma_append (us : List Tree) (h : Trees.shown vs ≠ []) :
    op "," (vs ++ us) = op "," vs := by
  change (operator? [','] _).isSome = (operator? [','] _).isSome
  simp only [operator?, punct?_append us vs h]
  cases punct? vs with
  | none => rfl
  | some found =>
    dsimp only [Option.map_some]
    split <;> rfl

theorem ended_append (us : List Tree) (h : Trees.shown vs ≠ []) : ended (vs ++ us) = ended vs := by
  cases vs with
  | nil => exact absurd rfl h
  | cons t vs => rfl

variable [Trees.Tail us]

section Stops

variable {ps : List Look} (hps : ∀ p ∈ ps, ∀ vs, p (vs ++ us) = p vs)
include hps

omit [Trees.Tail us] in
theorem stop_shown (h : Trees.shown vs ≠ []) :
    anyOf (.ended :: .op "," :: ps) (vs ++ us) = anyOf (.ended :: .op "," :: ps) vs := by
  rw [anyOf_cons, anyOf_cons, anyOf_cons, anyOf_cons, ended_append us h, comma_append us h,
    anyOf_append fun p hp => hps p hp vs]

/-- What stops at the end of tokens stops at a comma behind them. -/
theorem stop_hollow (h : Trees.shown vs = []) (hstop : anyOf (.ended :: .op "," :: ps) vs = true) :
    anyOf (.ended :: .op "," :: ps) (vs ++ us) = true := by
  cases vs with
  | nil => obtain rfl | ⟨_, _, _, rfl⟩ := ‹Trees.Tail us›.shape <;> rfl
  | cons t vs =>
    have hnotEnded : ended (t :: vs) = false := rfl
    rw [anyOf_cons, anyOf_cons, hnotEnded, op_hollow h, Bool.false_or, Bool.false_or] at hstop
    rw [anyOf_cons, anyOf_cons, anyOf_append fun p hp => hps p hp _, hstop, Bool.or_true,
      Bool.or_true]

end Stops

theorem second_append (h : Trees.shown vs ≠ [])
    (hq : ∀ rest, skipOne? vs = some rest → q (rest ++ us) = q rest) :
    second q (vs ++ us) = second q vs := by
  rw [second, second, skipOne?_append us vs h]
  cases hvs : skipOne? vs with
  | none => rfl
  | some rest => exact hq rest hvs

theorem third_append (h : Trees.shown vs ≠ [])
    (hnext : ∀ rest, skipOne? vs = some rest → Trees.shown rest ≠ [])
    (hq : ∀ rest last, skipOne? vs = some rest → skipOne? rest = some last →
      q (last ++ us) = q last) :
    third q (vs ++ us) = third q vs := by
  rw [third, third, skipOne?_append us vs h]
  cases hvs : skipOne? vs with
  | none => rfl
  | some rest => exact second_append (hnext rest hvs) (hq rest · hvs)

end Shown

end Look

end Delegation
