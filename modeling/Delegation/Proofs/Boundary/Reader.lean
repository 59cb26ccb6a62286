import Delegation.Proofs.Boundary.Look
import Delegation.Proofs.Reading

namespace Delegation

section Finders

variable {ts rest : List Tree}

theorem suffix_of_shown {first : Tree} (h : Trees.shown ts = first :: rest) :
    Trees.visible rest <:+ Trees.visible ts :=
  ⟨[first], (Trees.visible_of_shown h).symm⟩

theorem visible_of_word? {i : Ident} (h : word? ts = some (i, rest)) :
    Trees.visible ts = i.tree :: Trees.visible rest :=
  Trees.visible_of_shown (shown_of_word? h)

theorem suffix_of_word? {i : Ident} (h : word? ts = some (i, rest)) :
    Trees.visible rest <:+ Trees.visible ts :=
  ⟨[i.tree], (visible_of_word? h).symm⟩

theorem suffix_of_literal? {text : String} {span : Span}
    (h : literal? ts = some (text, span, rest)) :
    Trees.visible rest <:+ Trees.visible ts :=
  suffix_of_shown (shown_of_literal? h)

theorem visible_of_punct? {c : Char} {joint : Bool} {span : Span}
    (h : punct? ts = some (c, joint, span, rest)) :
    Trees.visible ts = .punct c joint span :: Trees.visible rest :=
  Trees.visible_of_shown (shown_of_punct? h).2

theorem suffix_of_punct? {c : Char} {joint : Bool} {span : Span}
    (h : punct? ts = some (c, joint, span, rest)) : Trees.visible rest <:+ Trees.visible ts :=
  ⟨[.punct c joint span], (visible_of_punct? h).symm⟩

theorem visible_of_lifetime? {tick : Span} {i : Ident} (h : lifetime? ts = some (tick, i, rest)) :
    Trees.visible ts = .punct '\'' true tick :: i.tree :: Trees.visible rest :=
  Trees.visible_of_shown (shown_of_lifetime? h)

theorem suffix_of_lifetime? {tick : Span} {i : Ident} (h : lifetime? ts = some (tick, i, rest)) :
    Trees.visible rest <:+ Trees.visible ts :=
  ⟨[.punct '\'' true tick, i.tree], (visible_of_lifetime? h).symm⟩

theorem hollow_of_visible (h : Trees.visible ts = []) : Trees.shown ts = [] := by
  cases hshown : Trees.shown ts with
  | nil => rfl
  | cons first more =>
    rw [Trees.visible_of_shown hshown] at h
    cases h

theorem suffix_of_group? {delim : Delim} {inner : List Tree} {span : Span}
    (h : group? delim ts = some (inner, span, rest)) :
    Trees.visible rest <:+ Trees.visible ts := by
  unfold group? at h
  split at h
  next hgroup =>
    rw [Option.ite_none_right_eq_some] at h
    obtain ⟨rfl, h⟩ := h
    cases h
    split at hgroup
    · rw [hgroup]
      exact List.suffix_append _ _
    · exact suffix_of_shown hgroup
  next => cases h

theorem suffix_of_operator? {cs : List Char} {tokens : List Tree}
    (h : operator? cs ts = some (tokens, rest)) : Trees.visible rest <:+ Trees.visible ts := by
  induction cs generalizing ts tokens with
  | nil => cases h
  | cons c cs ih =>
    cases hp : punct? ts with
    | none => cases cs <;> simp [operator?, hp] at h
    | some found =>
      obtain ⟨d, joint, span, after⟩ := found
      have hafter := suffix_of_punct? hp
      cases cs with
      | nil =>
        simp only [operator?, hp, Option.ite_none_right_eq_some] at h
        obtain ⟨-, h⟩ := h
        cases h
        exact hafter
      | cons c' cs =>
        simp only [operator?, hp, Option.ite_none_right_eq_some, Option.map_eq_some_iff] at h
        obtain ⟨-, ⟨more, left⟩, hmore, h⟩ := h
        cases h
        exact (ih hmore).trans hafter

theorem suffix_of_literalHere? {tokens : List Tree} (h : literalHere? ts = some (tokens, rest)) :
    Trees.visible rest <:+ Trees.visible ts := by
  unfold literalHere? at h
  split at h
  next hliteral =>
    cases h
    exact suffix_of_literal? hliteral
  next =>
    split at h
    next hword =>
      rw [Option.ite_none_right_eq_some] at h
      obtain ⟨-, h⟩ := h
      cases h
      exact suffix_of_word? hword
    next =>
      split at h
      next hminus =>
        split at h
        next hliteral =>
          rw [Option.ite_none_right_eq_some] at h
          obtain ⟨-, h⟩ := h
          cases h
          exact (suffix_of_literal? hliteral).trans (suffix_of_operator? hminus)
        next => cases h
      next => cases h

end Finders

/-- Causes that say the same, but for the place at which an option is not supported. -/
inductive Cause.Alike : Cause → Cause → Prop
  | refl (c : Cause) : Alike c c
  | unsupported : Alike (.unsupportedOption .container) (.unsupportedOption .struct)

attribute [refl] Cause.Alike.refl

/-- A reply to `vs` alone, and one to `vs` with `us` behind it. The first is the second as far as
`vs` goes. That it fails says something about the second only if there is nothing in `us`. -/
inductive Reply.Fits {α : Type} (us vs : List Tree) : Reply α → Reply α → Prop
  | ok {a : α} {t t' : Stream} (rest : t'.rest = t.rest ++ us) (left : t'.leftover = t.leftover)
      (suffix : Trees.visible t.rest <:+ Trees.visible vs) : Fits us vs (.ok a t) (.ok a t')
  | fail {e e' : Failure} (cause : e.cause.Alike e'.cause) : Fits us vs (.fail e) (.fail e')
  | lost {e : Failure} {r : Reply α} (more : us ≠ []) : Fits us vs (.fail e) r

theorem Reply.Fits.failed {α : Type} {us vs : List Tree} {e : Failure} {r : Reply α}
    (h : us = [] → ∃ e', r = .fail e' ∧ e.cause.Alike e'.cause) : Fits us vs (.fail e) r := by
  by_cases hus : us = []
  · obtain ⟨e', rfl, hcause⟩ := h hus
    exact .fail hcause
  · exact .lost hus

namespace Reader

variable {α β σ : Type} {us vs : List Tree}

theorem word_ok {name : String} {s t : Stream} {tokens : List Tree}
    (h : word name s = .ok tokens t) :
    ∃ i, word? s.rest = some (i, t.rest) := by
  unfold word at h
  split at h
  next i rest hword =>
    split at h
    next =>
      cases h
      exact ⟨i, hword⟩
    next => cases h
  next => cases h

/-- Nothing can be read from the tokens `vs` alone. -/
def FailsOn (p : Reader α) (vs : List Tree) : Prop :=
  ∀ close left, ∃ e, p ⟨vs, close, left⟩ = .fail e

/-- Nothing can be read where nothing is shown. -/
def Starved (p : Reader α) : Prop := ∀ vs, Trees.shown vs = [] → p.FailsOn vs

theorem FailsOn.bind {p : Reader α} {vs : List Tree} (h : p.FailsOn vs) {f : α → Reader β} :
    (p >>= f).FailsOn vs := by
  intro close left
  obtain ⟨e, he⟩ := h close left
  exact ⟨e, by simp only [Bind.bind, he]⟩

theorem FailsOn.of_reads {p : Reader α} {vs ws : List Tree} {a : α} (hp : Reads p vs a ws)
    {f : α → Reader β} (h : (f a).FailsOn ws) : (p >>= f).FailsOn vs := by
  intro close left
  rw [bind_of_ok (hp close left)]
  exact h close left

theorem FailsOn.look {p : Look} {vs : List Tree} {f : Bool → Reader β} (h : (f (p vs)).FailsOn vs) :
    (Reader.look p >>= f).FailsOn vs :=
  fun close left => h close left

theorem FailsOn.ahead {vs : List Tree} {f : List Tree → Reader β} (h : (f vs).FailsOn vs) :
    (Reader.ahead >>= f).FailsOn vs :=
  fun close left => h close left

namespace Starved

theorem bind {p : Reader α} (h : p.Starved) {f : α → Reader β} : (p >>= f).Starved :=
  fun vs hvs => (h vs hvs).bind

theorem refuse {reason : String} : (Reader.refuse reason : Reader α).Starved :=
  fun _ _ _ _ => ⟨_, rfl⟩

theorem expected {phrases : List String} : (Reader.expected phrases : Reader α).Starved :=
  fun _ _ _ _ => ⟨_, rfl⟩

theorem lifetime : Reader.lifetime.Starved := by
  intro vs hvs close left
  rw [Reader.lifetime, lifetime?, hvs]
  exact ⟨_, rfl⟩

theorem name : Reader.name.Starved := by
  intro vs hvs close left
  rw [Reader.name, word?, hvs]
  exact ⟨_, rfl⟩

theorem ahead {f : List Tree → Reader β} (hf : ∀ vs, Trees.shown vs = [] → (f vs).Starved) :
    (Reader.ahead >>= f).Starved :=
  fun vs hvs close left => hf vs hvs vs hvs close left

theorem here {f : Span → Reader β} (hf : ∀ place, (f place).Starved) :
    (Reader.here >>= f).Starved :=
  fun vs hvs close left => hf _ vs hvs close left

theorem pure {a : α} {f : α → Reader β} (hf : (f a).Starved) :
    ((Pure.pure a : Reader α) >>= f).Starved :=
  fun vs hvs close left => hf vs hvs close left

theorem whenLook {look : Look} {r : Reader (List Tree)} {f : List Tree → Reader β}
    (hf : (f []).Starved)
    (h : ∀ vs, Trees.shown vs = [] → look vs = false) :
    (Reader.whenLook look r >>= f).Starved := by
  intro vs hvs
  have hr : Reads (Reader.whenLook look r) vs [] vs := .look (h vs hvs) .pure
  exact .of_reads hr (hf vs hvs)

theorem ifLook {look : Look} {p p' : Reader α} (hp' : p'.Starved)
    (h : ∀ vs, Trees.shown vs = [] → look vs = false) :
    (Reader.look look >>= fun b => if b then p else p').Starved := by
  refine fun vs hvs => .look ?_
  rw [h vs hvs]
  exact hp' vs hvs

end Starved

/-- `q` does with `us` behind the tokens `vs` what `p` does with `vs` alone. -/
def FitsAt (us vs : List Tree) (p q : Reader α) : Prop :=
  ∀ close close' left, Reply.Fits us vs (p ⟨vs, close, left⟩) (q ⟨vs ++ us, close', left⟩)

/-- `q` does with `us` behind any tokens what `p` does with them alone. -/
def Fits (us : List Tree) (p q : Reader α) : Prop := ∀ vs, FitsAt us vs p q

/-- `us` behind its tokens makes no difference to the reader. -/
abbrev Bounded (us : List Tree) (p : Reader α) : Prop := Fits us p p

namespace FitsAt

variable {p q : Reader α} {f f' : α → Reader β}

theorem of_suffix {ws : List Tree} (h : FitsAt us ws p q)
    (hws : Trees.visible ws <:+ Trees.visible vs) (close close' : Span) (left : Option Failure) :
    Reply.Fits us vs (p ⟨ws, close, left⟩) (q ⟨ws ++ us, close', left⟩) := by
  have := h close close' left
  generalize p ⟨ws, close, left⟩ = r at this ⊢
  generalize q ⟨ws ++ us, close', left⟩ = r' at this ⊢
  cases this with
  | ok rest left suffix => exact .ok rest left (suffix.trans hws)
  | fail cause => exact .fail cause
  | lost more => exact .lost more

/-- What follows is read where something that was visible may be taken. -/
theorem bind (hp : FitsAt us vs p q)
    (hf : ∀ a ws, Trees.visible ws <:+ Trees.visible vs → FitsAt us ws (f a) (f' a)) :
    FitsAt us vs (p >>= f) (q >>= f') := by
  intro close close' left
  have h := hp close close' left
  generalize hr : p ⟨vs, close, left⟩ = r at h
  generalize hr' : q ⟨vs ++ us, close', left⟩ = r' at h
  cases h with
  | @ok a t t' rest left suffix =>
    rw [bind_of_ok hr, bind_of_ok hr']
    obtain ⟨ts, close, left⟩ := t
    obtain ⟨ts', close', left'⟩ := t'
    cases rest
    cases left
    exact (hf a ts suffix).of_suffix suffix _ _ _
  | @fail e e' cause =>
    have hfail : (p >>= f) ⟨vs, close, left⟩ = .fail e := by simp only [Bind.bind, hr]
    have hfail' : (q >>= f') ⟨vs ++ us, close', left⟩ = .fail e' := by
      simp only [Bind.bind, hr']
    rw [hfail, hfail']
    exact .fail cause
  -- a failure of the first says nothing about the second, so nothing is left to compare
  | @lost e _ more =>
    have hfail : (p >>= f) ⟨vs, close, left⟩ = .fail e := by simp only [Bind.bind, hr]
    rw [hfail]
    exact .lost more

theorem look {p : Look} {f f' : Bool → Reader β} (hp : p (vs ++ us) = p vs)
    (hf : FitsAt us vs (f (p vs)) (f' (p vs))) :
    FitsAt us vs (look p >>= f) (Reader.look p >>= f') := by
  intro close close' left
  rw [look_bind, look_bind]
  dsimp only
  rw [hp]
  exact hf close close' left

theorem ahead {f f' : List Tree → Reader β} (hf : FitsAt us vs (f vs) (f' (vs ++ us))) :
    FitsAt us vs (ahead >>= f) (Reader.ahead >>= f') :=
  fun close close' left => hf close close' left

theorem advance {rest : List Tree} (h : Trees.visible rest <:+ Trees.visible vs) :
    FitsAt us vs (advance rest) (Reader.advance (rest ++ us)) :=
  fun _ _ _ => .ok rfl rfl h

theorem failing (hus : us ≠ []) (h : p.FailsOn vs) : FitsAt us vs p q := by
  intro close close' left
  obtain ⟨e, he⟩ := h close left
  rw [he]
  exact .lost hus

/-- A question that may be answered otherwise with more tokens behind must fail on the way that is
taken without them. -/
theorem question {p : Look} {f f' : Bool → Reader β}
    (hsame : p (vs ++ us) = p vs → FitsAt us vs (f (p vs)) (f' (p vs)))
    (hother : p (vs ++ us) ≠ p vs → (f (p vs)).FailsOn vs) :
    FitsAt us vs (Reader.look p >>= f) (Reader.look p >>= f') := by
  by_cases h : p (vs ++ us) = p vs
  · exact look h (hsame h)
  · refine failing (fun hus => h ?_) (.look (hother h))
    rw [hus, List.append_nil]

end FitsAt

namespace Fits

variable {p q : Reader α} {f f' : α → Reader β}

/-- What is left of the tokens alone stands at their end. -/
theorem suffix (h : Fits us p q) {close : Span} {left : Option Failure} {a : α} {t : Stream}
    (hp : p ⟨vs, close, left⟩ = .ok a t) : Trees.visible t.rest <:+ Trees.visible vs := by
  have := h vs close close left
  rw [hp] at this
  generalize q ⟨vs ++ us, close, left⟩ = r at this
  cases this with
  | ok _ _ suffix => exact suffix

theorem pure {a : α} : Fits us (pure a) (Pure.pure a : Reader α) :=
  fun _ _ _ _ => .ok rfl rfl List.suffix_rfl

theorem bind (hp : Fits us p q) (hf : ∀ a, Fits us (f a) (f' a)) :
    Fits us (p >>= f) (q >>= f') :=
  fun vs => (hp vs).bind fun a ws _ => hf a ws

theorem ite {c : Prop} [Decidable c] {p' q' : Reader α} (hp : Fits us p q) (hp' : Fits us p' q') :
    Fits us (if c then p else p') (if c then q else q') := by
  split
  · exact hp
  · exact hp'

theorem here {f f' : Span → Reader β} (hf : ∀ place place', Fits us (f place) (f' place')) :
    Fits us (here >>= f) (Reader.here >>= f') :=
  fun _ _ _ _ => hf _ _ _ _ _ _

theorem ahead {f f' : List Tree → Reader β}
    (hf : ∀ vs, Fits us (f vs) (f' (vs ++ us))) :
    Fits us (ahead >>= f) (Reader.ahead >>= f') :=
  fun vs => .ahead (hf vs vs)

section Failing

theorem failAt_alike {place place' : Span} {cause cause' : Cause} (h : cause.Alike cause') :
    Fits us (failAt place cause : Reader α) (Reader.failAt place' cause') :=
  fun _ _ _ _ => .fail h

theorem failAt {place place' : Span} {cause : Cause} :
    Fits us (failAt place cause : Reader α) (Reader.failAt place' cause) :=
  failAt_alike (.refl _)

theorem failAt_bind {place place' : Span} {cause : Cause} {f f' : α → Reader β} :
    Fits us (Reader.failAt place cause >>= f) (Reader.failAt place' cause >>= f') :=
  fun _ _ _ _ => .fail (.refl _)

theorem refuse_bind {reason : String} {f f' : α → Reader β} :
    Fits us (Reader.refuse reason >>= f) (Reader.refuse reason >>= f') := by
  refine fun _ _ _ _ => .failed ?_
  rintro rfl
  exact ⟨_, rfl, by rw [List.append_nil]⟩

theorem failHere {cause : Bool → Cause} :
    Fits us (failHere cause : Reader α) (Reader.failHere cause) := by
  refine fun _ _ _ _ => .failed ?_
  rintro rfl
  exact ⟨_, rfl, by rw [List.append_nil]⟩

theorem refuse {reason : String} : Fits us (refuse reason : Reader α) (Reader.refuse reason) :=
  failHere

theorem expected {phrases : List String} :
    Fits us (expected phrases : Reader α) (Reader.expected phrases) := by
  refine fun _ _ _ _ => .failed ?_
  rintro rfl
  exact ⟨_, rfl, by rw [List.append_nil]⟩

theorem expected_bind {phrases : List String} {f f' : α → Reader β} :
    Fits us (Reader.expected phrases >>= f) (Reader.expected phrases >>= f') := by
  refine fun _ _ _ _ => .failed ?_
  rintro rfl
  exact ⟨_, rfl, by rw [List.append_nil]⟩

theorem nothing : Fits us (nothing : Reader α) Reader.nothing := by
  intro vs close close' left
  cases vs with
  | nil =>
    refine .failed ?_
    rintro rfl
    exact ⟨_, rfl, .refl _⟩
  | cons t vs => exact .fail (.refl _)

end Failing

theorem look {p : Look} (h : ∀ vs, p (vs ++ us) = p vs) :
    Fits us (look p) (Reader.look p) := by
  intro vs close close' left
  rw [Reader.look, Reader.look]
  dsimp only
  rw [h vs]
  exact .ok rfl rfl List.suffix_rfl

section Tokens

variable [Trees.Tail us]

theorem op {text : String} : Fits us (op text) (Reader.op text) := by
  intro vs close close' left
  unfold Reader.op
  dsimp only
  cases h : operator? text.toList vs with
  | some found =>
    obtain ⟨tokens, rest⟩ := found
    rw [operator?_append_of_some us h]
    exact .ok rfl rfl (suffix_of_operator? h)
  | none =>
    refine .failed ?_
    rintro rfl
    rw [List.append_nil, h]
    exact ⟨_, rfl, .refl _⟩

theorem opSpan {text : String} : Fits us (opSpan text) (Reader.opSpan text) :=
  op.bind fun _ => .pure

theorem word {name : String} : Fits us (word name) (Reader.word name) := by
  intro vs close close' left
  unfold Reader.word
  dsimp only
  rw [word?_append]
  cases h : word? vs with
  | some found =>
    obtain ⟨i, rest⟩ := found
    dsimp only [Option.map_some]
    by_cases hi : i.name = name
    · rw [if_pos hi, if_pos hi]
      exact .ok rfl rfl (suffix_of_word? h)
    · rw [if_neg hi, if_neg hi]
      exact .fail (.refl _)
  | none =>
    refine .failed ?_
    rintro rfl
    exact ⟨_, rfl, by rw [List.append_nil]⟩

theorem wordSpan {name : String} : Fits us (wordSpan name) (Reader.wordSpan name) :=
  word.bind fun _ => .pure

theorem name : Fits us name Reader.name := by
  intro vs close close' left
  unfold Reader.name
  dsimp only
  rw [word?_append]
  cases h : word? vs with
  | some found =>
    obtain ⟨i, rest⟩ := found
    dsimp only [Option.map_some]
    by_cases hi : isKeyword i.name = true
    · rw [if_pos hi, if_pos hi]
      exact .fail (.refl _)
    · rw [if_neg hi, if_neg hi]
      exact .ok rfl rfl (suffix_of_word? h)
  | none =>
    refine .failed ?_
    rintro rfl
    exact ⟨_, rfl, by rw [List.append_nil]⟩

theorem anyWord : Fits us anyWord Reader.anyWord := by
  intro vs close close' left
  unfold Reader.anyWord
  dsimp only
  rw [word?_append]
  cases h : word? vs with
  | some found => exact .ok rfl rfl (suffix_of_word? h)
  | none =>
    refine .failed ?_
    rintro rfl
    exact ⟨_, rfl, by rw [List.append_nil]⟩

theorem lifetime : Fits us lifetime Reader.lifetime := by
  intro vs close close' left
  unfold Reader.lifetime
  dsimp only
  rw [lifetime?_append]
  cases h : lifetime? vs with
  | some found => exact .ok rfl rfl (suffix_of_lifetime? h)
  | none =>
    refine .failed ?_
    rintro rfl
    exact ⟨_, rfl, by rw [List.append_nil]⟩

theorem literal : Fits us literal Reader.literal := by
  intro vs close close' left
  unfold Reader.literal
  dsimp only
  rw [literalHere?_append]
  cases h : literalHere? vs with
  | some found => exact .ok rfl rfl (suffix_of_literalHere? h)
  | none =>
    refine .failed ?_
    rintro rfl
    exact ⟨_, rfl, by rw [List.append_nil]⟩

theorem text : Fits us text Reader.text := by
  intro vs close close' left
  unfold Reader.text
  dsimp only
  rw [literal?_append, Look.text_append]
  cases h : literal? vs with
  | some found =>
    dsimp only [Option.map_some]
    by_cases htext : Look.text vs = true
    · rw [if_pos htext, if_pos htext]
      exact .ok rfl rfl (suffix_of_literal? h)
    · rw [if_neg htext, if_neg htext]
      exact .fail (.refl _)
  | none =>
    refine .failed ?_
    rintro rfl
    exact ⟨_, rfl, by rw [List.append_nil]⟩

theorem wholeGroup : Fits us wholeGroup Reader.wholeGroup := by
  intro vs close close' left
  unfold Reader.wholeGroup
  cases vs with
  | nil =>
    refine .failed ?_
    rintro rfl
    exact ⟨_, rfl, .refl _⟩
  | cons t vs =>
    cases t with
    | group delim inner span =>
      dsimp only [List.cons_append]
      by_cases hd : delim = .invisible
      · rw [if_pos hd, if_pos hd]
        exact .fail (.refl _)
      · rw [if_neg hd, if_neg hd]
        exact .ok rfl rfl (List.suffix_append _ _)
    | ident | punct | literal => exact .fail (.refl _)

/-- What stands in a group is the same whatever stands behind it. -/
theorem enclosed {delim : Delim} {p : Reader α} :
    Fits us (enclosed delim p) (Reader.enclosed delim p) := by
  intro vs close close' left
  unfold Reader.enclosed
  dsimp only
  rw [group?_append]
  cases h : group? delim vs with
  | some found =>
    dsimp only [Option.map_some]
    cases p ⟨found.1, found.2.1.closing, left⟩ with
    | ok a t => exact .ok rfl rfl (suffix_of_group? h)
    | fail e => exact .fail (.refl _)
  | none =>
    refine .failed ?_
    rintro rfl
    exact ⟨_, rfl, by rw [List.append_nil]⟩

theorem grouped {delim : Delim} {p : Reader (List Tree)} :
    Fits us (grouped delim p) (Reader.grouped delim p) :=
  enclosed.bind fun _ => .pure

end Tokens

section Parts

variable {r r' : Reader (List Tree)} {p q : Reader α}

/-- A question, and one of two ways to go on. -/
theorem ifLook {stop : Look} {p' q' : Reader α} (hp : Fits us p q) (hp' : Fits us p' q')
    (h : ∀ vs, stop (vs ++ us) = stop vs) :
    Fits us (Reader.look stop >>= fun b => if b then p else p')
      (Reader.look stop >>= fun b => if b then q else q') :=
  (look h).bind fun _ => ite hp hp'

theorem whenLook {stop : Look} (hr : Fits us r r') (h : ∀ vs, stop (vs ++ us) = stop vs) :
    Fits us (whenLook stop r) (Reader.whenLook stop r') :=
  ifLook hr .pure h

theorem sequence_nil : Fits us (sequence []) (Reader.sequence []) := .pure

theorem sequence_cons {ps qs : List (Reader (List Tree))} (hr : Fits us r r')
    (hps : Fits us (sequence ps) (Reader.sequence qs)) :
    Fits us (sequence (r :: ps)) (Reader.sequence (r' :: qs)) :=
  hr.bind fun _ => hps.bind fun _ => .pure

theorem rounds {step step' : σ → Reader (Round σ β)} (h : ∀ a, Fits us (step a) (step' a))
    {fuel fuel' : Nat} (hle : fuel ≤ fuel') (heq : us = [] → fuel = fuel') (a : σ) :
    Fits us (rounds step fuel a) (Reader.rounds step' fuel' a) := by
  induction fuel generalizing fuel' a with
  | zero =>
    intro vs close close' left
    refine .failed fun hus => ?_
    cases heq hus
    exact ⟨_, rfl, by rw [hus, List.append_nil]⟩
  | succ fuel ih =>
    cases fuel' with
    | zero => omega
    | succ fuel' =>
      refine (h a).bind fun round => ?_
      cases round with
      | again b => exact ih (by omega) (fun hus => Nat.succ.inj (heq hus)) b
      | done b => exact pure

/-- More tokens behind leave more rounds to go. -/
theorem loop {step step' : σ → Reader (Round σ β)} (h : ∀ a, Fits us (step a) (step' a)) {a : σ} :
    Fits us (loop step a) (Reader.loop step' a) := by
  intro vs close close' left
  refine rounds h (Nat.add_le_add_right ?_ 2) (fun hus => ?_) a vs close close' left
  · rw [Trees.weight_append]
    exact Nat.le_add_right _ _
  · dsimp only
    rw [hus, List.append_nil]

theorem manyWhile {more : Look} (hp : Fits us p q) (h : ∀ vs, more (vs ++ us) = more vs) :
    Fits us (manyWhile more p) (Reader.manyWhile more q) :=
  loop fun _ => ifLook (hp.bind fun _ => pure) pure h

theorem manyTokens {more : Look} (hr : Fits us r r')
    (h : ∀ vs, more (vs ++ us) = more vs) :
    Fits us (manyTokens more r) (Reader.manyTokens more r') :=
  (manyWhile hr h).bind fun _ => pure

section Lists

variable [Trees.Tail us] {stop : Look} {separator : String}

theorem separated (hp : Fits us p q) (h : ∀ vs, stop (vs ++ us) = stop vs) :
    Fits us (separated stop separator p) (Reader.separated stop separator q) := by
  refine loop fun done => ifLook pure (hp.bind fun a => ?_) h
  exact ifLook pure (op.bind fun _ => pure) h

theorem separatedTokens (hr : Fits us r r') (h : ∀ vs, stop (vs ++ us) = stop vs) :
    Fits us (separatedTokens stop separator r) (Reader.separatedTokens stop separator r') := by
  refine loop fun done => ifLook pure (hr.bind fun ts => ?_) h
  exact ifLook pure (op.bind fun _ => pure) h

omit [Trees.Tail us] in
theorem ifStop {p' q' : Reader α} (hp : Fits us p q) (hp' : Fits us p' q') (hstarved : p'.Starved)
    (hshown : ∀ vs, Trees.shown vs ≠ [] → stop (vs ++ us) = stop vs)
    (hstop : ∀ vs, Trees.shown vs = [] → stop vs = true → stop (vs ++ us) = true) :
    Fits us (Reader.look stop >>= fun b => if b then p else p')
      (Reader.look stop >>= fun b => if b then q else q') := by
  refine fun vs => .question (fun _ => ite hp hp' vs) fun h => ?_
  have hvs : Trees.shown vs = [] := Classical.byContradiction fun hne => h (hshown vs hne)
  cases htrue : stop vs with
  | false => exact hstarved vs hvs
  | true => exact absurd ((hstop vs hvs htrue).trans htrue.symm) h

omit [Trees.Tail us] in
theorem ifComma {p' q' : Reader α} (hp : Fits us p q) (hp' : Fits us p' q')
    (hstarved : p'.Starved) :
    Fits us (Reader.look (.op ",") >>= fun b => if b then p else p')
      (Reader.look (.op ",") >>= fun b => if b then q else q') :=
  ifStop hp hp' hstarved (fun _ => Look.comma_append us) fun vs hvs h => by simp [hvs] at h

theorem chained (hr : Fits us r r') (hstarved : r.Starved)
    (hshown : ∀ vs, Trees.shown vs ≠ [] → stop (vs ++ us) = stop vs)
    (hstop : ∀ vs, Trees.shown vs = [] → stop vs = true → stop (vs ++ us) = true)
    (hseparator : ∀ vs, Look.op separator (vs ++ us) = Look.op separator vs) :
    Fits us (chained stop separator r) (Reader.chained stop separator r') := by
  refine loop fun done => ifStop pure (hr.bind fun ts => ?_) hstarved.bind hshown hstop
  exact ifLook (op.bind fun _ => pure) pure hseparator

theorem chained_ended {ps : List Look} (hr : Fits us r r') (hstarved : r.Starved)
    (hps : ∀ p ∈ ps, ∀ vs, p (vs ++ us) = p vs)
    (hseparator : ∀ vs, Look.op separator (vs ++ us) = Look.op separator vs) :
    Fits us (Reader.chained (.anyOf (.ended :: .op "," :: ps)) separator r)
      (Reader.chained (.anyOf (.ended :: .op "," :: ps)) separator r') :=
  chained hr hstarved (fun _ => Look.stop_shown hps) (fun _ => Look.stop_hollow hps) hseparator

end Lists

end Parts

/-- What was taken is the same with and without the tokens behind. -/
theorem verbatim {p q : Reader α} (hp : Fits us p q) :
    Fits us (verbatim p) (Reader.verbatim q) := by
  refine ahead fun before => hp.bind fun _ => ahead fun after => ?_
  rw [Trees.between_append]
  exact pure

end Fits

end Reader

end Delegation
