import Delegation.Options
import Delegation.Proofs.Boundary.Rules

namespace Delegation

namespace Reader

variable {σ α : Type} {g : Rules} {us : List Tree}

section Parts

variable [Trees.Tail us]

def restriction (span : Span) : Reader Visibility := do
  match group? .paren (← ahead) with
  | some (inner, parens, rest) =>
    if Look.anyOf [.word "crate", .word "self", .word "super"] inner then
      match word? inner with
      | some (i, []) => do
        advance rest
        return .restricted span parens none (.ofIdent i)
      | _ => return .everywhere span
    else if Look.word "in" inner then
      let ((within, path), _) ← enclosed .paren do return (← wordSpan "in", ← modPath)
      return .restricted span parens (some within) path
    else return .everywhere span
  | none => return .everywhere span

theorem restriction_bounded (span : Span) : (restriction span).Bounded us := by
  refine fun vs => .ahead ?_
  rw [group?_append]
  cases h : group? .paren vs with
  | none => exact Fits.pure vs
  | some found =>
    obtain ⟨inner, parens, rest⟩ := found
    dsimp only [Option.map_some]
    split
    next =>
      split
      next i => exact .bind (.advance (suffix_of_group? h)) fun _ ws _ => Fits.pure ws
      next => exact Fits.pure vs
    next => exact Fits.ite (.bind .enclosed fun _ => .pure) .pure vs

theorem visibility_bounded : visibility.Bounded us := by
  have hpub : (look (.word "pub") >>= fun b =>
      if b then wordSpan "pub" >>= restriction else pure .inherited).Bounded us :=
    .ifLook (.bind .wordSpan restriction_bounded) .pure (by simp)
  refine fun vs => .ahead ?_
  rw [group?_append]
  cases h : group? .invisible vs with
  | none => exact hpub vs
  | some found =>
    obtain ⟨inner, span, rest⟩ := found
    cases inner with
    | nil => exact .bind (.advance (suffix_of_group? h)) fun _ ws _ => Fits.pure ws
    | cons => exact hpub vs

end Parts

section Places

theorem optionKey_bounded : optionKey.Bounded [] := by
  refine .bind leadingColons_bounded fun leading => .ifLook ?_ ?_ (by simp)
  · refine .bind .anyWord fun first => .bind (.manyWhile ?_ (by simp)) fun _ => .pure
    exact .bind .op fun _ => .bind .anyWord fun _ => .pure
  · exact .ifLook .refuse (.bind (.look (by simp)) fun _ => .failHere) (by simp)

theorem refuseOption_fits {begins begins' : List Tree} {key : Path} {cause cause' : Cause}
    (h : cause.Alike cause') :
    Fits us (refuseOption begins key cause : Reader α) (refuseOption begins' key cause') :=
  .ahead fun _ => .failAt_alike h

theorem once_bounded {begins begins' : List Tree} {key : Path} {name : String} {slot : Option α}
    {value : Reader α} [Trees.Tail us] (h : value.Bounded us) :
    Fits us (once begins key name slot value) (once begins' key name slot value) :=
  .bind .op fun _ => .bind h fun _ => .ite (refuseOption_fits (.refl _)) .pure

theorem directiveOption_fits (hg : g.Bounded []) (d : Directive) :
    Fits [] (directiveOption .container g d) (directiveOption .struct g d) := by
  refine .ahead fun begins => .bind optionKey_bounded fun key => ?_
  refine .ite (.bind (once_bounded (hg.type true true)) fun _ => .pure) ?_
  refine .ite (.bind (once_bounded (path_bounded hg false)) fun _ => .pure) ?_
  exact refuseOption_fits .unsupported

theorem options_fits {entry entry' : σ → Reader σ} (h : ∀ x, Fits [] (entry x) (entry' x))
    (start : σ) : Fits [] (options entry start) (options entry' start) := by
  refine .ifLook .pure (.loop fun state => .bind (h state) fun next => ?_) (by simp)
  exact .ifLook .pure (.bind .op fun _ => .ifLook .pure .pure (by simp)) (by simp)

end Places

/-- Readers that fit each other read the same from all tokens, or fail alike. -/
theorem Fits.run {p q : Reader α} (h : Fits [] p q) (enclosing : Delim) (ts : List Tree)
    (close close' : Span) :
    (∃ a, run p enclosing ts close = .ok a ∧ Reader.run q enclosing ts close' = .ok a) ∨
    ∃ e e', Reader.run p enclosing ts close = .error e ∧
      Reader.run q enclosing ts close' = .error e' ∧ e.cause.Alike e'.cause := by
  have h := h ts close close' none
  rw [List.append_nil] at h
  unfold Reader.run
  generalize p ⟨ts, close, none⟩ = r at h ⊢
  generalize q ⟨ts, close', none⟩ = r' at h ⊢
  cases h with
  | @ok a t t' rest left suffix =>
    rw [List.append_nil] at rest
    dsimp only
    rw [rest, left]
    cases t.leftover with
    | some e => exact .inr ⟨e, e, rfl, rfl, .refl _⟩
    | none =>
      cases Trees.leftIn enclosing t.rest with
      | some e => exact .inr ⟨e, e, rfl, rfl, .refl _⟩
      | none => exact .inl ⟨a, rfl, rfl⟩
  | fail cause => exact .inr ⟨_, _, rfl, rfl, cause⟩
  | lost more => exact absurd rfl more

end Reader

/-- The attribute is a directive with these tokens as its arguments. -/
structure Attr.IsDirective (a : Attr) (ts : List Tree) : Prop where
  name : a.isNamed directiveName = true
  args : ∃ delim span, a.args = .list delim ts span

theorem Directive.ofArgs_fits {a : Attr} {ts : List Tree} (ha : a.IsDirective ts) :
    (∃ d, Directive.ofArgs ts = .ok d ∧ Directive.ofAttrs [a] = .ok d) ∨
    ∃ e e', Directive.ofArgs ts = .error e ∧ Directive.ofAttrs [a] = .error e' ∧
      e.cause.Alike e'.cause := by
  obtain ⟨delim, span, hargs⟩ := ha.args
  have hattrs : Directive.ofAttrs [a] =
      a.readOptions (Reader.directiveOption .struct) .empty := by
    simp [ofAttrs, directives, ha.name]
  rw [hattrs, Attr.readOptions, hargs]
  have hoption := Reader.directiveOption_fits (rules_bounded [] (4 * Trees.weight ts + 16))
  exact (Reader.options_fits hoption .empty).run .invisible ts .made span.closing

end Delegation
