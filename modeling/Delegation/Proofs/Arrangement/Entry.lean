import Delegation.Proofs.Boundary.Options
import Delegation.Proofs.Depth.Rules

namespace Delegation

def Trees.Assign (name : String) (ts rest : List Tree) : Prop :=
  ∃ span after eq, word? ts = some (⟨name, span⟩, after) ∧ operator? ['='] after = some (eq, rest)

namespace Reader

variable {α σ : Type}

/-- `name = VALUE` from `s` up to `t`, where the value is `a`, as `value` reads it. -/
def Assigns (name : String) (value : Reader α) (s : Stream) (a : α) (t : Stream) : Prop :=
  ∃ rest, Trees.Assign name s.rest rest ∧ value { s with rest := rest } = .ok a t

theorem op_ok {text : String} {s t : Stream} {tokens : List Tree}
    (h : op text s = .ok tokens t) :
    operator? text.toList s.rest = some (tokens, t.rest) ∧ t = { s with rest := t.rest } := by
  unfold op at h
  split at h
  next hsign =>
    cases h
    exact ⟨hsign, rfl⟩
  next => cases h

theorem manyWhile_eq_nil {more : Look} {p : Reader α} {s t : Stream}
    (h : manyWhile more p s = .ok [] t) : t = s := by
  have hgrown (fuel : Nat) (done : List α) (hdone : done ≠ []) :
      (rounds (collect more p) fuel done).Yields (· ≠ []) := by
    refine Yields.rounds (I := (· ≠ [])) (fun done hdone => .bind' fun b => ?_) fuel hdone
    refine .ite (fun _ => .bind' fun a => .pure ?_) fun _ => .pure ?_
    · simp [Round.Holds]
    · simpa [Round.Holds] using hdone
  change rounds (collect more p) (Trees.weight s.rest + 1 + 1) [] s = _ at h
  obtain ⟨round, u, hround, h⟩ := bind_eq_ok.mp h
  rw [collect, look_bind] at hround
  cases hmore : more s.rest with
  | true =>
    simp only [hmore, if_true] at hround
    obtain ⟨a, v, -, hround⟩ := bind_eq_ok.mp hround
    obtain ⟨rfl, rfl⟩ := pure_eq_ok.mp hround
    exact absurd rfl (hgrown _ [a] (by simp) _ _ _ h)
  | false =>
    simp only [hmore, Bool.false_eq_true, if_false] at hround
    obtain ⟨rfl, rfl⟩ := pure_eq_ok.mp hround
    exact (pure_eq_ok.mp h).2.symm

theorem optionKey_isName {name : String} {s t : Stream} {key : Path}
    (h : optionKey s = .ok key t) (hkey : key.isName name = true) :
    ∃ span after, word? s.rest = some (⟨name, span⟩, after) ∧ t = { s with rest := after } := by
  obtain ⟨leading, u, hleading, h⟩ := bind_eq_ok.mp h
  rw [look_bind] at h
  cases hword : Look.anyWord u.rest with
  | false =>
    simp only [hword, Bool.false_eq_true, if_false, look_bind] at h
    split at h <;> cases h
  | true =>
    simp only [hword, if_true] at h
    obtain ⟨first, v, hfirst, h⟩ := bind_eq_ok.mp h
    obtain ⟨more, w, hmore, h⟩ := bind_eq_ok.mp h
    obtain ⟨rfl, rfl⟩ := pure_eq_ok.mp h
    cases leading with
    | some span => cases hkey
    | none =>
      cases more with
      | cons segment more => cases hkey
      | nil =>
        obtain rfl : first.name = name := by simpa [Path.isName] using hkey
        obtain rfl := manyWhile_eq_nil hmore
        obtain rfl := leadingColons_none hleading
        obtain ⟨after, hafter, rfl⟩ := anyWord_ok hfirst
        exact ⟨first.span, after, hafter, rfl⟩

theorem optionKey_reads {ts after : List Tree} {i : Ident} (hword : word? ts = some (i, after))
    (hcolons : Look.op "::" after = false) : Reads optionKey ts (.ofIdent i) after := by
  have hleading : Reads leadingColons ts none ts := .look (Look.op_of_word? hword "::") .pure
  have hmany : Reads (manyWhile (.op "::") do
      let _ ← op "::"
      return Segment.plain (← anyWord)) after [] after := .one (.look hcolons .pure)
  have hany : Reads anyWord ts i after := by
    intro close left
    rw [anyWord, hword]
  have hahead : Look.anyWord ts = true := by rw [Look.anyWord, hword]; rfl
  exact .bind hleading (.look hahead (.bind hany (.bind hmany .pure)))

theorem assign_reads {name : String} {ts rest : List Tree} (h : Trees.Assign name ts rest) :
    ∃ span after eq, Reads optionKey ts (.ofIdent ⟨name, span⟩) after ∧
      Reads (op "=") after eq rest := by
  obtain ⟨span, after, eq, hword, hsign⟩ := h
  have hcolons : Look.op "::" after = false := by
    change (operator? [':', ':'] after).isSome = false
    unfold operator? at hsign ⊢
    cases hp : punct? after with
    | none => rfl
    | some found =>
      obtain ⟨c, joint, place, more⟩ := found
      simp only [hp, Option.ite_none_right_eq_some] at hsign
      simp [hsign.1]
  have hop : Reads (op "=") after eq rest := by
    intro close left
    have htext : operator? "=".toList after = some (eq, rest) := hsign
    simp only [op, htext]
  exact ⟨span, after, eq, optionKey_reads hword hcolons, hop⟩

namespace Assigns

variable {name : String} {value value' : Reader α} {s t : Stream} {a : α}

theorem mono (h : Assigns name value s a t) (hle : value ≤ value') : Assigns name value' s a t := by
  obtain ⟨rest, hassign, hvalue⟩ := h
  exact ⟨rest, hassign, ok_of_le hle hvalue⟩

/-- An entry that goes on behind the key `name` with the slot that `f` has for its value reads the
option if the slot is free. -/
theorem entry {entry : σ → Reader σ} (h : Assigns name value s a t) (f : Option α → σ)
    (hentry : ∀ slot span u, optionKey s = .ok (.ofIdent ⟨name, span⟩) u → entry (f slot) s =
      (once s.rest (.ofIdent ⟨name, span⟩) name slot value >>= fun r => pure (f r)) u) :
    entry (f none) s = .ok (f (some a)) t ∧
    ∀ given, ∃ e, entry (f (some given)) s = .fail e ∧ e.cause = .duplicateOption name := by
  obtain ⟨rest, hassign, hvalue⟩ := h
  obtain ⟨span, after, eq, hkey, hop⟩ := assign_reads hassign
  have honce (slot : Option α) :
      once s.rest (.ofIdent ⟨name, span⟩) name slot value ⟨after, s.close, s.leftover⟩ =
      (if slot.isSome then refuseOption s.rest (.ofIdent ⟨name, span⟩) (.duplicateOption name)
        else pure (some a)) t := by
    rw [once, bind_of_ok (hop s.close s.leftover), bind_of_ok hvalue]
  refine ⟨?_, fun given => ?_⟩
  · rw [hentry none span _ (hkey s.close s.leftover)]
    exact bind_of_ok (honce none) _
  · rw [hentry (some given) span _ (hkey s.close s.leftover)]
    exact ⟨_, bind_fail (honce (some given)), rfl⟩

theorem of_once {begins : List Tree} {key : Path} {slot r : Option α} {u : Stream}
    (hkey : optionKey s = .ok key u) (hname : key.isName name = true)
    (h : once begins key name slot value u = .ok r t) :
    ∃ a, r = some a ∧ Assigns name value s a t := by
  obtain ⟨span, after, hword, rfl⟩ := optionKey_isName hkey hname
  obtain ⟨eq, v, hop, hrest⟩ := bind_eq_ok.mp h
  obtain ⟨a, w, hvalue, hslot⟩ := bind_eq_ok.mp hrest
  obtain ⟨hsign, hv⟩ := op_ok hop
  rw [hv] at hvalue
  cases slot with
  | some b => cases hslot
  | none =>
    obtain ⟨rfl, rfl⟩ := pure_eq_ok.mp hslot
    exact ⟨a, rfl, v.rest, ⟨span, after, eq, hword, hsign⟩, hvalue⟩

theorem append {ts us : List Tree} [Trees.Tail us] {close : Span} {left : Option Failure}
    (hvalue : value.Bounded us) (h : Assigns name value ⟨ts, close, left⟩ a t) (close' : Span) :
    ∃ t', t'.rest = t.rest ++ us ∧ t'.leftover = t.leftover ∧
      Assigns name value ⟨ts ++ us, close', left⟩ a t' := by
  obtain ⟨rest, ⟨span, after, eq, hword, hsign⟩, hread⟩ := h
  have hassign : Trees.Assign name (ts ++ us) (rest ++ us) := by
    refine ⟨span, after ++ us, eq, ?_, operator?_append_of_some us hsign⟩
    rw [word?_append, hword]
    rfl
  have hfits := hvalue rest close close' left
  dsimp only at hread
  rw [hread] at hfits
  generalize hr : value ⟨rest ++ us, close', left⟩ = r at hfits
  cases hfits with
  | @ok a t t' hrest hleft suffix => exact ⟨t', hrest, hleft, rest ++ us, hassign, hr⟩

theorem visible_lt (hvalue : value.Bounded []) (h : Assigns name value s a t) :
    (Trees.visible t.rest).length < (Trees.visible s.rest).length := by
  obtain ⟨rest, ⟨span, after, eq, hword, hsign⟩, hread⟩ := h
  calc (Trees.visible t.rest).length
    _ ≤ (Trees.visible rest).length := (hvalue.suffix hread).length_le
    _ ≤ (Trees.visible after).length := (suffix_of_operator? hsign).length_le
    _ < (Trees.visible s.rest).length := by
      rw [visible_of_word? hword, List.length_cons]
      exact Nat.lt_succ_self _

end Assigns

end Reader

end Delegation
