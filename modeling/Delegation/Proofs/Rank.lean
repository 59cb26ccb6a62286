import Mathlib.Logic.Hydra
import Delegation.Model.Flight
import Delegation.Proofs.Faults

namespace Delegation

variable {σ τ α β ε : Type}

namespace Reducer

/-- Whatever a completed reduction asks for is below the action that was reduced. -/
def Descends (r : Reducer σ α ε) (below : α → α → Prop) : Prop :=
  ∀ s a t e, r.reduce s a = ⟨t, .ok e⟩ → ∀ b ∈ e.actions, below b a

variable {r : Reducer σ α ε} {below : α → α → Prop}

theorem Descends.cutExpand (h : r.Descends below) {s t : σ} {a : α} {e : Effect α}
    (hr : r.reduce s a = ⟨t, .ok e⟩) (queue : List α) :
    Relation.CutExpand below (queue ++ e.actions : List α) (a :: queue : List α) := by
  refine ⟨(e.actions : Multiset α), a, h s a t e hr, ?_⟩
  rw [← Multiset.coe_add, ← Multiset.cons_coe, ← Multiset.singleton_add, add_right_comm]
  exact congrArg (· + (e.actions : Multiset α)) (add_comm _ _)

theorem Descends.ends (h : r.Descends below) (hwf : WellFounded below) (s : σ) (queue : List α) :
    ∃ run, r.Ends s queue run := by
  -- on the multiset of what waits; the state is free, since any of them may decide the follow-ups
  have hacc := hwf.cutExpand.apply (queue : Multiset α)
  generalize hm : (queue : Multiset α) = waiting at hacc
  induction hacc generalizing s queue with
  | intro waiting _ ih =>
    subst hm
    match queue with
    | [] => exact ⟨_, 0, rfl⟩
    | a :: queue =>
      match hr : r.reduce s a with
      | ⟨t, .error e⟩ => exact ⟨_, .fault hr queue⟩
      | ⟨t, .ok e⟩ =>
        obtain ⟨run, hrun⟩ := ih _ (h.cutExpand hr queue) t _ rfl
        exact ⟨_, .next hr hrun⟩

theorem Descends.delegate {child : Reducer τ β ε} {inner : β → β → Prop} (h : child.Descends inner)
    (place : Place σ τ) {wrap : β → α} (rank : α → ℕ)
    (hwrap : ∀ y x, inner y x → rank (wrap y) < rank (wrap x)) {s t : σ} {x : β} {e : Effect α}
    (hr : child.delegate place wrap s x = ⟨t, .ok e⟩) :
    ∀ b ∈ e.actions, rank b < rank (wrap x) := by
  cases hc : place.read s with
  | none =>
    rw [delegate_absent child place wrap hc] at hr
    cases hr
    simp
  | some c =>
    rw [delegate_present child place wrap hc, Reduction.lift_eq_ok] at hr
    obtain ⟨c', e', hx, -, rfl⟩ := hr
    intro b hb
    rw [Effect.actions_map] at hb
    obtain ⟨y, hy, rfl⟩ := List.mem_map.mp hb
    exact hwrap y x (h c x c' e' hx y hy)

theorem Ends.settles {s : σ} {queue : List α} {run : Run σ α ε} (h : r.Ends s queue run)
    (hr : ∀ t b, ∃ u e, r.reduce t b = ⟨u, .ok e⟩) : r.Settles s queue run := by
  obtain ⟨hf, -⟩ | ⟨t, b, rest, fault, -, hb, -⟩ := ends_iff.mp h
  · obtain ⟨fuel, hd⟩ := h
    exact ⟨fuel, hd, hf⟩
  · obtain ⟨u, e, hok⟩ := hr t b
    simp [hb] at hok

end Reducer

/-- A send ends, from every state and with every action, if follow-ups are of lower rank than the
action that asks for them; and it ends with an empty queue if no reduction faults. -/
theorem Store.send_ends_of_rank {r : Reducer σ α ε} (rank : α → ℕ)
    (hrank : r.Descends fun b a => rank b < rank a) (s : σ) (a : α) :
    ∃ fuel run, (∀ more ≥ fuel, (Store.mk r s).send more a = some run) ∧
      ((∀ t b, ∃ u e, r.reduce t b = ⟨u, .ok e⟩) → (Store.mk r s).Settles a run) := by
  have hwf : WellFounded fun b a => rank b < rank a := InvImage.wf rank Nat.lt_wfRel.wf
  obtain ⟨run, hrun⟩ := hrank.ends hwf s [a]
  obtain ⟨fuel, hd⟩ := hrun
  exact ⟨fuel, run, fun more hmore => Reducer.drain_mono hmore hd,
    fun hr => Reducer.Ends.settles ⟨fuel, hd⟩ hr⟩

namespace Model

def ThrusterAction.rank : ThrusterAction → ℕ
  | .throttle _ => 0
  | .ignite _ => 1

mutual

def FlightAction.rank : FlightAction → ℕ
  | .mainEngine a | .escapePod a | .retro a | .booster a | .spare a => a.rank
  | .reserve _ => 0
  | .batch actions => FlightAction.ranks actions + 1

def FlightAction.ranks : List FlightAction → ℕ
  | [] => 0
  | a :: as => a.rank + FlightAction.ranks as

end

theorem FlightAction.rank_le_ranks {a : FlightAction} {as : List FlightAction} (h : a ∈ as) :
    a.rank ≤ FlightAction.ranks as := by
  induction as with
  | nil => simp at h
  | cons b as ih =>
    rw [FlightAction.ranks]
    obtain rfl | h := List.mem_cons.mp h
    · exact Nat.le_add_right _ _
    · exact Nat.le_add_left_of_le (ih h)

theorem thruster_descends : thrusterReducer.Descends fun b a => b.rank < a.rank := by
  intro s a t e hr
  cases a with
  | throttle n =>
    simp only [thrusterReducer] at hr
    split at hr <;> cases hr
    simp
  | ignite n =>
    cases hr
    simp [ThrusterAction.rank]

theorem tank_descends : tankReducer.Descends fun _ _ => False := by
  intro s n t e hr
  simp only [tankReducer] at hr
  split at hr <;> cases hr
  simp

theorem flight_descends : flightReducer.Descends fun b a => b.rank < a.rank := by
  intro s a t e hr
  -- the rank of a wrapped action is that of the action in it
  have thruster (place : Place Flight Thruster) (wrap : ThrusterAction → FlightAction)
      (hwrap : ∀ x, (wrap x).rank = x.rank) {x : ThrusterAction}
      (hx : thrusterReducer.delegate place wrap s x = ⟨t, .ok e⟩) :
      ∀ b ∈ e.actions, b.rank < (wrap x).rank :=
    thruster_descends.delegate place _ (fun y x h => by rwa [hwrap, hwrap]) hx
  cases a with
  | mainEngine x => exact thruster (.direct Flight.mainEngineSlot) .mainEngine (fun _ => rfl) hr
  | escapePod x => exact thruster (.optional Flight.escapePodSlot) .escapePod (fun _ => rfl) hr
  | retro x => exact thruster (.direct Flight.retroSlot) .retro (fun _ => rfl) hr
  | booster x => exact thruster (.direct Flight.boosterSlot) .booster (fun _ => rfl) hr
  | spare x => exact thruster (.direct Flight.backupSlot) .spare (fun _ => rfl) hr
  | reserve n =>
    exact tank_descends.delegate (.optional Flight.reserveSlot) _ (fun _ _ => False.elim) hr
  | batch actions =>
    cases hr
    intro b hb
    exact Nat.lt_succ_of_le (FlightAction.rank_le_ranks hb)

/-- A batch with a batch in it: the first action of the outer one leads to more work than what is
behind it. -/
theorem flight_send_ends :
    let a : FlightAction :=
      .batch [.batch [.mainEngine (.ignite 2), .retro (.ignite 1)], .mainEngine (.throttle 3)]
    ∃ fuel run, (Store.mk flightReducer .grounded).send fuel a = some run ∧ run.reduced = 7 ∧
      run.state.mainEngine.power = 5 := by
  intro a
  obtain ⟨fuel, run, hsend, -⟩ :=
    Store.send_ends_of_rank FlightAction.rank flight_descends .grounded a
  have hrun := hsend (fuel + 7) (Nat.le_add_right _ _)
  have hseven : ∃ run, (Store.mk flightReducer .grounded).send 7 a = some run ∧ run.reduced = 7 ∧
      run.state.mainEngine.power = 5 := ⟨_, rfl, rfl, rfl⟩
  obtain ⟨run', hrun', hreduced, hpower⟩ := hseven
  obtain rfl := Option.some.inj ((Reducer.drain_mono (by omega) hrun').symm.trans hrun)
  exact ⟨_, _, hrun, hreduced, hpower⟩

end Model

end Delegation
