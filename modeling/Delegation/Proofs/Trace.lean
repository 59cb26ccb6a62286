import Mathlib.Tactic.Common
import Mathlib.Order.Basic
import Delegation.Model.Script
import Delegation.Proofs.Settling

namespace Delegation

variable {σ α ε : Type}

def Effect.total : List (Effect α) → Nat
  | [] => 0
  | e :: effects => e.actions.length + total effects

@[simp] theorem Effect.total_nil : Effect.total ([] : List (Effect α)) = 0 := rfl

@[simp] theorem Effect.total_cons (e : Effect α) (effects : List (Effect α)) :
    Effect.total (e :: effects) = e.actions.length + Effect.total effects := rfl

@[simp] theorem Effect.total_append (es fs : List (Effect α)) :
    Effect.total (es ++ fs) = Effect.total es + Effect.total fs := by
  induction es with
  | nil => simp
  | cons e es ih => simp [ih, Nat.add_assoc]

theorem Effect.length_flatMap (effects : List (Effect α)) :
    (effects.flatMap Effect.actions).length = Effect.total effects := by
  induction effects with
  | nil => rfl
  | cons e effects ih => simp [ih]

theorem Effect.total_take_le (effects : List (Effect α)) {i j : Nat} (h : i ≤ j) :
    Effect.total (effects.take i) ≤ Effect.total (effects.take j) := by
  obtain ⟨k, rfl⟩ := Nat.exists_eq_add_of_le h
  rw [List.take_add, Effect.total_append]
  exact Nat.le_add_right _ _

theorem Effect.total_take_succ (effects : List (Effect α)) {i : Nat} {e : Effect α}
    (h : effects[i]? = some e) :
    Effect.total (effects.take (i + 1)) = Effect.total (effects.take i) + e.actions.length := by
  rw [List.take_add_one, h, Effect.total_append]
  rfl

theorem Effect.exists_position (effects : List (Effect α)) (m : Nat)
    (h : m < Effect.total effects) :
    ∃ j p e, effects[j]? = some e ∧ p < e.actions.length ∧
      m = Effect.total (effects.take j) + p := by
  induction effects generalizing m with
  | nil => simp at h
  | cons e effects ih =>
    by_cases hm : m < e.actions.length
    · exact ⟨0, m, e, rfl, hm, by simp⟩
    · rw [Effect.total_cons] at h
      obtain ⟨j, p, e', he', hp, hj⟩ := ih (m - e.actions.length) (by omega)
      refine ⟨j + 1, p, e', he', hp, ?_⟩
      rw [List.take_succ_cons, Effect.total_cons]
      omega

theorem Effect.getElem?_flatMap (effects : List (Effect α)) {j p : Nat} {e : Effect α}
    (he : effects[j]? = some e) (hp : p < e.actions.length) :
    (effects.flatMap Effect.actions)[Effect.total (effects.take j) + p]? = e.actions[p]? := by
  induction effects generalizing j with
  | nil => simp at he
  | cons e' effects ih =>
    rw [List.flatMap_cons]
    cases j with
    | zero =>
      obtain rfl : e' = e := by simpa using he
      rw [List.take_zero, Effect.total_nil, Nat.zero_add, List.getElem?_append_left hp]
    | succ j =>
      rw [List.take_succ_cons, Effect.total_cons, List.getElem?_append_right (by omega),
        ← ih (by simpa using he)]
      congr 1
      omega

/-- Actions reduced one after the other from `start`, with the states between them and the effects
they left, such that the actions are `a` followed by all the effects. -/
structure Decomposition (r : Reducer σ α ε) (start : σ) (a : α) where
  actions : List α
  states : List σ
  effects : List (Effect α)
  states_length : states.length = actions.length + 1
  effects_length : effects.length = actions.length
  head_states : states.head? = some start
  reduced : ∀ i (_ : i < actions.length),
    r.reduce states[i] actions[i] = ⟨states[i + 1], .ok effects[i]⟩
  fed : actions = a :: effects.flatMap Effect.actions

namespace Decomposition

variable {r : Reducer σ α ε} {start : σ} {a : α}

def offset (d : Decomposition r start a) (i : Nat) : Nat := 1 + Effect.total (d.effects.take i)

/-- Every action has been asked for by the time it is reduced: it is the first one, or stands in the
effect of an action before it. -/
def Causal (d : Decomposition r start a) : Prop := ∀ i < d.actions.length, i < d.offset i

/-- The action at a position is the one that was sent, or a follow-up in that many steps. -/
inductive Generation (d : Decomposition r start a) : Nat → Nat → Prop where
  | sent : Generation d 0 0
  | followUp {j k p : Nat} {e : Effect α} (parent : Generation d j k)
      (effect : d.effects[j]? = some e) (inside : p < e.actions.length) :
      Generation d (d.offset j + p) (k + 1)

theorem length_actions (d : Decomposition r start a) :
    d.actions.length = 1 + Effect.total d.effects := by
  conv_lhs => rw [d.fed, List.length_cons, Effect.length_flatMap]
  omega

theorem lt_length (d : Decomposition r start a) {j : Nat} {e : Effect α}
    (h : d.effects[j]? = some e) : j < d.actions.length := by
  rw [← d.effects_length]
  exact (List.getElem?_eq_some_iff.mp h).1

theorem offset_succ (d : Decomposition r start a) {j : Nat} {e : Effect α}
    (h : d.effects[j]? = some e) : d.offset (j + 1) = d.offset j + e.actions.length := by
  simp only [offset, Effect.total_take_succ d.effects h]
  omega

theorem offset_mono (d : Decomposition r start a) {i j : Nat} (h : i ≤ j) :
    d.offset i ≤ d.offset j :=
  Nat.add_le_add_left (Effect.total_take_le d.effects h) 1

theorem exists_parent (d : Decomposition r start a) (hd : d.Causal) {i : Nat} (hi : 0 < i)
    (hlen : i < d.actions.length) :
    ∃ j p e, j < i ∧ d.effects[j]? = some e ∧ p < e.actions.length ∧ i = d.offset j + p := by
  rw [d.length_actions] at hlen
  obtain ⟨j, p, e, he, hp, hj⟩ := Effect.exists_position d.effects (i - 1) (by omega)
  have hoff : i = d.offset j + p := by
    simp only [offset]
    omega
  have := hd j (d.lt_length he)
  exact ⟨j, p, e, by omega, he, hp, hoff⟩

theorem exists_generation (d : Decomposition r start a) (hd : d.Causal) (i : Nat)
    (hi : i < d.actions.length) : ∃ k, d.Generation i k := by
  induction i using Nat.strongRecOn with
  | ind i ih =>
    obtain rfl | hpos := Nat.eq_zero_or_pos i
    · exact ⟨0, .sent⟩
    · obtain ⟨j, p, e, hji, he, hp, rfl⟩ := d.exists_parent hd hpos hi
      obtain ⟨k, hk⟩ := ih j hji (by omega)
      exact ⟨k + 1, .followUp hk he hp⟩

theorem Generation.le {d : Decomposition r start a} {i j k l : Nat}
    (hj : d.Generation j l) (hi : d.Generation i k) (hij : i ≤ j) : k ≤ l := by
  induction hj generalizing i k with
  | sent =>
    obtain rfl : i = 0 := by omega
    generalize hz : 0 = z at hi
    cases hi with
    | sent => exact Nat.le_refl 0
    | followUp => simp only [offset] at hz; omega
  | @followUp j l p e _ he hp ih =>
    cases hi with
    | sent => exact Nat.zero_le _
    | @followUp i k q e' hi' he' hq =>
      have hle : i ≤ j := by
        by_contra hlt
        have := d.offset_mono (show j + 1 ≤ i by omega)
        rw [d.offset_succ he] at this
        omega
      exact Nat.succ_le_succ (ih hi' hle)

theorem Generation.lt {d : Decomposition r start a} {i j k : Nat}
    (hi : d.Generation i (k + 1)) (hj : d.Generation j k) : j < i := by
  by_contra h
  have := hj.le hi (Nat.le_of_not_lt h)
  omega

theorem existsUnique_generation (d : Decomposition r start a) (hd : d.Causal) (i : Nat)
    (hi : i < d.actions.length) : ∃! k, d.Generation i k := by
  obtain ⟨k, hk⟩ := d.exists_generation hd i hi
  exact ⟨k, hk, fun l hl => Nat.le_antisymm (hk.le hl i.le_refl) (hl.le hk i.le_refl)⟩

theorem getElem?_offset (d : Decomposition r start a) {j p : Nat} {e : Effect α}
    (he : d.effects[j]? = some e) (hp : p < e.actions.length) :
    d.actions[d.offset j + p]? = e.actions[p]? := by
  rw [← Effect.getElem?_flatMap d.effects he hp, d.fed, offset, Nat.add_assoc, Nat.add_comm 1,
    List.getElem?_cons_succ]

end Decomposition

/-- The reductions of `as` one after the other from the first state, whoever asked for them. -/
inductive Reducer.Chain (r : Reducer σ α ε) : σ → List α → List (Effect α) → List σ → Prop where
  | nil (s : σ) : Chain r s [] [] [s]
  | cons {s t : σ} {a : α} {e : Effect α} {as : List α} {es : List (Effect α)} {ss : List σ} :
      r.reduce s a = ⟨t, .ok e⟩ → Chain r t as es ss → Chain r s (a :: as) (e :: es) (s :: ss)

namespace Reducer

variable {r : Reducer σ α ε}

theorem Chain.head {s : σ} {as : List α} {es : List (Effect α)} {ss : List σ}
    (h : r.Chain s as es ss) : ss.head? = some s := by
  cases h <;> rfl

theorem Chain.getLast?_cons {s : σ} {as : List α} {es : List (Effect α)} {ss : List σ}
    (h : r.Chain s as es ss) (s' : σ) : (s' :: ss).getLast? = ss.getLast? := by
  cases h <;> simp

theorem Chain.lengths {s : σ} {as : List α} {es : List (Effect α)} {ss : List σ}
    (h : r.Chain s as es ss) : ss.length = as.length + 1 ∧ es.length = as.length := by
  induction h with
  | nil => simp
  | cons _ _ ih => simp [ih.1, ih.2]

theorem Chain.reduce_get {s : σ} {as : List α} {es : List (Effect α)} {ss : List σ}
    (h : r.Chain s as es ss) (i : Nat) (ha : i < as.length) (hs : i + 1 < ss.length)
    (he : i < es.length) : r.reduce ss[i] as[i] = ⟨ss[i + 1], .ok es[i]⟩ := by
  induction h generalizing i with
  | nil => simp at ha
  | @cons s t a e as es ss hr hc ih =>
    cases i with
    | zero =>
      have ht : ss[0]? = some t := by rw [← List.head?_eq_getElem?, hc.head]
      have hlen : 0 < ss.length := by simpa using hs
      rw [List.getElem?_eq_getElem hlen, Option.some.injEq] at ht
      simpa [ht] using hr
    | succ i => exact ih i (by simpa using ha) (by simpa using hs) (by simpa using he)

theorem chain_of_get {s : σ} {as : List α} {es : List (Effect α)} {ss : List σ}
    (hs : ss.length = as.length + 1) (he : es.length = as.length) (hh : ss.head? = some s)
    (hr : ∀ i (_ : i < as.length), r.reduce ss[i] as[i] = ⟨ss[i + 1], .ok es[i]⟩) :
    r.Chain s as es ss := by
  induction as generalizing s es ss with
  | nil =>
    obtain ⟨t, rfl⟩ := List.length_eq_one_iff.mp hs
    obtain rfl := List.length_eq_zero_iff.mp he
    obtain rfl : t = s := by simpa using hh
    exact .nil t
  | cons a as ih =>
    match ss, es with
    | s' :: t :: ss, e :: es =>
      obtain rfl : s' = s := by simpa using hh
      have h0 := hr 0 (by simp)
      refine .cons h0 (ih (by simpa using hs) (by simpa using he) rfl fun i hi => ?_)
      exact hr (i + 1) (by simpa using hi)

theorem Chain.unique {s : σ} {as : List α} {es es' : List (Effect α)} {ss ss' : List σ}
    (h : r.Chain s as es ss) (h' : r.Chain s as es' ss') : es = es' ∧ ss = ss' := by
  induction h generalizing es' ss' with
  | nil => cases h' with | nil => exact ⟨rfl, rfl⟩
  | cons hr _ ih =>
    cases h' with
    | cons hr' hc' =>
      rw [hr] at hr'
      simp only [Reduction.mk.injEq, Except.ok.injEq] at hr'
      obtain ⟨rfl, rfl⟩ := hr'
      obtain ⟨rfl, rfl⟩ := ih hc'
      exact ⟨rfl, rfl⟩

/-- What a run did, from any queue: the actions are the queue followed by the effects, and none was
reduced before it stood in the queue. -/
theorem Settles.chain {s : σ} {queue : List α} {run : Run σ α ε} (h : r.Settles s queue run) :
    ∃ ss, r.Chain s (run.log.map Event.action) (run.log.map Event.effect) ss ∧
      ss.getLast? = some run.state ∧
      run.log.map Event.action = queue ++ (run.log.map Event.effect).flatMap Effect.actions ∧
      ∀ i < run.log.length,
        i < queue.length + Effect.total ((run.log.map Event.effect).take i) := by
  induction h using Settles.induction with
  | empty s => exact ⟨[s], .nil s, rfl, rfl, by simp⟩
  | step s a queue t e rest hr _ ih =>
    obtain ⟨ss, hc, hlast, hfed, hcausal⟩ := ih
    refine ⟨s :: ss, .cons hr hc, ?_, ?_, ?_⟩
    · rw [hc.getLast?_cons, hlast, Run.state_after]
    · simp only [Run.log_after, List.map_cons, List.flatMap_cons, List.cons_append, hfed,
        List.append_assoc]
    · intro i hi
      cases i with
      | zero => simp
      | succ i =>
        -- one action has left the queue and its follow-ups have joined it
        have := hcausal i (by simpa using hi)
        simp only [List.length_append] at this
        simp only [Run.log_after, List.map_cons, List.take_succ_cons, Effect.total_cons,
          List.length_cons]
        omega

theorem Chain.settles {s : σ} {as queue : List α} {es : List (Effect α)} {ss : List σ}
    (h : r.Chain s as es ss) (hfed : as = queue ++ es.flatMap Effect.actions)
    (hcausal : ∀ i < as.length, i < queue.length + Effect.total (es.take i)) :
    ∃ run, r.Settles s queue run ∧ run.log.map Event.action = as ∧
      run.log.map Event.effect = es ∧ ss.getLast? = some run.state := by
  induction h generalizing queue with
  | nil s =>
    obtain rfl : queue = [] := by simpa using hfed
    exact ⟨_, .empty s, rfl, rfl, rfl⟩
  | @cons s t a e as es ss hr hc ih =>
    cases queue with
    -- nobody can have asked for the first action of an empty queue
    | nil => simpa using hcausal 0 (by simp)
    | cons b queue =>
      simp only [List.flatMap_cons, List.cons_append, List.cons.injEq] at hfed
      obtain ⟨rfl, hfed⟩ := hfed
      have hfed' : as = queue ++ e.actions ++ es.flatMap Effect.actions := by
        rw [hfed, List.append_assoc]
      obtain ⟨run, hrun, hactions, heffects, hlast⟩ := ih hfed' (by
        intro i hi
        have := hcausal (i + 1) (by simpa using hi)
        simp only [List.take_succ_cons, Effect.total_cons, List.length_cons] at this
        simp only [List.length_append]
        omega)
      refine ⟨_, .step hr hrun, by simp [hactions], by simp [heffects], ?_⟩
      rw [hc.getLast?_cons, hlast, Run.state_after]

end Reducer

namespace Decomposition

variable {r : Reducer σ α ε} {start : σ} {a : α}

theorem chain (d : Decomposition r start a) : r.Chain start d.actions d.effects d.states :=
  Reducer.chain_of_get d.states_length d.effects_length d.head_states d.reduced

theorem of_chain {as : List α} {es : List (Effect α)} {ss : List σ}
    (h : r.Chain start as es ss) (hfed : as = a :: es.flatMap Effect.actions) :
    ∃ d : Decomposition r start a, d.actions = as ∧ d.effects = es ∧ d.states = ss := by
  obtain ⟨hs, he⟩ := h.lengths
  exact ⟨⟨as, ss, es, hs, he, h.head, fun i hi => h.reduce_get i hi (by omega) (by omega), hfed⟩,
    rfl, rfl, rfl⟩

theorem exists_of_settles {run : Run σ α ε} (h : r.Settles start [a] run) :
    ∃ d : Decomposition r start a, d.Causal ∧ d.actions = run.log.map Event.action ∧
      d.effects = run.log.map Event.effect ∧ d.states.getLast? = some run.state := by
  obtain ⟨ss, hc, hlast, hfed, hcausal⟩ := h.chain
  obtain ⟨d, ha, he, hs⟩ := of_chain hc hfed
  refine ⟨d, fun i hi => ?_, ha, he, by rw [hs, hlast]⟩
  rw [ha, List.length_map] at hi
  rw [offset, he]
  exact hcausal i hi

theorem settles (d : Decomposition r start a) (hd : d.Causal) :
    ∃ run, r.Settles start [a] run ∧ run.log.map Event.action = d.actions ∧
      run.log.map Event.effect = d.effects ∧ d.states.getLast? = some run.state :=
  d.chain.settles d.fed hd

theorem unique {d d' : Decomposition r start a} (hd : d.Causal) (hd' : d'.Causal) : d = d' := by
  obtain ⟨run, hrun, ha, -, -⟩ := d.settles hd
  obtain ⟨run', hrun', ha', -, -⟩ := d'.settles hd'
  obtain rfl := hrun.unique hrun'
  have hactions : d.actions = d'.actions := ha.symm.trans ha'
  have hc := d'.chain
  rw [← hactions] at hc
  obtain ⟨heffects, hstates⟩ := d.chain.unique hc
  cases d
  cases d'
  subst hactions heffects hstates
  rfl

end Decomposition

/-- Sending an action reduces it and all that is fed back, each once and in the order of the queue.
The actions reduced are the sent one and all the effects, and each has been asked for before it is
reduced: without this an effect that repeats itself would account for an action nobody asked for. -/
theorem Store.settles_iff_decomposition (store : Store σ α ε) (a : α) :
    (∀ n s, (∃ run, store.Settles a run ∧ run.reduced = n ∧ run.state = s) ↔
      ∃ d : Decomposition store.reducer store.state a,
        d.Causal ∧ d.actions.length = n ∧ d.states.getLast? = some s) ∧
    (∀ run, store.Settles a run → ∃ d : Decomposition store.reducer store.state a,
      d.Causal ∧ d.actions = run.log.map Event.action ∧ d.effects = run.log.map Event.effect ∧
        d.states.getLast? = some run.state) ∧
    (∀ d d' : Decomposition store.reducer store.state a, d.Causal → d'.Causal → d = d') ∧
    ∀ d : Decomposition store.reducer store.state a, d.Causal →
      d.actions.length = 1 + Effect.total d.effects ∧
      (∀ j p e, d.effects[j]? = some e → p < e.actions.length →
        d.actions[d.offset j + p]? = e.actions[p]?) ∧
      (∀ i < d.actions.length, ∃! k, d.Generation i k) ∧
      ∀ i j k, d.Generation i (k + 1) → d.Generation j k → j < i := by
  refine ⟨fun n s => ⟨?_, ?_⟩, fun run h => Decomposition.exists_of_settles h,
    fun d d' => Decomposition.unique, fun d hd => ⟨d.length_actions, fun j p e => d.getElem?_offset,
      d.existsUnique_generation hd, fun i j k => Decomposition.Generation.lt⟩⟩
  · rintro ⟨run, hrun, rfl, rfl⟩
    obtain ⟨d, hd, ha, -, hlast⟩ := Decomposition.exists_of_settles hrun
    exact ⟨d, hd, by rw [ha, List.length_map, Run.reduced], hlast⟩
  · rintro ⟨d, hd, rfl, hlast⟩
    obtain ⟨run, hrun, ha, -, hlast'⟩ := d.settles hd
    refine ⟨run, hrun, ?_, ?_⟩
    · rw [← ha, List.length_map, Run.reduced]
    · rw [hlast, Option.some.injEq] at hlast'
      exact hlast'.symm

def Model.Script.selfFed : Model.Script := ⟨[(1, []), (2, [2])], false⟩

/-- The effect of `2` accounts for `2`, though nobody asked for it. -/
def Decomposition.selfFed : Decomposition Model.Script.selfFed.reducer [] 1 where
  actions := [1, 2]
  states := [[], [1], [1, 2]]
  effects := [⟨[]⟩, ⟨[2]⟩]
  states_length := rfl
  effects_length := rfl
  head_states := rfl
  reduced
    | 0, _ => rfl
    | 1, _ => rfl
  fed := rfl

theorem Store.not_settles_iff_self_fed : ¬ ∀ n s,
    (∃ run, (Store.mk Model.Script.selfFed.reducer []).Settles 1 run ∧
      run.reduced = n ∧ run.state = s) ↔
    ∃ d : Decomposition Model.Script.selfFed.reducer [] 1,
      d.actions.length = n ∧ d.states.getLast? = some s := by
  intro h
  obtain ⟨run, hrun, hn, -⟩ := (h 2 [1, 2]).mpr ⟨.selfFed, rfl, rfl⟩
  have h1 : Store.Settles ⟨Model.Script.selfFed.reducer, []⟩ 1 ⟨[1], [⟨1, ⟨[]⟩, 0⟩], none⟩ :=
    ⟨1, rfl, rfl⟩
  obtain rfl := Reducer.Settles.unique hrun h1
  exact absurd hn (by decide)

end Delegation
