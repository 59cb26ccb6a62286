import Delegation.Store

namespace Delegation

variable {σ α ε : Type}

/-- The loop that starts from `queue` in state `s` comes to an end with an empty queue, and `run` is
what it did. -/
def Reducer.Settles (r : Reducer σ α ε) (s : σ) (queue : List α) (run : Run σ α ε) : Prop :=
  ∃ fuel, r.drain fuel s queue = some run ∧ run.fault = none

def Store.Settles (store : Store σ α ε) (a : α) (run : Run σ α ε) : Prop :=
  ∃ fuel, store.send fuel a = some run ∧ run.fault = none

theorem Store.settles_iff (store : Store σ α ε) (a : α) (run : Run σ α ε) :
    store.Settles a run ↔ store.reducer.Settles store.state [a] run := Iff.rfl

namespace Run

@[simp] theorem state_after (e : Event α) (run : Run σ α ε) : (run.after e).state = run.state := rfl

@[simp] theorem log_after (e : Event α) (run : Run σ α ε) : (run.after e).log = e :: run.log := rfl

end Run

namespace Reducer

variable (r : Reducer σ α ε)

theorem settles_nil (s : σ) (run : Run σ α ε) :
    r.Settles s [] run ↔ run = ⟨s, [], none⟩ := by
  constructor
  · rintro ⟨fuel, hd, -⟩
    cases fuel <;> simpa [drain, eq_comm] using hd
  · rintro rfl
    exact ⟨0, rfl, rfl⟩

/-- The first action is reduced, and its follow-ups go to the end of the queue. -/
theorem settles_cons (s : σ) (a : α) (queue : List α) (run : Run σ α ε) :
    r.Settles s (a :: queue) run ↔ ∃ t e rest, r.reduce s a = ⟨t, .ok e⟩ ∧
      r.Settles t (queue ++ e.actions) rest ∧ run = rest.after ⟨a, e, queue.length⟩ := by
  constructor
  · rintro ⟨fuel, hd, hf⟩
    cases fuel with
    | zero => simp [drain] at hd
    | succ fuel =>
      cases hr : r.reduce s a with
      | mk t result =>
        cases result with
        | error fault =>
          simp only [drain, hr, Option.some.injEq] at hd
          subst hd
          simp at hf
        | ok e =>
          simp only [drain, hr, Option.map_eq_some_iff] at hd
          obtain ⟨rest, hrest, rfl⟩ := hd
          exact ⟨t, e, rest, rfl, ⟨fuel, hrest, hf⟩, rfl⟩
  · rintro ⟨t, e, rest, hr, ⟨fuel, hd, hf⟩, rfl⟩
    exact ⟨fuel + 1, by simp [drain, hr, hd], hf⟩

variable {r}

theorem Settles.empty (s : σ) : r.Settles s [] ⟨s, [], none⟩ := ⟨0, rfl, rfl⟩

theorem Settles.step {s t : σ} {a : α} {queue : List α} {e : Effect α} {rest : Run σ α ε}
    (hr : r.reduce s a = ⟨t, .ok e⟩) (h : r.Settles t (queue ++ e.actions) rest) :
    r.Settles s (a :: queue) (rest.after ⟨a, e, queue.length⟩) :=
  (r.settles_cons s a queue _).mpr ⟨t, e, rest, hr, h, rfl⟩

@[elab_as_elim]
theorem Settles.induction {motive : ∀ s queue run, r.Settles s queue run → Prop}
    (empty : ∀ s, motive s [] _ (.empty s))
    (step : ∀ s a queue t e rest (hr : r.reduce s a = ⟨t, .ok e⟩)
      (h : r.Settles t (queue ++ e.actions) rest), motive t (queue ++ e.actions) rest h →
      motive s (a :: queue) _ (.step hr h))
    {s : σ} {queue : List α} {run : Run σ α ε} (h : r.Settles s queue run) :
    motive s queue run h := by
  match queue with
  | [] =>
    obtain rfl := (r.settles_nil s run).mp h
    exact empty s
  | a :: queue =>
    obtain ⟨t, e, rest, hr, ht, rfl⟩ := (r.settles_cons s a queue run).mp h
    exact step s a queue t e rest hr ht (Settles.induction empty step ht)
termination_by run.log.length
decreasing_by
  subst_vars
  simp

theorem Settles.unique {s : σ} {queue : List α} {run run' : Run σ α ε}
    (h : r.Settles s queue run) (h' : r.Settles s queue run') : run = run' := by
  induction h using Settles.induction generalizing run' with
  | empty s => exact ((r.settles_nil s run').mp h').symm
  | step s a queue t e rest hr _ ih =>
    obtain ⟨t', e', rest', hr', ht', rfl⟩ := (r.settles_cons s a queue run').mp h'
    rw [hr] at hr'
    simp only [Reduction.mk.injEq, Except.ok.injEq] at hr'
    obtain ⟨rfl, rfl⟩ := hr'
    rw [ih ht']

end Reducer

end Delegation
