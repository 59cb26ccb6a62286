import Mathlib.Algebra.BigOperators.Group.Finset.Basic
import Mathlib.Algebra.Order.BigOperators.Group.Finset
import Mathlib.Data.Fintype.BigOperators
import Delegation.Model.Flight
import Delegation.Proofs.Settling

namespace Delegation

variable {ι σ τ α β ε : Type}

/-- Where the state of a parent holds the state of a child. -/
inductive Place (σ τ : Type) where
  | direct (slot : Slot σ τ)
  | optional (slot : Slot σ (Option τ))

def Place.read : Place σ τ → σ → Option τ
  | .direct slot, s => some (slot.get s)
  | .optional slot, s => slot.get s

def Place.write : Place σ τ → σ → τ → σ
  | .direct slot, s, t => slot.set s t
  | .optional slot, s, t => slot.set s (some t)

theorem Reduction.lift_eq_ok (r : Reduction τ β ε) (write : τ → σ) (wrap : β → α) (s : σ)
    (e : Effect α) : (r.lift write wrap : Reduction σ α ε) = ⟨s, .ok e⟩ ↔
      ∃ t e', r = ⟨t, .ok e'⟩ ∧ s = write t ∧ e = e'.map wrap := by
  cases r with
  | mk t result =>
    cases result <;> simp [lift, Except.map, eq_comm]

namespace Reducer

def delegate (child : Reducer τ β ε) (place : Place σ τ) (wrap : β → α) (s : σ) (b : β) :
    Reduction σ α ε :=
  match place with
  | .direct slot => child.direct slot wrap s b
  | .optional slot => child.optional slot wrap s b

theorem delegate_present (child : Reducer τ β ε) (place : Place σ τ) (wrap : β → α) {s : σ} {t : τ}
    (h : place.read s = some t) (b : β) :
    child.delegate place wrap s b = (child.reduce t b).lift (place.write s) wrap := by
  cases place with
  | direct slot =>
    obtain rfl : slot.get s = t := by simpa [Place.read] using h
    rfl
  | optional slot =>
    have hget : slot.get s = some t := h
    simp only [delegate, optional, hget]
    rfl

theorem delegate_absent (child : Reducer τ β ε) (place : Place σ τ) (wrap : β → α) {s : σ}
    (h : place.read s = none) (b : β) : child.delegate place wrap s b = ⟨s, .ok .none⟩ := by
  cases place with
  | direct slot => simp [Place.read] at h
  | optional slot =>
    have hget : slot.get s = none := h
    simp only [delegate, optional, hget]

/-- What a field comes to when its child has a queue for itself: the actions reduced and what is
held in the end. A child that is absent lets every action pass. -/
inductive Alone (child : Reducer τ β ε) : Option τ → List β → List β → Option τ → Prop where
  | present {t : τ} {queue : List β} {run : Run τ β ε} (h : child.Settles t queue run) :
      Alone child (some t) queue (run.log.map Event.action) (some run.state)
  | absent (queue : List β) : Alone child none queue queue none

variable {child : Reducer τ β ε}

theorem alone_nil (held : Option τ) : child.Alone held [] [] held := by
  cases held with
  | none => exact .absent []
  | some t => exact .present (.empty t)

theorem Alone.eq_of_nil {held held' : Option τ} {trace : List β}
    (h : child.Alone held [] trace held') : trace = [] ∧ held' = held := by
  cases h with
  | present h =>
    obtain rfl := (child.settles_nil _ _).mp h
    exact ⟨rfl, rfl⟩
  | absent => exact ⟨rfl, rfl⟩

theorem alone_present (t : τ) (queue trace : List β) (held : Option τ) :
    child.Alone (some t) queue trace held ↔ ∃ run, child.Settles t queue run ∧
      trace = run.log.map Event.action ∧ held = some run.state := by
  constructor
  · rintro (h | _)
    exact ⟨_, h, rfl, rfl⟩
  · rintro ⟨run, h, rfl, rfl⟩
    exact .present h

theorem alone_absent (queue trace : List β) (held : Option τ) :
    child.Alone none queue trace held ↔ trace = queue ∧ held = none := by
  constructor
  · rintro (_ | _)
    exact ⟨rfl, rfl⟩
  · rintro ⟨rfl, rfl⟩
    exact .absent trace

theorem alone_cons_present (t : τ) (b : β) (queue trace : List β) (held : Option τ) :
    child.Alone (some t) (b :: queue) trace held ↔ ∃ t' e rest, child.reduce t b = ⟨t', .ok e⟩ ∧
      trace = b :: rest ∧ child.Alone (some t') (queue ++ e.actions) rest held := by
  constructor
  · rintro (h | _)
    obtain ⟨t', e, rest, hr, hrest, rfl⟩ := (child.settles_cons t b queue _).mp h
    exact ⟨t', e, rest.log.map Event.action, hr, rfl, .present hrest⟩
  · rintro ⟨t', e, _, hr, rfl, h | _⟩
    exact .present (.step hr h)

theorem alone_cons_absent (b : β) (queue trace : List β) (held : Option τ) :
    child.Alone none (b :: queue) trace held ↔
      ∃ rest, trace = b :: rest ∧ child.Alone none queue rest held := by
  constructor
  · rintro (_ | _)
    exact ⟨queue, rfl, .absent queue⟩
  · rintro ⟨_, rfl, _ | _⟩
    exact .absent (b :: queue)

end Reducer

/-- A parent that hands the actions of each field `f` to a child. Its fields do not overlap: each
has a variant of its own among the actions, and writing one leaves the others as they were. -/
structure Parent (ι σ α ε : Type) where
  reducer : Reducer σ α ε
  ChildState : ι → Type
  ChildAction : ι → Type
  child (f : ι) : Reducer (ChildState f) (ChildAction f) ε
  place (f : ι) : Place σ (ChildState f)
  wrap (f : ι) : ChildAction f → α
  unwrap (f : ι) : α → Option (ChildAction f)
  reduce_wrap (s : σ) (f : ι) (x : ChildAction f) :
    reducer.reduce s (wrap f x) = (child f).delegate (place f) (wrap f) s x
  unwrap_eq_some_iff (f : ι) (a : α) (x : ChildAction f) : unwrap f a = some x ↔ a = wrap f x
  wrap_ne {f g : ι} (h : f ≠ g) (x : ChildAction f) (y : ChildAction g) : wrap f x ≠ wrap g y
  read_write (f : ι) (s : σ) (t : ChildState f) : (place f).read ((place f).write s t) = some t
  read_write_of_ne {f g : ι} (h : f ≠ g) (s : σ) (t : ChildState g) :
    (place f).read ((place g).write s t) = (place f).read s

namespace Parent

variable (p : Parent ι σ α ε)

def actionsOf (f : ι) (as : List α) : List (p.ChildAction f) := as.filterMap (p.unwrap f)

def Delegated (a : α) : Prop := ∃ f x, a = p.wrap f x

def Untouched {ρ : Type} (view : σ → ρ) : Prop :=
  ∀ f s t, view ((p.place f).write s t) = view s

theorem unwrap_wrap (f : ι) (x : p.ChildAction f) : p.unwrap f (p.wrap f x) = some x :=
  (p.unwrap_eq_some_iff f _ x).mpr rfl

theorem unwrap_wrap_of_ne {f g : ι} (h : f ≠ g) (x : p.ChildAction g) :
    p.unwrap f (p.wrap g x) = none := by
  cases hu : p.unwrap f (p.wrap g x) with
  | none => rfl
  | some y => exact absurd ((p.unwrap_eq_some_iff f _ y).mp hu).symm (p.wrap_ne h y x)

@[simp] theorem actionsOf_nil (f : ι) : p.actionsOf f [] = [] := rfl

@[simp] theorem actionsOf_append (f : ι) (as bs : List α) :
    p.actionsOf f (as ++ bs) = p.actionsOf f as ++ p.actionsOf f bs :=
  List.filterMap_append

theorem actionsOf_cons (f : ι) (x : p.ChildAction f) (as : List α) :
    p.actionsOf f (p.wrap f x :: as) = x :: p.actionsOf f as :=
  List.filterMap_cons_some (p.unwrap_wrap f x)

theorem actionsOf_cons_of_ne {f g : ι} (h : f ≠ g) (x : p.ChildAction g) (as : List α) :
    p.actionsOf f (p.wrap g x :: as) = p.actionsOf f as :=
  List.filterMap_cons_none (p.unwrap_wrap_of_ne h x)

theorem actionsOf_map (f : ι) (xs : List (p.ChildAction f)) :
    p.actionsOf f (xs.map (p.wrap f)) = xs := by
  induction xs with
  | nil => rfl
  | cons x xs ih => rw [List.map_cons, actionsOf_cons, ih]

theorem actionsOf_map_of_ne {f g : ι} (h : f ≠ g) (xs : List (p.ChildAction g)) :
    p.actionsOf f (xs.map (p.wrap g)) = [] := by
  induction xs with
  | nil => rfl
  | cons x xs ih => rw [List.map_cons, p.actionsOf_cons_of_ne h, ih]

theorem length_eq_sum [Fintype ι] (as : List α) (h : ∀ a ∈ as, p.Delegated a) :
    as.length = ∑ f, (p.actionsOf f as).length := by
  classical
  induction as with
  | nil => simp
  | cons a as ih =>
    obtain ⟨g, x, rfl⟩ := h a (by simp)
    have hcount (f : ι) : (p.actionsOf f (p.wrap g x :: as)).length =
        (if f = g then 1 else 0) + (p.actionsOf f as).length := by
      by_cases hfg : f = g
      · subst hfg
        rw [actionsOf_cons, List.length_cons, if_pos rfl, Nat.add_comm]
      · rw [p.actionsOf_cons_of_ne hfg, if_neg hfg, Nat.zero_add]
    rw [Finset.sum_congr rfl fun f _ => hcount f, Finset.sum_add_distrib,
      ← ih fun b hb => h b (List.mem_cons_of_mem _ hb)]
    simp [Nat.add_comm]

theorem eq_map_of_actionsOf (f : ι) (as : List α) (h : ∀ a ∈ as, p.Delegated a)
    (hother : ∀ g, g ≠ f → p.actionsOf g as = []) : as = (p.actionsOf f as).map (p.wrap f) := by
  induction as with
  | nil => rfl
  | cons a as ih =>
    obtain ⟨g, x, rfl⟩ := h a (by simp)
    obtain rfl : g = f := by
      by_contra hg
      simpa [actionsOf_cons] using hother g hg
    rw [actionsOf_cons, List.map_cons, ← ih fun b hb => h b (List.mem_cons_of_mem _ hb)]
    intro k hk
    have := hother k hk
    rwa [p.actionsOf_cons_of_ne hk] at this

theorem reduce_wrap_ok (s t : σ) (g : ι) (x : p.ChildAction g) (e : Effect α) :
    p.reducer.reduce s (p.wrap g x) = ⟨t, .ok e⟩ ↔
      ((p.place g).read s = none ∧ t = s ∧ e = .none) ∨
      ∃ c c' e', (p.place g).read s = some c ∧ (p.child g).reduce c x = ⟨c', .ok e'⟩ ∧
        t = (p.place g).write s c' ∧ e = e'.map (p.wrap g) := by
  rw [p.reduce_wrap]
  cases hc : (p.place g).read s with
  | none =>
    rw [Reducer.delegate_absent _ _ _ hc]
    simp [eq_comm]
  | some c =>
    rw [Reducer.delegate_present _ _ _ hc, Reduction.lift_eq_ok]
    simp

/-- What field `f` comes to by itself, from its own part of the queue. -/
def Own (f : ι) (s : σ) (queue : List α) (trace : List (p.ChildAction f))
    (held : Option (p.ChildState f)) : Prop :=
  (p.child f).Alone ((p.place f).read s) (p.actionsOf f queue) trace held

theorem own_cons (g : ι) (s : σ) (x : p.ChildAction g) (queue : List α)
    (trace : List (p.ChildAction g)) (held : Option (p.ChildState g)) :
    p.Own g s (p.wrap g x :: queue) trace held ↔
      ∃ t e rest, p.reducer.reduce s (p.wrap g x) = ⟨t, .ok e⟩ ∧ trace = x :: rest ∧
        p.Own g t (queue ++ e.actions) rest held := by
  simp only [Own, actionsOf_cons, p.reduce_wrap_ok]
  cases hc : (p.place g).read s with
  | none =>
    rw [Reducer.alone_cons_absent]
    constructor
    · rintro ⟨rest, rfl, h⟩
      exact ⟨s, .none, rest, .inl ⟨rfl, rfl, rfl⟩, rfl, by simpa [hc] using h⟩
    · rintro ⟨t, e, rest, ⟨-, rfl, rfl⟩ | ⟨_, _, _, hn, -⟩, rfl, h⟩
      · exact ⟨rest, rfl, by simpa [hc] using h⟩
      · cases hn
  | some c =>
    rw [Reducer.alone_cons_present]
    constructor
    · rintro ⟨c', e, rest, hr, rfl, h⟩
      refine ⟨_, _, rest, .inr ⟨c, c', e, rfl, hr, rfl, rfl⟩, rfl, ?_⟩
      simpa [p.read_write, p.actionsOf_map] using h
    · rintro ⟨t, e, rest, ⟨hn, -⟩ | ⟨_, c', e', hc', hr, rfl, rfl⟩, rfl, h⟩
      · cases hn
      · cases hc'
        exact ⟨c', e', rest, hr, rfl, by simpa [p.read_write, p.actionsOf_map] using h⟩

theorem own_cons_of_ne {f g : ι} (hfg : f ≠ g) {s t : σ} {x : p.ChildAction g} {e : Effect α}
    (hr : p.reducer.reduce s (p.wrap g x) = ⟨t, .ok e⟩) (queue : List α)
    (trace : List (p.ChildAction f)) (held : Option (p.ChildState f)) :
    p.Own f s (p.wrap g x :: queue) trace held ↔ p.Own f t (queue ++ e.actions) trace held := by
  simp only [Own, p.actionsOf_cons_of_ne hfg, actionsOf_append]
  obtain ⟨-, rfl, rfl⟩ | ⟨c, c', e', -, -, rfl, rfl⟩ := (p.reduce_wrap_ok s t g x e).mp hr
  · simp
  · simp [p.read_write_of_ne hfg, p.actionsOf_map_of_ne hfg]

theorem delegated_effect {s t : σ} {g : ι} {x : p.ChildAction g} {e : Effect α}
    (hr : p.reducer.reduce s (p.wrap g x) = ⟨t, .ok e⟩) : ∀ a ∈ e.actions, p.Delegated a := by
  obtain ⟨-, -, rfl⟩ | ⟨c, c', e', -, -, -, rfl⟩ := (p.reduce_wrap_ok s t g x e).mp hr
  · simp
  · simp only [Effect.actions_map, List.mem_map]
    rintro a ⟨y, -, rfl⟩
    exact ⟨g, y, rfl⟩

theorem read_absent {s t : σ} {g : ι} {x : p.ChildAction g} {e : Effect α}
    (hr : p.reducer.reduce s (p.wrap g x) = ⟨t, .ok e⟩) {f : ι} (hf : (p.place f).read s = none) :
    (p.place f).read t = none := by
  obtain ⟨-, rfl, -⟩ | ⟨c, c', e', hc, -, rfl, -⟩ := (p.reduce_wrap_ok s t g x e).mp hr
  · exact hf
  · have hfg : f ≠ g := by
      rintro rfl
      simp [hf] at hc
    rw [p.read_write_of_ne hfg, hf]

variable {p}

theorem Untouched.reduce {ρ : Type} {view : σ → ρ} (hv : p.Untouched view) {s t : σ} {g : ι}
    {x : p.ChildAction g} {e : Effect α} (hr : p.reducer.reduce s (p.wrap g x) = ⟨t, .ok e⟩) :
    view t = view s := by
  obtain ⟨-, rfl, -⟩ | ⟨c, c', e', -, -, rfl, -⟩ := (p.reduce_wrap_ok s t g x e).mp hr
  · rfl
  · exact hv g s c'

/-- Delegated actions ask for delegated actions only. -/
theorem delegated_queue {s t : σ} {a : α} {queue : List α} {e : Effect α}
    (hq : ∀ b ∈ a :: queue, p.Delegated b) (hr : p.reducer.reduce s a = ⟨t, .ok e⟩) :
    ∀ b ∈ queue ++ e.actions, p.Delegated b := by
  obtain ⟨g, x, rfl⟩ := hq a (by simp)
  intro b hb
  obtain hb | hb := List.mem_append.mp hb
  · exact hq b (List.mem_cons_of_mem _ hb)
  · exact p.delegated_effect hr b hb

/-- Induction over a run of delegated actions: every reduction is one for some field. -/
@[elab_as_elim]
theorem delegated_induction
    {motive : ∀ s queue run, p.reducer.Settles s queue run → (∀ a ∈ queue, p.Delegated a) → Prop}
    (empty : ∀ s hq, motive s [] _ (.empty s) hq)
    (step : ∀ s g x queue t e rest (hr : p.reducer.reduce s (p.wrap g x) = ⟨t, .ok e⟩)
      (h : p.reducer.Settles t (queue ++ e.actions) rest)
      (hq : ∀ a ∈ p.wrap g x :: queue, p.Delegated a),
      motive t (queue ++ e.actions) rest h (delegated_queue hq hr) →
      motive s (p.wrap g x :: queue) _ (.step hr h) hq)
    {s : σ} {queue : List α} {run : Run σ α ε} (h : p.reducer.Settles s queue run)
    (hq : ∀ a ∈ queue, p.Delegated a) : motive s queue run h hq := by
  induction h using Reducer.Settles.induction with
  | empty s => exact empty s hq
  | step s a queue t e rest hr h ih =>
    obtain ⟨g, x, rfl⟩ := hq a (by simp)
    exact step s g x queue t e rest hr h hq (ih (delegated_queue hq hr))

theorem delegated_of_settles {s : σ} {queue : List α} {run : Run σ α ε}
    (h : p.reducer.Settles s queue run) (hq : ∀ a ∈ queue, p.Delegated a) :
    ∀ a ∈ run.log.map Event.action, p.Delegated a := by
  induction h, hq using delegated_induction with
  | empty s => simp
  | step s g x queue t e rest hr _ hq ih =>
    simp only [Run.log_after, List.map_cons, List.forall_mem_cons]
    exact ⟨⟨g, x, rfl⟩, ih⟩

theorem own_of_settles {s : σ} {queue : List α} {run : Run σ α ε}
    (h : p.reducer.Settles s queue run) (hq : ∀ a ∈ queue, p.Delegated a) (f : ι) :
    p.Own f s queue (p.actionsOf f (run.log.map Event.action)) ((p.place f).read run.state) := by
  induction h, hq using delegated_induction with
  | empty s => exact Reducer.alone_nil _
  | step s g x queue t e rest hr _ hq ih =>
    simp only [Run.log_after, List.map_cons, Run.state_after]
    by_cases hfg : f = g
    · subst hfg
      rw [actionsOf_cons]
      exact (p.own_cons f s x queue _ _).mpr ⟨t, e, _, hr, rfl, ih⟩
    · rw [p.actionsOf_cons_of_ne hfg]
      exact (p.own_cons_of_ne hfg hr queue _ _).mpr ih

theorem Untouched.settles {ρ : Type} {view : σ → ρ} (hv : p.Untouched view) {s : σ}
    {queue : List α} {run : Run σ α ε} (h : p.reducer.Settles s queue run)
    (hq : ∀ a ∈ queue, p.Delegated a) : view run.state = view s := by
  induction h, hq using delegated_induction with
  | empty s => rfl
  | step s g x queue t e rest hr _ hq ih => rw [Run.state_after, ih, hv.reduce hr]

theorem silent_of_settles {s : σ} {queue : List α} {run : Run σ α ε}
    (h : p.reducer.Settles s queue run) (hq : ∀ a ∈ queue, p.Delegated a) {f : ι}
    (hf : (p.place f).read s = none) (x : p.ChildAction f) :
    ∀ event ∈ run.log, event.action = p.wrap f x → event.effect = .none := by
  induction h, hq using delegated_induction with
  | empty s => simp
  | step s g y queue t e rest hr _ hq ih =>
    simp only [Run.log_after, List.forall_mem_cons]
    refine ⟨fun hx => ?_, ih (p.read_absent hr hf)⟩
    rw [hx, p.reduce_wrap_ok] at hr
    obtain ⟨-, -, rfl⟩ | ⟨c, _, _, hc, -⟩ := hr
    · rfl
    · simp [hf] at hc

theorem settles_of_own [Fintype ι] {s : σ} {queue : List α} (hq : ∀ a ∈ queue, p.Delegated a)
    (size : ι → Nat)
    (hown : ∀ f, ∃ trace held, p.Own f s queue trace held ∧ trace.length = size f) :
    ∃ run, p.reducer.Settles s queue run := by
  -- on what is left for all fields together: a reduction for one of them makes its own part shorter
  -- and leaves the parts of the others as they are
  generalize hn : ∑ f, size f = n
  induction n using Nat.strongRecOn generalizing s queue size with
  | ind n ih =>
    cases queue with
    | nil => exact ⟨_, .empty s⟩
    | cons a queue =>
      obtain ⟨g, x, rfl⟩ := hq a (by simp)
      obtain ⟨trace, held, hg, hsize⟩ := hown g
      obtain ⟨t, e, rest, hr, rfl, hrest⟩ := (p.own_cons g s x queue trace held).mp hg
      have hnext (f : ι) : ∃ m, m ≤ size f ∧ (f = g → m < size f) ∧
          ∃ trace held, p.Own f t (queue ++ e.actions) trace held ∧ trace.length = m := by
        by_cases hfg : f = g
        · subst hfg
          rw [List.length_cons] at hsize
          exact ⟨rest.length, by omega, fun _ => by omega, rest, held, hrest, rfl⟩
        · obtain ⟨trace', held', hf, hsize'⟩ := hown f
          exact ⟨size f, le_rfl, fun h => absurd h hfg, trace', held',
            (p.own_cons_of_ne hfg hr queue _ _).mp hf, hsize'⟩
      choose size' hle hlt hown' using hnext
      have hsum : ∑ f, size' f < n :=
        hn ▸ Finset.sum_lt_sum (fun f _ => hle f) ⟨g, Finset.mem_univ g, hlt g rfl⟩
      obtain ⟨run, hrun⟩ := ih _ hsum (delegated_queue hq hr) size' hown' rfl
      exact ⟨_, .step hr hrun⟩

theorem exists_own_iff (s : σ) (queue : List α) :
    (∀ f, ∃ trace held, p.Own f s queue trace held) ↔
      ∀ f t, (p.place f).read s = some t →
        ∃ run, (p.child f).Settles t (p.actionsOf f queue) run := by
  constructor
  · intro h f t ht
    obtain ⟨trace, held, hown⟩ := h f
    rw [Own, ht, Reducer.alone_present] at hown
    obtain ⟨run, hrun, -, -⟩ := hown
    exact ⟨run, hrun⟩
  · intro h f
    cases hc : (p.place f).read s with
    | none => exact ⟨_, _, by rw [Own, hc]; exact .absent _⟩
    | some t =>
      obtain ⟨run, hrun⟩ := h f t hc
      exact ⟨_, _, by rw [Own, hc]; exact .present hrun⟩

theorem exists_settles_iff [Fintype ι] {s : σ} {queue : List α}
    (hq : ∀ a ∈ queue, p.Delegated a) : (∃ run, p.reducer.Settles s queue run) ↔
      ∀ f t, (p.place f).read s = some t →
        ∃ run, (p.child f).Settles t (p.actionsOf f queue) run := by
  rw [← exists_own_iff]
  constructor
  · rintro ⟨run, hrun⟩ f
    exact ⟨_, _, own_of_settles hrun hq f⟩
  · intro h
    choose trace held hown using h
    exact settles_of_own hq (fun f => (trace f).length) fun f => ⟨trace f, held f, hown f, rfl⟩

theorem read_of_settles {s : σ} {queue : List α} {run : Run σ α ε}
    (h : p.reducer.Settles s queue run) (hq : ∀ a ∈ queue, p.Delegated a) {f : ι}
    (hf : p.actionsOf f queue = []) : p.actionsOf f (run.log.map Event.action) = [] ∧
      (p.place f).read run.state = (p.place f).read s := by
  have hown := own_of_settles h hq f
  rw [Own, hf] at hown
  exact hown.eq_of_nil

theorem own_of_absent {s : σ} {queue : List α} {run : Run σ α ε}
    (h : p.reducer.Settles s queue run) (hq : ∀ a ∈ queue, p.Delegated a) {f : ι}
    (hf : (p.place f).read s = none) :
    p.actionsOf f (run.log.map Event.action) = p.actionsOf f queue ∧
      (p.place f).read run.state = none := by
  have hown := own_of_settles h hq f
  rwa [Own, hf, Reducer.alone_absent] at hown

theorem delegated_wrap (f : ι) (x : p.ChildAction f) : ∀ a ∈ [p.wrap f x], p.Delegated a := by
  simp only [List.forall_mem_singleton]
  exact ⟨f, x, rfl⟩

theorem actionsOf_wrap_of_ne {f g : ι} (h : g ≠ f) (x : p.ChildAction f) :
    p.actionsOf g [p.wrap f x] = [] := p.actionsOf_cons_of_ne h x []

theorem send_settles_iff [Fintype ι] (f : ι) (x : p.ChildAction f) {s : σ} {t : p.ChildState f}
    (ht : (p.place f).read s = some t) : (∃ run, (Store.mk p.reducer s).Settles (p.wrap f x) run) ↔
      ∃ run, (Store.mk (p.child f) t).Settles x run := by
  simp only [Store.settles_iff]
  rw [exists_settles_iff (delegated_wrap f x)]
  constructor
  · intro h
    simpa [actionsOf_cons] using h f t ht
  · intro h g t' ht'
    by_cases hg : g = f
    · subst hg
      obtain rfl : t = t' := by simpa [ht] using ht'
      simpa [actionsOf_cons] using h
    · rw [actionsOf_wrap_of_ne hg x]
      exact ⟨_, .empty t'⟩

theorem send_simulates (f : ι) (x : p.ChildAction f) {s : σ} {t : p.ChildState f}
    (ht : (p.place f).read s = some t) {run : Run σ α ε}
    (h : (Store.mk p.reducer s).Settles (p.wrap f x) run) :
    ∃ own, (Store.mk (p.child f) t).Settles x own ∧ run.reduced = own.reduced ∧
      run.log.map Event.action = (own.log.map Event.action).map (p.wrap f) ∧
      (p.place f).read run.state = some own.state := by
  rw [Store.settles_iff] at h
  have hown := own_of_settles h (delegated_wrap f x) f
  rw [Own, ht, Reducer.alone_present] at hown
  obtain ⟨own, hsettles, htrace, hstate⟩ := hown
  -- all that was reduced is for `f`, since no other field had an action in the queue
  have hlog := p.eq_map_of_actionsOf f _ (delegated_of_settles h (delegated_wrap f x))
    fun g hg => (read_of_settles h (delegated_wrap f x) (actionsOf_wrap_of_ne hg x)).1
  rw [htrace] at hlog
  rw [actionsOf_cons, actionsOf_nil] at hsettles
  refine ⟨own, hsettles, ?_, hlog, hstate⟩
  simpa [Run.reduced] using congrArg List.length hlog

variable (p)

/-- What a run is to one field. A child that is there does what it would have done alone; without
one the actions of the field pass and do nothing. -/
structure RunsApart (s : σ) (queue : List α) (run : Run σ α ε) (f : ι) (count : Nat) : Prop where
  present : ∀ t, (p.place f).read s = some t → ∃ own,
    (p.child f).Settles t (p.actionsOf f queue) own ∧
    (p.place f).read run.state = some own.state ∧
    p.actionsOf f (run.log.map Event.action) = own.log.map Event.action ∧ count = own.reduced
  absent : (p.place f).read s = none → (p.place f).read run.state = none
  passed : (p.place f).read s = none →
    p.actionsOf f (run.log.map Event.action) = p.actionsOf f queue
  silent : (p.place f).read s = none →
    ∀ x, ∀ event ∈ run.log, event.action = p.wrap f x → event.effect = .none
  counted : (p.place f).read s = none → count = (p.actionsOf f queue).length

/-- A run is made up of what its fields do, and of nothing else. -/
structure Decomposes [Fintype ι] (s : σ) (queue : List α) (run : Run σ α ε) : Prop where
  delegated : ∀ a ∈ run.log.map Event.action, p.Delegated a
  idle : ∀ f, p.actionsOf f queue = [] → (p.place f).read run.state = (p.place f).read s
  untouched : ∀ (ρ : Type) (view : σ → ρ), p.Untouched view → view run.state = view s
  fields : ∃ count : ι → Nat, run.reduced = ∑ f, count f ∧ ∀ f, p.RunsApart s queue run f (count f)

/-- To send an action of a field to the parent is to send it to the child. -/
structure Simulates (s : σ) (f : ι) (t : p.ChildState f) (x : p.ChildAction f) : Prop where
  settles : (∃ run, (Store.mk p.reducer s).Settles (p.wrap f x) run) ↔
    ∃ own, (Store.mk (p.child f) t).Settles x own
  same : ∀ run, (Store.mk p.reducer s).Settles (p.wrap f x) run →
    ∃ own, (Store.mk (p.child f) t).Settles x own ∧ run.reduced = own.reduced ∧
      run.log.map Event.action = (own.log.map Event.action).map (p.wrap f) ∧
      (p.place f).read run.state = some own.state

variable {p}

theorem runsApart_of_settles {s : σ} {queue : List α} {run : Run σ α ε}
    (h : p.reducer.Settles s queue run) (hq : ∀ a ∈ queue, p.Delegated a) (f : ι) :
    p.RunsApart s queue run f (p.actionsOf f (run.log.map Event.action)).length where
  present t ht := by
    have hown := own_of_settles h hq f
    rw [Own, ht, Reducer.alone_present] at hown
    obtain ⟨own, hsettles, htrace, hstate⟩ := hown
    exact ⟨own, hsettles, hstate, htrace, by simp [htrace, Run.reduced]⟩
  absent hf := (own_of_absent h hq hf).2
  passed hf := (own_of_absent h hq hf).1
  silent hf := silent_of_settles h hq hf
  counted hf := congrArg List.length (own_of_absent h hq hf).1

theorem decomposes_of_settles [Fintype ι] {s : σ} {queue : List α} {run : Run σ α ε}
    (h : p.reducer.Settles s queue run) (hq : ∀ a ∈ queue, p.Delegated a) :
    p.Decomposes s queue run where
  delegated := delegated_of_settles h hq
  idle f hf := (read_of_settles h hq hf).2
  untouched _ _ hv := hv.settles h hq
  fields := by
    refine ⟨fun f => (p.actionsOf f (run.log.map Event.action)).length, ?_,
      fun f => runsApart_of_settles h hq f⟩
    rw [← p.length_eq_sum _ (delegated_of_settles h hq), List.length_map, Run.reduced]

/-- Children under one store run independently: a queue of their actions, mixed in any way, is
worked off exactly if every child works off its own part, and then each field holds what its child
would have left alone. -/
theorem settles_iff_children [Fintype ι] (p : Parent ι σ α ε) (s : σ) (queue : List α)
    (hq : ∀ a ∈ queue, p.Delegated a) :
    ((∃ run, p.reducer.Settles s queue run) ↔
      ∀ f t, (p.place f).read s = some t →
        ∃ own, (p.child f).Settles t (p.actionsOf f queue) own) ∧
    (∀ run, p.reducer.Settles s queue run → p.Decomposes s queue run) ∧
    ∀ f t x, (p.place f).read s = some t → p.Simulates s f t x :=
  ⟨exists_settles_iff hq, fun _ h => decomposes_of_settles h hq,
    fun f _ x ht => ⟨send_settles_iff f x ht, fun _ => send_simulates f x ht⟩⟩

end Parent

namespace Model

inductive FlightField where
  | mainEngine
  | escapePod
  | retro
  | booster
  | spare
  | reserve
deriving DecidableEq

namespace FlightField

instance : Fintype FlightField where
  elems := {mainEngine, escapePod, retro, booster, spare, reserve}
  complete f := by cases f <;> decide

def State : FlightField → Type
  | reserve => Nat
  | _ => Thruster

def Action : FlightField → Type
  | reserve => Nat
  | _ => ThrusterAction

def child : (f : FlightField) → Reducer f.State f.Action Fault
  | mainEngine | escapePod | retro | booster | spare => thrusterReducer
  | reserve => tankReducer

def place : (f : FlightField) → Place Flight f.State
  | mainEngine => .direct Flight.mainEngineSlot
  | escapePod => .optional Flight.escapePodSlot
  | retro => .direct Flight.retroSlot
  | booster => .direct Flight.boosterSlot
  | spare => .direct Flight.backupSlot
  | reserve => .optional Flight.reserveSlot

def wrap : (f : FlightField) → f.Action → FlightAction
  | mainEngine => .mainEngine
  | escapePod => .escapePod
  | retro => .retro
  | booster => .booster
  | spare => .spare
  | reserve => .reserve

def unwrap : (f : FlightField) → FlightAction → Option f.Action
  | mainEngine, .mainEngine a => some a
  | escapePod, .escapePod a => some a
  | retro, .retro a => some a
  | booster, .booster a => some a
  | spare, .spare a => some a
  | reserve, .reserve n => some n
  | _, _ => none

end FlightField

def flightParent : Parent FlightField Flight FlightAction Fault where
  reducer := flightReducer
  ChildState := FlightField.State
  ChildAction := FlightField.Action
  child := FlightField.child
  place := FlightField.place
  wrap := FlightField.wrap
  unwrap := FlightField.unwrap
  reduce_wrap s f x := by cases f <;> rfl
  unwrap_eq_some_iff f a x := by
    cases f <;> cases a <;> constructor <;> intro h <;> cases h <;> rfl
  wrap_ne {f g} h x y := by
    cases f <;> cases g <;> first | exact absurd rfl h | exact fun h => by cases h
  read_write f s t := by cases f <;> rfl
  read_write_of_ne {f g} h s t := by
    cases f <;> cases g <;> first | exact absurd rfl h | rfl

theorem flight_settles_iff_children :
    let queue : List FlightAction := [.mainEngine (.ignite 5), .escapePod (.ignite 2), .reserve 4]
    ∃ run, flightReducer.Settles { Flight.grounded with reserve := some 3 } queue run ∧
      run.reduced = 4 ∧ run.state.escapePod = none ∧ run.state.backup = .idle := by
  intro queue
  have hq : ∀ a ∈ queue, flightParent.Delegated a := by
    simp only [queue, List.forall_mem_cons]
    exact ⟨⟨.mainEngine, .ignite 5, rfl⟩, ⟨.escapePod, .ignite 2, rfl⟩, ⟨.reserve, (4 : Nat), rfl⟩,
      by simp⟩
  obtain ⟨-, hrun, -⟩ := Parent.settles_iff_children flightParent
    { Flight.grounded with reserve := some 3 } queue hq
  have h : ∃ run, flightReducer.Settles { Flight.grounded with reserve := some 3 } queue run ∧
      run.reduced = 4 := ⟨_, ⟨4, rfl, rfl⟩, rfl⟩
  obtain ⟨run, hsettles, hreduced⟩ := h
  have hdecomposes := hrun run hsettles
  obtain ⟨count, -, hfields⟩ := hdecomposes.fields
  have hbackup : some run.state.backup = some .idle := hdecomposes.idle .spare rfl
  have hpod : run.state.escapePod = none := (hfields .escapePod).absent rfl
  exact ⟨run, hsettles, hreduced, hpod, Option.some.inj hbackup⟩

end Model

end Delegation
