import Delegation.Model.Flight
import Delegation.Proofs.Independence

namespace Delegation

variable {ι σ α ε : Type}

namespace Reducer

/-- Completed reductions: in state `s` with `queue` waiting, the reductions of `log` are done, which
leaves state `t` with `rest` waiting. -/
inductive Steps (r : Reducer σ α ε) : σ → List α → List (Event α) → σ → List α → Prop where
  | none (s : σ) (queue : List α) : Steps r s queue [] s queue
  | next {s t u : σ} {a : α} {queue rest : List α} {e : Effect α} {log : List (Event α)} :
      r.reduce s a = ⟨t, .ok e⟩ → Steps r t (queue ++ e.actions) log u rest →
      Steps r s (a :: queue) (⟨a, e, queue.length⟩ :: log) u rest

def Ends (r : Reducer σ α ε) (s : σ) (queue : List α) (run : Run σ α ε) : Prop :=
  ∃ fuel, r.drain fuel s queue = some run

variable {r : Reducer σ α ε}

theorem drain_mono {fuel more : Nat} (h : fuel ≤ more) {s : σ} {queue : List α} {run : Run σ α ε}
    (hd : r.drain fuel s queue = some run) : r.drain more s queue = some run := by
  induction fuel generalizing more s queue run with
  | zero =>
    cases queue with
    | nil => cases more <;> simpa [drain] using hd
    | cons a queue => simp [drain] at hd
  | succ fuel ih =>
    obtain ⟨more, rfl⟩ := Nat.exists_eq_add_of_le' (Nat.le_of_add_left_le h)
    cases queue with
    | nil => simpa [drain] using hd
    | cons a queue =>
      rw [drain] at hd ⊢
      split at hd
      next => simpa using hd
      next t e hr =>
        obtain ⟨rest, hrest, rfl⟩ := Option.map_eq_some_iff.mp hd
        rw [ih (by omega) hrest]
        rfl

theorem Ends.unique {s : σ} {queue : List α} {run run' : Run σ α ε} (h : r.Ends s queue run)
    (h' : r.Ends s queue run') : run = run' := by
  obtain ⟨fuel, hd⟩ := h
  obtain ⟨fuel', hd'⟩ := h'
  have hsame := (drain_mono (Nat.le_max_left fuel fuel') hd).symm.trans
    (drain_mono (Nat.le_max_right fuel fuel') hd')
  simpa using hsame

theorem Ends.next {s t : σ} {a : α} {queue : List α} {e : Effect α} {run : Run σ α ε}
    (hr : r.reduce s a = ⟨t, .ok e⟩) (h : r.Ends t (queue ++ e.actions) run) :
    r.Ends s (a :: queue) (run.after ⟨a, e, queue.length⟩) := by
  obtain ⟨fuel, hd⟩ := h
  exact ⟨fuel + 1, by simp [drain, hr, hd]⟩

theorem Ends.fault {s t : σ} {a : α} {e : ε} (hr : r.reduce s a = ⟨t, .error e⟩) (queue : List α) :
    r.Ends s (a :: queue) ⟨t, [], some e⟩ :=
  ⟨1, by simp [drain, hr]⟩

theorem Steps.ends {s t : σ} {queue rest : List α} {log : List (Event α)}
    (h : r.Steps s queue log t rest) {run : Run σ α ε} (hrun : r.Ends t rest run) :
    r.Ends s queue { run with log := log ++ run.log } := by
  induction h with
  | none => exact hrun
  | next hr _ ih => exact .next hr (ih hrun)

theorem ends_iff {s : σ} {queue : List α} {run : Run σ α ε} : r.Ends s queue run ↔
    (run.fault = none ∧ r.Steps s queue run.log run.state []) ∨
    ∃ t b rest e, r.Steps s queue run.log t (b :: rest) ∧
      r.reduce t b = ⟨run.state, .error e⟩ ∧ run.fault = some e := by
  constructor
  · rintro ⟨fuel, hd⟩
    -- one reduction for one unit of fuel, so the cases are those of `drain`
    induction fuel generalizing s queue run with
    | zero =>
      cases queue with
      | nil =>
        obtain rfl : ⟨s, [], none⟩ = run := by simpa [drain] using hd
        exact .inl ⟨rfl, .none s []⟩
      | cons a queue => simp [drain] at hd
    | succ fuel ih =>
      cases queue with
      | nil =>
        obtain rfl : ⟨s, [], none⟩ = run := by simpa [drain] using hd
        exact .inl ⟨rfl, .none s []⟩
      | cons a queue =>
        rw [drain] at hd
        split at hd
        next t e hr =>
          obtain rfl : ⟨t, [], some e⟩ = run := by simpa using hd
          exact .inr ⟨s, a, queue, e, .none s _, hr, rfl⟩
        next t e hr =>
          obtain ⟨rest, hrest, rfl⟩ := Option.map_eq_some_iff.mp hd
          obtain ⟨hf, hsteps⟩ | ⟨u, b, waiting, fault, hsteps, hb, hf⟩ := ih hrest
          · exact .inl ⟨hf, .next hr hsteps⟩
          · exact .inr ⟨u, b, waiting, fault, .next hr hsteps, hb, hf⟩
  · rintro (⟨hf, hsteps⟩ | ⟨t, b, rest, e, hsteps, hb, hf⟩)
    · have := hsteps.ends ⟨0, rfl⟩
      simpa [← hf] using this
    · have := hsteps.ends (.fault hb rest)
      simpa [← hf] using this

/-- What every reduction of an action in `D` keeps, and what it asks for being in `D` again, a whole
run keeps, also one that faults. -/
theorem Ends.keeps {D : α → Prop} {I : σ → Prop}
    (hstep : ∀ s a, D a → I s → I (r.reduce s a).state)
    (hasked : ∀ s t a e, D a → r.reduce s a = ⟨t, .ok e⟩ → ∀ b ∈ e.actions, D b)
    {s : σ} {queue : List α} {run : Run σ α ε} (h : r.Ends s queue run)
    (hq : ∀ a ∈ queue, D a) (hs : I s) : I run.state := by
  have hsteps : ∀ {s t : σ} {queue rest : List α} {log : List (Event α)},
      r.Steps s queue log t rest → (∀ a ∈ queue, D a) → I s → I t ∧ ∀ a ∈ rest, D a := by
    intro s t queue rest log h
    induction h with
    | none => exact fun hq hs => ⟨hs, hq⟩
    | @next s t u a queue rest e log hr _ ih =>
      intro hq hs
      have ha := hq a (by simp)
      have ht : I t := by simpa [hr] using hstep s a ha hs
      refine ih (fun b hb => ?_) ht
      obtain hb | hb := List.mem_append.mp hb
      · exact hq b (List.mem_cons_of_mem _ hb)
      · exact hasked s t a e ha hr b hb
  obtain ⟨-, h⟩ | ⟨t, b, rest, e, h, hb, -⟩ := ends_iff.mp h
  · exact (hsteps h hq hs).1
  · obtain ⟨ht, hrest⟩ := hsteps h hq hs
    simpa [hb] using hstep t b (hrest b (by simp)) ht

end Reducer

/-- Actions sent to a store one after the other, where a fault is caught and the store is used
again: what each send did, and the state in the end. -/
inductive Store.Sends : Store σ α ε → List α → List (Run σ α ε) → σ → Prop where
  | none (store : Store σ α ε) : Sends store [] [] store.state
  | next {store : Store σ α ε} {fuel : Nat} {a : α} {run : Run σ α ε} {as : List α}
      {runs : List (Run σ α ε)} {t : σ} : store.send fuel a = some run →
      Sends (store.withState run.state) as runs t → Sends store (a :: as) (run :: runs) t

namespace Store

theorem Sends.fresh {store : Store σ α ε} {as : List α} {runs : List (Run σ α ε)} {v : σ}
    (h : store.Sends as runs v) {i : Nat} {a : α} {run : Run σ α ε} (ha : as[i]? = some a)
    (hrun : runs[i]? = some run) : ∃ s, (store.state :: runs.map Run.state)[i]? = some s ∧
      store.reducer.Ends s [a] run ∧
      (store.withState run.state).Sends (as.drop (i + 1)) (runs.drop (i + 1)) v := by
  induction h generalizing i with
  | none => simp at ha
  | @next store fuel b first as runs v hfirst hlater ih =>
    cases i with
    | zero =>
      obtain rfl : b = a := by simpa using ha
      obtain rfl : first = run := by simpa using hrun
      exact ⟨store.state, rfl, ⟨fuel, hfirst⟩, hlater⟩
    | succ i => exact ih (by simpa using ha) (by simpa using hrun)

theorem Sends.keeps {D : α → Prop} {I : σ → Prop} {store : Store σ α ε} {as : List α}
    {runs : List (Run σ α ε)} {v : σ} (h : store.Sends as runs v)
    (hrun : ∀ s a run, store.reducer.Ends s [a] run → D a → I s → I run.state)
    (has : ∀ a ∈ as, D a) (hs : I store.state) : I v := by
  induction h with
  | none => exact hs
  | @next store fuel a run as runs v hfirst _ ih =>
    obtain ⟨ha, has⟩ := List.forall_mem_cons.mp has
    exact ih hrun has (hrun store.state a run ⟨fuel, hfirst⟩ ha hs)

end Store

namespace Parent

variable (p : Parent ι σ α ε)

theorem state_reduce_wrap (s : σ) (f : ι) (x : p.ChildAction f) :
    (p.reducer.reduce s (p.wrap f x)).state =
      match (p.place f).read s with
      | none => s
      | some t => (p.place f).write s ((p.child f).reduce t x).state := by
  rw [p.reduce_wrap]
  cases hc : (p.place f).read s with
  | none => rw [Reducer.delegate_absent _ _ _ hc]
  | some t => rw [Reducer.delegate_present _ _ _ hc]; rfl

theorem read_reduce_of_ne {f g : ι} (h : g ≠ f) (s : σ) (x : p.ChildAction f) :
    (p.place g).read (p.reducer.reduce s (p.wrap f x)).state = (p.place g).read s := by
  rw [state_reduce_wrap]
  split
  next => rfl
  next => rw [p.read_write_of_ne h]

theorem read_reduce_present {f : ι} {s : σ} {t : p.ChildState f} (h : (p.place f).read s = some t)
    (x : p.ChildAction f) : (p.place f).read (p.reducer.reduce s (p.wrap f x)).state =
      some ((p.child f).reduce t x).state := by
  simp only [state_reduce_wrap, h, p.read_write]

theorem reduce_absent {f : ι} {s : σ} (h : (p.place f).read s = none) (x : p.ChildAction f) :
    p.reducer.reduce s (p.wrap f x) = ⟨s, .ok .none⟩ := by
  rw [p.reduce_wrap, Reducer.delegate_absent _ _ _ h]

theorem asked_of_wrap {f : ι} {s t : σ} {x : p.ChildAction f} {e : Effect α}
    (h : p.reducer.reduce s (p.wrap f x) = ⟨t, .ok e⟩) :
    ∀ b ∈ e.actions, ∃ y, b = p.wrap f y := by
  obtain ⟨-, -, rfl⟩ | ⟨c, c', e', -, -, -, rfl⟩ := (p.reduce_wrap_ok s t f x e).mp h
  · simp
  · simp only [Effect.actions_map, List.mem_map]
    rintro b ⟨y, -, rfl⟩
    exact ⟨y, rfl⟩

variable {p}

theorem Untouched.state_reduce {ρ : Type} {view : σ → ρ} (hv : p.Untouched view) (s : σ) (f : ι)
    (x : p.ChildAction f) : view (p.reducer.reduce s (p.wrap f x)).state = view s := by
  rw [state_reduce_wrap]
  split
  next => rfl
  next => exact hv f s _

theorem keeps_of_delegated {I : σ → Prop}
    (hstep : ∀ s f x, I s → I (p.reducer.reduce s (p.wrap f x)).state) {s : σ} {as : List α}
    {runs : List (Run σ α ε)} {v : σ} (h : (Store.mk p.reducer s).Sends as runs v)
    (has : ∀ a ∈ as, p.Delegated a) (hs : I s) : I v := by
  refine h.keeps (fun t a run hrun ha ht => ?_) has hs
  refine hrun.keeps (D := p.Delegated) ?_ ?_ (by simpa using ha) ht
  · rintro t _ ⟨f, x, rfl⟩ ht
    exact hstep t f x ht
  · rintro t u _ e ⟨f, x, rfl⟩ hr b hb
    obtain ⟨y, rfl⟩ := p.asked_of_wrap hr b hb
    exact ⟨f, y, rfl⟩

theorem Sends.isSome_read {s : σ} {as : List α} {runs : List (Run σ α ε)} {v : σ}
    (h : (Store.mk p.reducer s).Sends as runs v) (has : ∀ a ∈ as, p.Delegated a) {f : ι}
    (hf : ((p.place f).read s).isSome = true) : ((p.place f).read v).isSome = true := by
  classical
  refine keeps_of_delegated (I := fun t => ((p.place f).read t).isSome = true) ?_ h has hf
  intro t g x ht
  by_cases hfg : f = g
  · subst hfg
    obtain ⟨c, hc⟩ := Option.isSome_iff_exists.mp ht
    rw [p.read_reduce_present hc, Option.isSome_some]
  · rwa [p.read_reduce_of_ne hfg]

theorem Sends.read_eq {s : σ} {as : List α} {runs : List (Run σ α ε)} {v : σ}
    (h : (Store.mk p.reducer s).Sends as runs v) {f : ι}
    (has : ∀ a ∈ as, ∃ g, g ≠ f ∧ ∃ x, a = p.wrap g x) :
    (p.place f).read v = (p.place f).read s := by
  refine h.keeps (I := fun t => (p.place f).read t = (p.place f).read s)
    (fun t a run hrun ha ht => ?_) has rfl
  refine hrun.keeps (D := fun a => ∃ g, g ≠ f ∧ ∃ x, a = p.wrap g x)
    (I := fun t => (p.place f).read t = (p.place f).read s) ?_ ?_ (by simpa using ha) ht
  · rintro t _ ⟨g, hg, x, rfl⟩ ht
    rw [p.read_reduce_of_ne hg.symm, ht]
  · rintro t u _ e ⟨g, hg, x, rfl⟩ hr b hb
    obtain ⟨y, rfl⟩ := p.asked_of_wrap hr b hb
    exact ⟨g, hg, y, rfl⟩

variable (p)

/-- A reduction for a field, whether it faults or not, writes that field only, and a child that was
there stays with whatever it left. -/
structure Confined (s : σ) (f : ι) (x : p.ChildAction f) : Prop where
  others : ∀ g, g ≠ f →
    (p.place g).read (p.reducer.reduce s (p.wrap f x)).state = (p.place g).read s
  untouched : ∀ (ρ : Type) (view : σ → ρ), p.Untouched view →
    view (p.reducer.reduce s (p.wrap f x)).state = view s
  present : ∀ t, (p.place f).read s = some t →
    (p.place f).read (p.reducer.reduce s (p.wrap f x)).state =
      some ((p.child f).reduce t x).state
  absent : (p.place f).read s = none → p.reducer.reduce s (p.wrap f x) = ⟨s, .ok .none⟩

structure Fresh (before : σ) (a : α) (run : Run σ α ε) : Prop where
  only : ∀ other, p.reducer.Ends before [a] other ↔ other = run
  fault : ∀ e, run.fault = some e → ∃ t b rest,
    p.reducer.Steps before [a] run.log t (b :: rest) ∧
      p.reducer.reduce t b = ⟨run.state, .error e⟩

/-- Sends one after the other, faults caught. Every send is that of a fresh store which holds what
the send before it left, and all of them together leave children present and other state alone. -/
structure Survives (s : σ) (as : List α) (runs : List (Run σ α ε)) (v : σ) : Prop where
  fresh : ∀ (i : Nat) a run, as[i]? = some a → runs[i]? = some run → ∃ before,
    (s :: runs.map Run.state)[i]? = some before ∧ p.Fresh before a run ∧
      (Store.mk p.reducer run.state).Sends (as.drop (i + 1)) (runs.drop (i + 1)) v
  present : (∀ a ∈ as, p.Delegated a) → ∀ f,
    ((p.place f).read s).isSome = true → ((p.place f).read v).isSome = true
  untouched : (∀ a ∈ as, p.Delegated a) → ∀ (ρ : Type) (view : σ → ρ), p.Untouched view →
    view v = view s
  idle : (∀ a ∈ as, p.Delegated a) → ∀ f, p.actionsOf f as = [] →
    (p.place f).read v = (p.place f).read s

variable {p}

theorem confined (s : σ) (f : ι) (x : p.ChildAction f) : p.Confined s f x where
  others _ hg := p.read_reduce_of_ne hg s x
  untouched _ _ hv := hv.state_reduce s f x
  present _ ht := p.read_reduce_present ht x
  absent h := p.reduce_absent h x

theorem fresh_of_ends {before : σ} {a : α} {run : Run σ α ε} (h : p.reducer.Ends before [a] run) :
    p.Fresh before a run where
  only other := ⟨fun ho => ho.unique h, fun ho => ho ▸ h⟩
  fault e he := by
    obtain ⟨hf, -⟩ | ⟨t, b, rest, e', hsteps, hb, hf⟩ := Reducer.ends_iff.mp h
    · simp [hf] at he
    · obtain rfl : e' = e := by simpa [hf] using he
      exact ⟨t, b, rest, hsteps, hb⟩

theorem Sends.survives {s : σ} {as : List α} {runs : List (Run σ α ε)} {v : σ}
    (h : (Store.mk p.reducer s).Sends as runs v) : p.Survives s as runs v where
  fresh i a run ha hrun := by
    obtain ⟨before, hbefore, hends, hlater⟩ := h.fresh ha hrun
    exact ⟨before, hbefore, fresh_of_ends hends, hlater⟩
  present has f hf := Sends.isSome_read h has hf
  untouched has ρ view hv := keeps_of_delegated (I := fun t => view t = view s)
    (fun t f x ht => by rw [hv.state_reduce, ht]) h has rfl
  idle has f hf := by
    refine Sends.read_eq h fun a ha => ?_
    obtain ⟨g, x, rfl⟩ := has a ha
    refine ⟨g, ?_, x, rfl⟩
    rintro rfl
    have hx : x ∈ p.actionsOf g as := List.mem_filterMap.mpr ⟨_, ha, p.unwrap_wrap g x⟩
    simp [hf] at hx

theorem ends_of_fault {s t u : σ} {a b : α} {log : List (Event α)} {rest : List α} {e : ε}
    (hsteps : p.reducer.Steps s [a] log t (b :: rest)) (hb : p.reducer.reduce t b = ⟨u, .error e⟩)
    (run : Run σ α ε) : p.reducer.Ends s [a] run ↔ run = ⟨u, log, some e⟩ := by
  have hends : p.reducer.Ends s [a] ⟨u, log, some e⟩ :=
    Reducer.ends_iff.mpr (.inr ⟨t, b, rest, e, hsteps, hb, rfl⟩)
  exact ⟨fun h => h.unique hends, fun h => h ▸ hends⟩

/-- A fault loses no state. A delegated reduction writes its own field only, and a child that was
present stays with whatever it left. A send that faults leaves the state after its completed
reductions with the writes of the last one; what was waiting is dropped, and the next send is that
of a fresh store. -/
theorem faults_keep_state (p : Parent ι σ α ε) :
    (∀ s f x, p.Confined s f x) ∧
    (∀ s a log t b rest u e, p.reducer.Steps s [a] log t (b :: rest) →
      p.reducer.reduce t b = ⟨u, .error e⟩ →
      ∀ run, p.reducer.Ends s [a] run ↔ run = ⟨u, log, some e⟩) ∧
    ∀ s as runs v, (Store.mk p.reducer s).Sends as runs v → p.Survives s as runs v :=
  ⟨confined, fun _ _ _ _ _ _ _ _ => ends_of_fault, fun _ _ _ _ => Sends.survives⟩

end Parent

namespace Model

theorem flight_faults_keep_state :
    let s := { Flight.grounded with escapePod := some ⟨2147483647, 0⟩ }
    ∃ runs v, (Store.mk flightReducer s).Sends
        [.escapePod (.ignite 1), .escapePod (.throttle (-7))] runs v ∧
      runs.map Run.fault = [some .thrusterOverflow, none] ∧ v.escapePod.isSome = true ∧
      v.mainEngine = .idle := by
  intro s
  have hends (run : Run Flight FlightAction Fault) :=
    (Parent.faults_keep_state flightParent).2.1 s (.escapePod (.ignite 1))
      [⟨.escapePod (.ignite 1), .send (.escapePod (.throttle 1)), 0⟩]
      { s with escapePod := some ⟨2147483647, 1⟩ } (.escapePod (.throttle 1)) []
      { s with escapePod := some ⟨2147483647, 1⟩ } .thrusterOverflow
      (.next rfl (.none _ _)) rfl run
  obtain ⟨fuel, hfirst⟩ := (hends _).mpr rfl
  have hsends : (Store.mk flightParent.reducer s).Sends
      [.escapePod (.ignite 1), .escapePod (.throttle (-7))] _
      { s with escapePod := some ⟨2147483640, 1⟩ } :=
    .next hfirst (.next (show Store.send 1 _ _ = some _ from rfl) (.none _))
  have hsurvives := (Parent.faults_keep_state flightParent).2.2 s _ _ _ hsends
  have hdelegated : ∀ a ∈ [FlightAction.escapePod (.ignite 1), .escapePod (.throttle (-7))],
      flightParent.Delegated a := by
    simp only [List.forall_mem_cons]
    exact ⟨⟨.escapePod, .ignite 1, rfl⟩, ⟨.escapePod, .throttle (-7), rfl⟩, by simp⟩
  have hpresent := hsurvives.present hdelegated .escapePod rfl
  have hengine := hsurvives.idle hdelegated .mainEngine rfl
  exact ⟨_, _, hsends, rfl, hpresent, Option.some.inj hengine⟩

end Model

end Delegation
