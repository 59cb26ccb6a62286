import Mathlib.Data.List.Duplicate
import Delegation.Proofs.Arrangement.Entry
import Delegation.Proofs.Decoration

namespace Delegation

/-- The options of one place. An option says a part `P` of what is read in all, which is a set of
parts with different keys. -/
structure OptionKind (σ P : Type) where
  entry : Rules → σ → Reader σ
  empty : σ
  key : P → String
  /-- An option from one point to another, and what it says. -/
  Spells : Rules → P → Stream → Stream → Prop
  Has : σ → P → Prop
  ext {x y : σ} : (∀ p, Has x p ↔ Has y p) → x = y
  not_has_empty (p : P) : ¬ Has empty p
  spells_of_entry {g : Rules} {x y : σ} {s t : Stream} (h : entry g x s = .ok y t) :
    ∃ p, Spells g p s t
  /-- An option adds what it says, unless its key was given before. -/
  entry_cases {g : Rules} {p : P} {s t : Stream} (h : Spells g p s t) (x : σ) :
    (∃ y, entry g x s = .ok y t ∧ (∀ q, Has x q → key q ≠ key p) ∧
      ∀ q, Has y q ↔ Has x q ∨ q = p) ∨
    ∃ q e, Has x q ∧ key q = key p ∧ entry g x s = .fail e ∧ e.cause = .duplicateOption (key p)
  spells_mono {g g' : Rules} {p : P} {s t : Stream} (hg : g.Below g') (h : Spells g p s t) :
    Spells g' p s t
  spells_append {g : Rules} {p : P} {ts us : List Tree} {close : Span} {left : Option Failure}
    {t : Stream} [Trees.Tail us] (hg : g.Bounded us) (h : Spells g p ⟨ts, close, left⟩ t)
    (close' : Span) : ∃ t', t'.rest = t.rest ++ us ∧ t'.leftover = t.leftover ∧
      Spells g p ⟨ts ++ us, close', left⟩ t'
  visible_lt {g : Rules} {p : P} {s t : Stream} (hg : g.Bounded []) (h : Spells g p s t) :
    (Trees.visible t.rest).length < (Trees.visible s.rest).length

/-- Options one after the other, with commas between them and perhaps one behind the last. -/
inductive Listed {P : Type} (spells : P → Stream → Stream → Prop) :
    Stream → List P → Stream → Prop
  | nil {s : Stream} (hs : s.rest = []) : Listed spells s [] s
  | last {p : P} {s t : Stream} (hp : spells p s t) (ht : t.rest = []) : Listed spells s [p] t
  | cons {p : P} {s t u v : Stream} {comma : List Tree} {ps : List P} (hp : spells p s t)
    (hcomma : Reader.op "," t = .ok comma u) (hps : Listed spells u ps v) :
    Listed spells s (p :: ps) v

namespace Reader

variable {σ : Type} {entry : σ → Reader σ} {x y : σ} {s t u : Stream} {comma : List Tree}

theorem rest_ne_nil_of_comma (h : op "," s = .ok comma t) : s.rest ≠ [] := by
  intro hs
  have := (op_ok h).1
  rw [hs] at this
  cases this

theorem ended_of_ne_nil {ts : List Tree} (h : ts ≠ []) : Look.ended ts = false := by
  simpa [Look.ended] using h

theorem afterOption_last (ht : t.rest = []) : afterOption x t = .ok (.done x) t := by
  rw [afterOption, look_bind, ht]
  rfl

theorem afterOption_comma (h : op "," t = .ok comma u) :
    afterOption x t = .ok (if u.rest.isEmpty then .done x else .again x) u := by
  rw [afterOption, look_bind, ended_of_ne_nil (rest_ne_nil_of_comma h), if_neg Bool.false_ne_true,
    bind_of_ok h, look_bind, Look.ended]
  split <;> rfl

theorem afterOption_ok {round : Round σ σ} (h : afterOption x t = .ok round u) :
    (t.rest = [] ∧ round = .done x ∧ u = t) ∨
    ∃ comma, op "," t = .ok comma u ∧ round = if u.rest.isEmpty then .done x else .again x := by
  by_cases ht : t.rest = []
  · cases (afterOption_last ht).symm.trans h
    exact .inl ⟨ht, rfl, rfl⟩
  · have hbind := h
    rw [afterOption, look_bind, ended_of_ne_nil ht, if_neg Bool.false_ne_true] at hbind
    obtain ⟨comma, v, hcomma, -⟩ := bind_eq_ok.mp hbind
    cases (afterOption_comma hcomma).symm.trans h
    exact .inr ⟨comma, hcomma, rfl⟩

variable {fuel : Nat}

theorem rounds_of_entry {round : Round σ σ} (h : entry x s = .ok y t)
    (hround : afterOption y t = .ok round u) :
    rounds (optionsRound entry) (fuel + 1) x s = (match round with
      | .again z => rounds (optionsRound entry) fuel z
      | .done z => pure z) u := by
  have hstep : optionsRound entry x s = .ok round u := (bind_of_ok h afterOption).trans hround
  cases round <;> exact bind_of_ok hstep _

theorem rounds_of_fail {e : Failure} (h : entry x s = .fail e) :
    rounds (optionsRound entry) (fuel + 1) x s = .fail e :=
  bind_fail (bind_fail h)

end Reader

namespace OptionKind

open Reader

variable {σ P : Type} (K : OptionKind σ P)

/-- What has been read has exactly these parts, and they have different keys. -/
structure Holds (x : σ) (ps : List P) : Prop where
  nodup : (ps.map K.key).Nodup
  has_iff : ∀ p, K.Has x p ↔ p ∈ ps

theorem holds_empty : K.Holds K.empty [] := ⟨.nil, by simp [K.not_has_empty]⟩

def Refuses (ps : List P) (e : Failure) : Prop :=
  ∃ k, e.cause = .duplicateOption k ∧ List.Duplicate k (ps.map K.key)

variable {K} {g : Rules} {x y : σ} {p : P} {before ps qs : List P} {s t : Stream} {fuel : Nat}

theorem Holds.eq_of_perm (hx : K.Holds x ps) (hy : K.Holds y qs) (h : ps.Perm qs) : x = y :=
  K.ext fun p => by rw [hx.has_iff, hy.has_iff, h.mem_iff]

theorem Refuses.append {e : Failure} (h : K.Refuses ps e) (qs : List P) :
    K.Refuses (ps ++ qs) e := by
  obtain ⟨k, hcause, hk⟩ := h
  refine ⟨k, hcause, hk.mono_sublist ?_⟩
  rw [List.map_append]
  exact List.sublist_append_left _ _

theorem Refuses.not_nodup {e : Failure} (h : K.Refuses ps e) : ¬ (ps.map K.key).Nodup := by
  obtain ⟨k, -, hk⟩ := h
  exact List.exists_duplicate_iff_not_nodup.mp ⟨k, hk⟩

theorem Holds.entry_cases (hx : K.Holds x before) (hp : K.Spells g p s t) :
    (∃ y, K.entry g x s = .ok y t ∧ K.Holds y (before ++ [p])) ∨
    ∃ e, K.entry g x s = .fail e ∧ K.Refuses (before ++ [p]) e := by
  obtain ⟨y, hy, hfree, hhas⟩ | ⟨q, e, hq, hkey, he, hcause⟩ := K.entry_cases hp x
  · refine .inl ⟨y, hy, ?_, fun q => ?_⟩
    · rw [List.map_append, List.map_singleton, ← List.concat_eq_append]
      refine hx.nodup.concat fun hmem => ?_
      obtain ⟨q, hq, hkey⟩ := List.mem_map.mp hmem
      exact hfree q ((hx.has_iff q).mpr hq) hkey
    · rw [hhas, hx.has_iff, List.mem_append, List.mem_singleton]
  · have hmem : K.key p ∈ before.map K.key := hkey ▸ List.mem_map_of_mem ((hx.has_iff q).mp hq)
    refine .inr ⟨e, he, K.key p, hcause, ?_⟩
    rw [List.map_append, List.duplicate_iff_sublist]
    exact (List.singleton_sublist.mpr hmem).append (List.Sublist.refl [K.key p])

theorem rest_ne_nil (hg : g.Bounded []) (hp : K.Spells g p s t) : s.rest ≠ [] := by
  intro hs
  have := K.visible_lt hg hp
  rw [hs] at this
  exact absurd this (Nat.not_lt_zero _)

theorem length_le (hg : g.Bounded []) (hs : Listed (K.Spells g) s ps t) :
    ps.length ≤ (Trees.visible s.rest).length := by
  induction hs with
  | nil hs => exact Nat.zero_le _
  | last hp ht => exact Nat.lt_of_le_of_lt (Nat.zero_le _) (K.visible_lt hg hp)
  | cons hp hcomma hps ih =>
    have hlt := K.visible_lt hg hp
    have hle := (suffix_of_operator? (op_ok hcomma).1).length_le
    rw [List.length_cons]
    omega

theorem listed_ne_nil (hg : g.Bounded []) (hs : Listed (K.Spells g) s ps t) (hps : ps ≠ []) :
    s.rest ≠ [] := by
  cases hs with
  | nil hs => exact absurd rfl hps
  | last hp ht => exact rest_ne_nil hg hp
  | cons hp hcomma hrest => exact rest_ne_nil hg hp

theorem rounds_cases (hg : g.Bounded []) (hs : Listed (K.Spells g) s ps t) (hps : ps ≠ [])
    (hx : K.Holds x before) (hfuel : ps.length ≤ fuel) :
    (∃ y, rounds (optionsRound (K.entry g)) fuel x s = .ok y t ∧ K.Holds y (before ++ ps)) ∨
    ∃ e, rounds (optionsRound (K.entry g)) fuel x s = .fail e ∧ K.Refuses (before ++ ps) e := by
  -- on the options of the list; `before` holds the parts that were read by then
  induction hs generalizing x before fuel with
  | nil hs => exact absurd rfl hps
  | @last p s t hp ht =>
    obtain ⟨fuel, rfl⟩ := Nat.exists_eq_add_of_le' hfuel
    obtain ⟨y, hy, hholds⟩ | ⟨e, he, hrefuses⟩ := hx.entry_cases hp
    · exact .inl ⟨y, rounds_of_entry hy (afterOption_last ht), hholds⟩
    · exact .inr ⟨e, rounds_of_fail he, hrefuses⟩
  | @cons p s t u v comma ps hp hcomma hrest ih =>
    obtain ⟨fuel, rfl⟩ : ∃ n, fuel = n + 1 := ⟨fuel - 1, by rw [List.length_cons] at hfuel; omega⟩
    obtain ⟨y, hy, hholds⟩ | ⟨e, he, hrefuses⟩ := hx.entry_cases hp
    · rw [List.append_cons, rounds_of_entry hy (afterOption_comma hcomma)]
      by_cases hps : ps = []
      · -- the comma was the last token
        subst hps
        cases hrest with
        | nil hu =>
          rw [hu]
          exact .inl ⟨y, rfl, by rwa [List.append_nil]⟩
      · have hu := listed_ne_nil hg hrest hps
        rw [List.isEmpty_eq_false_iff.mpr hu]
        exact ih hps hholds (Nat.le_of_succ_le_succ hfuel)
    · refine .inr ⟨e, rounds_of_fail he, ?_⟩
      rw [List.append_cons]
      exact hrefuses.append ps

theorem options_cases (hg : g.Bounded []) (hs : Listed (K.Spells g) s ps t)
    (hx : K.Holds x before) :
    (∃ y, options (K.entry g) x s = .ok y t ∧ K.Holds y (before ++ ps)) ∨
    ∃ e, options (K.entry g) x s = .fail e ∧ K.Refuses (before ++ ps) e := by
  by_cases hps : ps = []
  · subst hps
    cases hs with
    | nil hs =>
      refine .inl ⟨x, ?_, by rwa [List.append_nil]⟩
      rw [options, look_bind, hs]
      rfl
  · rw [options, look_bind, ended_of_ne_nil (listed_ne_nil hg hs hps)]
    refine rounds_cases hg hs hps hx ?_
    calc ps.length
      _ ≤ (Trees.visible s.rest).length := length_le hg hs
      _ ≤ Trees.weight s.rest := Trees.length_visible_le s.rest
      _ ≤ Trees.weight s.rest + 2 := Nat.le_add_right _ 2

theorem rounds_listed (h : rounds (optionsRound (K.entry g)) fuel x s = .ok y t) :
    ∃ ps, Listed (K.Spells g) s ps t := by
  induction fuel generalizing x s with
  | zero => cases h
  | succ fuel ih =>
    obtain ⟨round, v, hround, h⟩ := bind_eq_ok.mp h
    obtain ⟨x₁, u, hx₁, hround⟩ := bind_eq_ok.mp hround
    obtain ⟨p, hp⟩ := K.spells_of_entry hx₁
    obtain ⟨hu, rfl, rfl⟩ | ⟨comma, hcomma, rfl⟩ := afterOption_ok hround
    · obtain ⟨-, rfl⟩ := pure_eq_ok.mp h
      exact ⟨[p], .last hp hu⟩
    · by_cases hv : v.rest = []
      · rw [hv] at h
        obtain ⟨-, rfl⟩ := pure_eq_ok.mp h
        exact ⟨[p], .cons hp hcomma (.nil hv)⟩
      · rw [List.isEmpty_eq_false_iff.mpr hv] at h
        obtain ⟨ps, hps⟩ := ih h
        exact ⟨p :: ps, .cons hp hcomma hps⟩

theorem options_listed (h : options (K.entry g) x s = .ok y t) :
    ∃ ps, Listed (K.Spells g) s ps t := by
  rw [options, look_bind] at h
  by_cases hs : s.rest = []
  · rw [hs] at h
    obtain ⟨-, rfl⟩ := pure_eq_ok.mp h
    exact ⟨[], .nil hs⟩
  · rw [ended_of_ne_nil hs] at h
    exact rounds_listed h

variable (K) in
/-- What reading gives for these parts: all of them, or a failure for a key that is given twice. -/
inductive Outcome (ps : List P) : Except Failure σ → Prop
  | read {x : σ} (h : K.Holds x ps) : Outcome ps (.ok x)
  | refused {e : Failure} (h : K.Refuses ps e) : Outcome ps (.error e)

namespace Outcome

variable {r r' : Except Failure σ}

theorem bind {f : σ → Except Failure σ} (hr : K.Outcome before r)
    (hf : ∀ x, K.Holds x before → K.Outcome (before ++ ps) (f x)) :
    K.Outcome (before ++ ps) (r >>= f) := by
  cases hr with
  | read h => exact hf _ h
  | refused h => exact .refused (h.append ps)

theorem ok_iff_nodup (hr : K.Outcome ps r) : (∃ x, r = .ok x) ↔ (ps.map K.key).Nodup := by
  cases hr with
  | read h => simpa using h.nodup
  | refused h => simpa using h.not_nodup

theorem ok_of_perm (hr : K.Outcome ps r) (hr' : K.Outcome qs r') (hperm : ps.Perm qs)
    (h : r = .ok x) : r' = .ok x := by
  subst h
  cases hr with
  | read hx =>
    cases hr' with
    | read hy => rw [hx.eq_of_perm hy hperm]
    | refused h => exact absurd ((hperm.map K.key).nodup_iff.mp hx.nodup) h.not_nodup

end Outcome

theorem rest_of_listed {spells : P → Stream → Stream → Prop} (h : Listed spells s ps t) :
    t.rest = [] := by
  induction h with
  | nil hs => exact hs
  | last hp ht => exact ht
  | cons hp hcomma hps ih => exact ih

section Reading

variable {ts : List Tree} {close : Span}

variable (K ts close ps) in
/-- The tokens of a group that closes at `close` are a list of options, and no group in them holds
more than it should. -/
def Lists : Prop :=
  ∃ t, Listed (K.Spells (rulesFor ts)) ⟨ts, close, none⟩ ps t ∧ t.leftover = none

theorem Lists.outcome (h : K.Lists ps ts close) (hx : K.Holds x before) :
    K.Outcome (before ++ ps) (readWithin (fun g => options (K.entry g) x) ts close) := by
  obtain ⟨t, hs, hleft⟩ := h
  obtain ⟨y, hy, hholds⟩ | ⟨e, he, hrefuses⟩ := options_cases (rules_bounded [] _) hs hx
  · have hread : readWithin (fun g => options (K.entry g) x) ts close = .ok y :=
      run_eq_ok.mpr ⟨t, hy, hleft, by rw [rest_of_listed hs]; rfl⟩
    rw [hread]
    exact .read hholds
  · rw [readWithin, run]
    simp only [rulesFor] at he ⊢
    rw [he]
    exact .refused hrefuses

theorem lists_of_readWithin
    (h : readWithin (fun g => options (K.entry g) x) ts close = .ok y) :
    ∃ ps, K.Lists ps ts close := by
  obtain ⟨t, ht, hleft, -⟩ := run_eq_ok.mp h
  obtain ⟨ps, hps⟩ := options_listed ht
  exact ⟨ps, t, hps, hleft⟩

end Reading

end OptionKind

end Delegation
