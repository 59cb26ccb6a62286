import Delegation.Options

namespace Delegation

@[simp] theorem Trees.weight_append (ts us : List Tree) :
    Trees.weight (ts ++ us) = Trees.weight ts + Trees.weight us := by
  induction ts with
  | nil => simp [Trees.weight]
  | cons t ts ih => simp [Trees.weight, ih, Nat.add_assoc]

namespace Reader

variable {α β σ : Type}

theorem bind_of_ok {p : Reader α} {s t : Stream} {a : α} (h : p s = .ok a t) (f : α → Reader β) :
    (p >>= f) s = f a t := by
  simp only [Bind.bind, h]

theorem bind_eq_ok {p : Reader α} {f : α → Reader β} {s u : Stream} {b : β} :
    (p >>= f) s = .ok b u ↔ ∃ a t, p s = .ok a t ∧ f a t = .ok b u := by
  cases hp : p s with
  | ok a t =>
    rw [bind_of_ok hp]
    constructor
    · exact fun h => ⟨a, t, rfl, h⟩
    · rintro ⟨a', t', h, hf⟩
      cases h
      exact hf
  | fail e => simp [Bind.bind, hp]

theorem pure_eq_ok {a b : α} {s t : Stream} :
    (pure a : Reader α) s = .ok b t ↔ a = b ∧ s = t := by
  change Reply.ok a s = .ok b t ↔ _
  simp

theorem look_bind (p : Look) (f : Bool → Reader β) (s : Stream) :
    (look p >>= f) s = f (p s.rest) s := rfl

theorem anyWord_ok {s t : Stream} {i : Ident} (h : anyWord s = .ok i t) :
    ∃ rest, word? s.rest = some (i, rest) ∧ t = { s with rest := rest } := by
  unfold anyWord at h
  split at h
  next j rest hj =>
    cases h
    exact ⟨rest, hj, rfl⟩
  next => cases h

theorem leadingColons_none {s t : Stream} (h : leadingColons s = .ok none t) : t = s := by
  rw [leadingColons, look_bind] at h
  split at h
  next =>
    obtain ⟨span, u, -, hsome⟩ := bind_eq_ok.mp h
    cases (pure_eq_ok.mp hsome).1
  next => exact (pure_eq_ok.mp h).2.symm

theorem name_ok {s t : Stream} {i : Ident} (h : name s = .ok i t) :
    isKeyword i.name = false ∧ ∃ rest, word? s.rest = some (i, rest) := by
  unfold name at h
  split at h
  next rest hword =>
    split at h
    next => cases h
    next hkey =>
      cases h
      exact ⟨by simpa using hkey, rest, hword⟩
  next => cases h

/-- A round goes on from a state with the property `I`, or ends with a value that has `Q`. -/
def Round.Holds (I : σ → Prop) (Q : β → Prop) : Round σ β → Prop
  | .again a => I a
  | .done b => Q b

/-- Whatever `p` reads has the property `P`. -/
def Yields (p : Reader α) (P : α → Prop) : Prop := ∀ s a t, p s = .ok a t → P a

namespace Yields

variable {P : α → Prop} {Q : β → Prop}

theorem pure {a : α} (h : P a) : (pure a : Reader α).Yields P := by
  intro s b t hb
  rw [← (pure_eq_ok.mp hb).1]
  exact h

theorem bind {p : Reader α} {f : α → Reader β} (hp : p.Yields P)
    (hf : ∀ a, P a → (f a).Yields Q) : (p >>= f).Yields Q := by
  intro s b u h
  obtain ⟨a, t, ha, hb⟩ := bind_eq_ok.mp h
  exact hf a (hp s a t ha) t b u hb

theorem anything (p : Reader α) : p.Yields fun _ => True := fun _ _ _ _ => trivial

theorem bind' {p : Reader α} {f : α → Reader β} (hf : ∀ a, (f a).Yields Q) :
    (p >>= f).Yields Q :=
  bind (anything p) fun a _ => hf a

theorem ite {b : Bool} {p q : Reader α} (hp : b = true → p.Yields P) (hq : b = false → q.Yields P) :
    (if b = true then p else q).Yields P := by
  cases b with
  | false => exact hq rfl
  | true => exact hp rfl

theorem fail {p : Reader α} (h : ∀ s, ∃ e, p s = .fail e) : p.Yields P := by
  intro s a t ha
  obtain ⟨e, he⟩ := h s
  rw [he] at ha
  cases ha

theorem rounds {step : σ → Reader (Round σ β)} {I : σ → Prop}
    (hstep : ∀ a, I a → (step a).Yields (Round.Holds I Q))
    (fuel : Nat) {a : σ} (ha : I a) : (rounds step fuel a).Yields Q := by
  induction fuel generalizing a with
  | zero => exact fail fun s => ⟨_, rfl⟩
  | succ fuel ih =>
    refine (hstep a ha).bind fun round hround => ?_
    cases round with
    | again b => exact ih hround
    | done v => exact pure hround

theorem loop {step : σ → Reader (Round σ β)} {I : σ → Prop} {start : σ}
    (hstep : ∀ a, I a → (step a).Yields (Round.Holds I Q))
    (hstart : I start) : (loop step start).Yields Q :=
  fun s => rounds hstep _ hstart s

theorem manyWhile {more : Look} {p : Reader α} (hp : p.Yields P) :
    (manyWhile more p).Yields fun as => ∀ a ∈ as, P a := by
  refine loop (I := fun done => ∀ a ∈ done, P a) (fun done hdone => bind' fun b => ?_) (by simp)
  refine ite (fun _ => hp.bind fun a ha => pure ?_) fun _ => pure ?_
  · simpa [Round.Holds] using ⟨ha, hdone⟩
  · simpa [Round.Holds] using hdone

end Yields

/-- From `ts`, wherever it stands, `p` reads `a` and leaves `rest`. -/
def Reads (p : Reader α) (ts : List Tree) (a : α) (rest : List Tree) : Prop :=
  ∀ close left, p ⟨ts, close, left⟩ = .ok a ⟨rest, close, left⟩

namespace Reads

variable {ts us vs : List Tree} {a : α} {b : β}

theorem pure : Reads (pure a : Reader α) ts a ts := fun _ _ => rfl

theorem bind {p : Reader α} {f : α → Reader β} (hp : Reads p ts a us) (hf : Reads (f a) us b vs) :
    Reads (p >>= f) ts b vs := by
  intro close left
  rw [bind_of_ok (hp close left), hf close left]

theorem look {q : Look} {c : Bool} {f : Bool → Reader β} (hq : q ts = c)
    (hf : Reads (f c) ts b vs) : Reads (look q >>= f) ts b vs := by
  intro close left
  rw [look_bind, hq, hf close left]

theorem again {step : σ → Reader (Round σ β)} {x y : σ} (hx : Reads (step x) ts (.again y) us)
    {fuel : Nat} (hy : Reads (rounds step fuel y) us b vs) :
    Reads (rounds step (fuel + 1) x) ts b vs :=
  .bind hx hy

theorem done {step : σ → Reader (Round σ β)} {x : σ} (hx : Reads (step x) ts (.done b) us)
    (fuel : Nat) : Reads (rounds step (fuel + 1) x) ts b us :=
  .bind hx .pure

theorem one {step : σ → Reader (Round σ β)} {x : σ} (hx : Reads (step x) ts (.done b) us) :
    Reads (loop step x) ts b us :=
  fun close left => done hx _ close left

end Reads

theorem run_eq_ok {p : Reader α} {enclosing : Delim} {ts : List Tree} {close : Span} {a : α} :
    run p enclosing ts close = .ok a ↔ ∃ t, p ⟨ts, close, none⟩ = .ok a t ∧
      t.leftover = none ∧ Trees.leftIn enclosing t.rest = none := by
  unfold run
  cases p ⟨ts, close, none⟩ with
  | fail e => simp
  | ok b t =>
    have hsame : (∃ u, Reply.ok b t = .ok a u ∧ u.leftover = none ∧
        Trees.leftIn enclosing u.rest = none) ↔
        b = a ∧ t.leftover = none ∧ Trees.leftIn enclosing t.rest = none := by
      simp only [Reply.ok.injEq, and_assoc, exists_and_left, exists_eq_left']
    rw [hsame]
    cases ht : t.leftover <;> cases hin : Trees.leftIn enclosing t.rest <;> simp [ht, hin]

theorem run_ok {p : Reader α} {enclosing : Delim} {ts : List Tree} {close : Span} {a : α}
    (h : run p enclosing ts close = .ok a) : ∃ t, p ⟨ts, close, none⟩ = .ok a t := by
  obtain ⟨t, ht, -⟩ := run_eq_ok.mp h
  exact ⟨t, ht⟩

theorem run_of_reads {p : Reader α} {ts : List Tree} {a : α} (h : Reads p ts a [])
    (enclosing : Delim) (close : Span) : run p enclosing ts close = .ok a :=
  run_eq_ok.mpr ⟨_, h close none, rfl, rfl⟩

def collect (more : Look) (p : Reader α) (done : List α) : Reader (Round (List α) (List α)) := do
  if ← look more then
    let a ← p
    return .again (a :: done)
  else return .done done.reverse

/-- Values that `p` reads one after the other from what `tokens` writes for them. -/
theorem manyWhile_reads {more : Look} {p : Reader α} {I : α → Prop} (tokens : List α → List Tree)
    (hnil : more (tokens []) = false)
    (hcons : ∀ a as, I a → more (tokens (a :: as)) = true ∧
      Reads p (tokens (a :: as)) a (tokens as))
    (as : List α) (has : ∀ a ∈ as, I a) (hweight : as.length ≤ Trees.weight (tokens as)) :
    Reads (manyWhile more p) (tokens as) as (tokens []) := by
  have hrounds (done : List α) (fuel : Nat) (hfuel : as.length < fuel) :
      Reads (rounds (collect more p) fuel done) (tokens as) (done.reverse ++ as) (tokens []) := by
    clear hweight
    obtain ⟨fuel, rfl⟩ := Nat.exists_eq_add_of_lt hfuel
    clear hfuel
    -- each value takes a token at least, so the rounds do not run out before the values
    induction as generalizing done with
    | nil =>
      have hlast : Reads (collect more p done) (tokens []) (.done done.reverse) (tokens []) :=
        .look hnil .pure
      rw [List.append_nil]
      exact .done hlast _
    | cons a as ih =>
      obtain ⟨hmore, hp⟩ := hcons a as (has a (by simp))
      have hround : Reads (collect more p done) (tokens (a :: as)) (.again (a :: done))
          (tokens as) := .look hmore (.bind hp .pure)
      have hrest := ih (fun b hb => has b (List.mem_cons_of_mem _ hb)) (a :: done)
      rw [List.reverse_cons, List.append_assoc, List.singleton_append] at hrest
      rw [List.length_cons, Nat.add_right_comm as.length 1 fuel]
      exact .again hround hrest
  intro close left
  exact hrounds [] _ (Nat.lt_add_right 1 (Nat.lt_succ_of_le hweight)) close left

end Reader

/-- A name that may be a segment of a path, and is read back as one. -/
def Ident.IsSegment (i : Ident) : Prop :=
  i.name ∈ ["super", "self", "crate", "try", "Self"] ∨ isKeyword i.name = false

def Ident.leadsPath (i : Ident) : Bool := ["super", "self", "crate", "try"].contains i.name

/-- A name that arguments may follow. -/
def Ident.TakesArgs (i : Ident) : Prop := i.name = "Self" ∨ isKeyword i.name = false

namespace Ident

variable {i : Ident}

theorem isSegment_iff : i.IsSegment ↔ i.leadsPath = true ∨ i.TakesArgs := by
  simp only [IsSegment, leadsPath, TakesArgs, List.contains_eq_mem, List.mem_cons,
    List.not_mem_nil, decide_eq_true_eq]
  grind

theorem TakesArgs.not_leadsPath (hi : i.TakesArgs) : i.leadsPath = false := by
  have hkeyword : ∀ w ∈ ["super", "self", "crate", "try"], isKeyword w = true ∧ w ≠ "Self" := by
    decide
  rw [leadsPath, List.contains_eq_mem, decide_eq_false_iff_not]
  intro hmem
  obtain ⟨hkey, hself⟩ := hkeyword _ hmem
  exact hi.elim hself fun h => by simp [h] at hkey

end Ident

/-- Every segment without arguments is a name that can be read. -/
def Path.Spelled (p : Path) : Prop :=
  p.segments ≠ [] ∧ ∀ i, .plain i ∈ p.segments → i.IsSegment

namespace Reader

variable (g : Rules)

theorem anyWord_of_word {ts : List Tree} {w : String} {i : Ident} {rest : List Tree}
    (hi : word? ts = some (i, rest)) (h : Look.word w ts = true) : i.name = w := by
  simpa [Look.word, hi] using h

theorem angledArgs_yields (n : Ident) :
    (angledArgs g n).Yields fun s => s.name = n ∧ ∀ i, s ≠ .plain i := by
  refine .bind' fun _ => .ite (fun _ => .bind' fun _ => ?_) fun _ => ?_
  all_goals exact .bind' fun _ => .bind' fun _ => .bind' fun _ => .pure ⟨rfl, by simp⟩

def segmentNamed (expression : Bool) (i : Ident) : Reader Segment := do
  if ← look (startsAngled expression) then angledArgs g i else return .plain i

theorem segment_apply (expression : Bool) (s : Stream) : segment g expression s =
    if isPathWord s.rest then (anyWord >>= fun i => pure (.plain i)) s
    else if Look.word "Self" s.rest then (anyWord >>= segmentNamed g expression) s
    else (name >>= segmentNamed g expression) s := by
  unfold segment
  rw [look_bind]
  split
  next => rfl
  next =>
    rw [look_bind]
    split <;> rfl

theorem segmentNamed_yields (expression : Bool) (n : Ident) :
    (segmentNamed g expression n).Yields fun s => s.name = n := by
  refine .bind' fun _ => .ite (fun _ s seg t h => ?_) fun _ => .pure rfl
  exact (angledArgs_yields g n s seg t h).1

/-- What a segment is read from: a word, alone or before what goes on as its arguments. -/
theorem segment_ok {expression : Bool} {s t : Stream} {seg : Segment}
    (h : segment g expression s = .ok seg t) : ∃ n rest, word? s.rest = some (n, rest) ∧
      (seg = .plain n ∧ n.leadsPath = true ∨
        ∃ u, n.TakesArgs ∧ segmentNamed g expression n u = .ok seg t) := by
  rw [segment_apply] at h
  split at h
  next hpath =>
    obtain ⟨n, u, hn, h⟩ := bind_eq_ok.mp h
    obtain ⟨rest, hword, -⟩ := anyWord_ok hn
    refine ⟨n, rest, hword, .inl ⟨(pure_eq_ok.mp h).1.symm, ?_⟩⟩
    simp only [isPathWord, Look.anyOf, List.any_cons, List.any_nil, Bool.or_false,
      Bool.or_eq_true] at hpath
    obtain hw | hw | hw | hw := hpath <;> simp [Ident.leadsPath, anyWord_of_word hword hw]
  next =>
    split at h
    next hself =>
      obtain ⟨n, u, hn, h⟩ := bind_eq_ok.mp h
      obtain ⟨rest, hword, -⟩ := anyWord_ok hn
      exact ⟨n, rest, hword, .inr ⟨u, .inl (anyWord_of_word hword hself), h⟩⟩
    next =>
      obtain ⟨n, u, hn, h⟩ := bind_eq_ok.mp h
      obtain ⟨hkey, rest, hword⟩ := name_ok hn
      exact ⟨n, rest, hword, .inr ⟨u, .inr hkey, h⟩⟩

theorem segment_word? {expression : Bool} {s t : Stream} {seg : Segment}
    (h : segment g expression s = .ok seg t) :
    seg.name.IsSegment ∧ ∃ rest, word? s.rest = some (seg.name, rest) := by
  obtain ⟨n, rest, hword, ⟨rfl, hn⟩ | ⟨u, hn, h⟩⟩ := segment_ok g h
  · exact ⟨Ident.isSegment_iff.mpr (.inl hn), rest, hword⟩
  · rw [segmentNamed_yields g expression n u seg t h]
    exact ⟨Ident.isSegment_iff.mpr (.inr hn), rest, hword⟩

theorem path_yields (expression : Bool) : (path g expression).Yields Path.Spelled := by
  have hsegment : (segment g expression).Yields fun s => s.name.IsSegment :=
    fun s seg t h => (segment_word? g h).1
  refine .bind' fun leading => hsegment.bind fun first hfirst => ?_
  refine (Yields.manyWhile (.bind' fun _ => hsegment)).bind fun more hmore => ?_
  refine .pure ⟨by simp, fun i hi => ?_⟩
  obtain rfl | hi := List.mem_cons.mp hi
  · exact hfirst
  · exact hmore _ hi

section Words

variable {i : Ident} {expression : Bool} {ts rest : List Tree} {seg : Segment}

theorem isPathWord_word : isPathWord (i.tree :: ts) = i.leadsPath := by
  have hword (w : String) : Look.word w (i.tree :: ts) = (i.name == w) := rfl
  simp only [isPathWord, Look.anyOf, List.any_cons, List.any_nil, hword, Ident.leadsPath,
    List.contains_eq_any_beq]

theorem segment_leads (hi : i.leadsPath = true) :
    Reads (segment g expression) (i.tree :: ts) (.plain i) ts :=
  .look (isPathWord_word.trans hi) (.bind (p := anyWord) (fun _ _ => rfl) .pure)

theorem segment_named (hi : i.TakesArgs) (h : Reads (segmentNamed g expression i) ts seg rest) :
    Reads (segment g expression) (i.tree :: ts) seg rest := by
  have hself : Look.word "Self" (i.tree :: ts) = (i.name == "Self") := rfl
  intro close left
  rw [segment_apply, isPathWord_word, hi.not_leadsPath, if_neg Bool.false_ne_true, hself]
  by_cases hname : i.name = "Self"
  · rw [hname]
    exact Reads.bind (p := anyWord) (fun _ _ => rfl) h close left
  · have hkey := hi.resolve_left hname
    have hread : Reads Reader.name (i.tree :: ts) i ts := by
      intro close left
      change (if isKeyword i.name then Reply.fail _ else Reply.ok i _) = _
      rw [hkey]
      rfl
    rw [beq_false_of_ne hname]
    exact Reads.bind hread h close left

theorem segment_word (hi : i.IsSegment) (h : startsAngled false rest = false) :
    Reads (segment g false) (i.tree :: rest) (.plain i) rest := by
  obtain hi | hi := Ident.isSegment_iff.mp hi
  · exact segment_leads g hi
  · exact segment_named g hi (.look h .pure)

end Words

theorem weight_tokensAfter (more : List Segment) :
    more.length ≤ Trees.weight (Segments.tokensAfter more) := by
  induction more with
  | nil => simp
  | cons s more ih =>
    rw [Segments.tokensAfter, Trees.weight_append, List.length_cons]
    have : 1 ≤ Trees.weight (colons .made ++ s.tokens) := by
      rw [Trees.weight_append]
      exact Nat.le_add_right_of_le (by decide)
    omega

end Reader

end Delegation
