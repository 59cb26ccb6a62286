import Delegation.Proofs.Reading

namespace Delegation

def Argument.isLifetime : Argument → Bool
  | .other [.punct '\'' true _, .ident _ _] => true
  | _ => false

def Segments.firstName? (ss : List Segment) : Option Ident := ss.head?.map Segment.name

/-- Lifetimes come first, the order in which arguments are kept. -/
def LifetimesFirst (args : List Argument) : Prop :=
  args.filter Argument.isLifetime ++ args.filter (!·.isLifetime) = args

mutual

/-- A path that is read back as it was written. -/
inductive Path.Written : Path → Prop
  | of {leading first more} (hfirst : Segment.Written first)
      (hmore : ∀ s ∈ more, Segment.Written s) : Path.Written ⟨leading, first :: more⟩

inductive Segment.Written : Segment → Prop
  | plain {name} (hname : name.IsSegment) : Segment.Written (.plain name)
  | angled {name turbofish opening args trailing closing} (hname : name.TakesArgs)
      (hargs : ∀ a ∈ args, Argument.Written a) (hfirst : LifetimesFirst args)
      (htrailing : trailing = true → args ≠ []) :
      Segment.Written (.angled name turbofish opening args trailing closing)

inductive Argument.Written : Argument → Prop
  | type {t} (ht : Ty.Written t) : Argument.Written (.type t)
  | lifetime {tick i} : Argument.Written (.other [.punct '\'' true tick, Ident.tree i])
  | literal {text span} : Argument.Written (.other [.literal text span])
  | truth {i} (hi : i.name = "true" ∨ i.name = "false") : Argument.Written (.other [Ident.tree i])
  | negative {minus text span} (htext : isNumber text = true) :
      Argument.Written (.other [mark '-' minus, .literal text span])

/-- A path as a type does not start with `try`, which may stand in other paths. -/
inductive Ty.Written : Ty → Prop
  | path {p} (hp : Path.Written p)
      (htry : p.leading = none → ∀ i ∈ Segments.firstName? p.segments, i.name ≠ "try") :
      Ty.Written (.path (.plain p))
  | qualified {opening self via closing first more} (hself : Ty.Written self)
      (hvia : ∀ p ∈ via, Path.Written p) (hfirst : Segment.Written first)
      (hmore : ∀ s ∈ more, Segment.Written s) :
      Ty.Written (.path (.qualified opening self via closing (first :: more)))
  | reference {amp lifetime mutable elem}
      (hlifetime : lifetime = [] ∨ (Argument.other lifetime).isLifetime = true)
      (helem : Ty.Written elem) : Ty.Written (.reference amp lifetime mutable elem)
  | paren {span elem} (helem : Ty.Written elem) : Ty.Written (.paren span elem)
  | group {span elem} (helem : Ty.Written elem) : Ty.Written (.group span elem)

end

theorem Path.written_iff {leading : Option Span} {ss : List Segment} :
    Path.Written ⟨leading, ss⟩ ↔ ss ≠ [] ∧ ∀ s ∈ ss, s.Written := by
  constructor
  · rintro ⟨hfirst, hmore⟩
    exact ⟨by simp, by simpa using ⟨hfirst, hmore⟩⟩
  · rintro ⟨hne, hss⟩
    cases ss with
    | nil => exact absurd rfl hne
    | cons first more => exact .of (hss first (by simp)) fun s hs => hss s (by simp [hs])

/-- What may follow a type or a path: the end, a comma, `>`, or `as`. -/
inductive Closes : List Tree → Prop
  | ended : Closes []
  | comma {span rest} : Closes (mark ',' span :: rest)
  | angle {span rest} : Closes (mark '>' span :: rest)
  | via {span rest} : Closes (.ident "as" span :: rest)

namespace Closes

variable {rest : List Tree}

theorem no_plus (h : Closes rest) : Look.op "+" rest = false := by cases h <;> rfl

theorem no_colons (h : Closes rest) : Look.op "::" rest = false := by cases h <;> rfl

theorem no_args (h : Closes rest) : Reader.startsAngled false rest = false := by cases h <;> rfl

theorem no_invocation (h : Closes rest) : Reader.startsInvocation rest = false := by
  cases h <;> rfl

theorem not_fixed (h : Closes rest) : Look.op "=" rest = false ∧ Look.op ":" rest = false := by
  cases h <;> exact ⟨rfl, rfl⟩

end Closes

def Tree.BeginsType : Tree → Prop
  | .ident name span => Ident.IsSegment ⟨name, span⟩
  | .punct c _ _ => c = '<' ∨ c = ':' ∨ c = '&'
  | .literal .. => False
  | .group delim .. => delim = .paren

def BeginsType (ts : List Tree) : Prop :=
  ∃ first more, Trees.shown ts = first :: more ∧ first.BeginsType

theorem isKeyword_of_isSegment {i : Ident} (hi : i.IsSegment) {w : String}
    (hw : isKeyword w = true) (hsegment : w ∉ ["super", "self", "crate", "try", "Self"]) :
    i.name ≠ w := by
  rintro rfl
  exact hi.elim hsegment fun h => by simp [h] at hw

namespace BeginsType

variable {ts : List Tree}

theorem no_lifetime (h : BeginsType ts) : Look.lifetime ts = false := by
  obtain ⟨first, more, hshown, hfirst⟩ := h
  rw [Look.lifetime, lifetime?, hshown]
  cases first with
  | punct c joint span => rcases hfirst with rfl | rfl | rfl <;> rfl
  | ident | literal | group => rfl

theorem no_literal (h : BeginsType ts) : Look.literal ts = false := by
  obtain ⟨first, more, hshown, hfirst⟩ := h
  rw [Look.literal, literalHere?, literal?, word?, operator?, punct?, hshown]
  cases first with
  | ident name span =>
    have htrue := isKeyword_of_isSegment hfirst (w := "true") (by decide) (by decide)
    have hfalse := isKeyword_of_isSegment hfirst (w := "false") (by decide) (by decide)
    simp only [if_neg (not_or.mpr ⟨htrue, hfalse⟩)]
    rfl
  | punct c joint span => rcases hfirst with rfl | rfl | rfl <;> rfl
  | literal => cases hfirst
  | group => rfl

theorem no_op (h : BeginsType ts) {text : String} {c : Char} {cs : List Char}
    (htext : text.toList = c :: cs) (hc : c ∉ ['<', ':', '&']) : Look.op text ts = false := by
  obtain ⟨first, more, hshown, hfirst⟩ := h
  have hpunct : ∀ d joint span rest, punct? ts = some (d, joint, span, rest) → d ≠ c := by
    intro d joint span rest hd
    rw [punct?, hshown] at hd
    cases first with
    | punct e joint' span' =>
      rcases hfirst with rfl | rfl | rfl
      all_goals
        cases hd
        rintro rfl
        simp at hc
    | ident | literal | group => cases hd
  rw [Look.op, htext]
  cases cs with
  | nil =>
    rw [operator?]
    split
    next hd => simp [hpunct _ _ _ _ hd]
    next => rfl
  | cons c' cs =>
    rw [operator?]
    · split
      next hd => simp [hpunct _ _ _ _ hd]
      next => rfl
    · simp

theorem no_brace (h : BeginsType ts) : Look.group .brace ts = false := by
  obtain ⟨first, more, hshown, hfirst⟩ := h
  rw [Look.group, group?, if_neg (by decide), hshown]
  cases first with
  | group delim inner span =>
    cases hfirst
    rfl
  | ident | punct | literal => rfl

theorem no_word (h : BeginsType ts) {w : String} (hw : isKeyword w = true)
    (hsegment : w ∉ ["super", "self", "crate", "try", "Self"]) : Look.word w ts = false := by
  obtain ⟨first, more, hshown, hfirst⟩ := h
  rw [Look.word, word?, hshown]
  cases first with
  | ident name span =>
    have hne := isKeyword_of_isSegment hfirst hw hsegment
    simpa using hne
  | punct | literal | group => rfl

theorem ne_nil (h : BeginsType ts) : ts ≠ [] := by
  rintro rfl
  obtain ⟨first, more, hshown, -⟩ := h
  cases hshown

end BeginsType

theorem Segment.tokens_angled (name : Ident) (turbofish : Bool) (opening : Span)
    (args : List Argument) (trailing : Bool) (closing : Span) (rest : List Tree) :
    Segment.tokens (.angled name turbofish opening args trailing closing) ++ rest =
      name.tree :: ((if turbofish then colons .made else []) ++ mark '<' opening ::
        (Arguments.tokens args ++
          ((if trailing then [mark ',' .made] else []) ++ mark '>' closing :: rest))) := by
  simp [Segment.tokens]

theorem Segment.Written.exists_tokens {s : Segment} (h : s.Written) :
    ∃ more, s.tokens = s.name.tree :: more ∧ s.name.IsSegment := by
  cases h with
  | plain hname => exact ⟨_, rfl, hname⟩
  | angled hname =>
    rw [← List.append_nil (Segment.tokens _), Segment.tokens_angled]
    exact ⟨_, rfl, Ident.isSegment_iff.mpr (.inr hname)⟩

theorem Path.Written.begins {p : Path} (h : p.Written) (rest : List Tree) :
    BeginsType (p.tokens ++ rest) := by
  obtain ⟨hfirst, -⟩ := h
  rename_i leading first more
  obtain ⟨trees, htokens, hname⟩ := hfirst.exists_tokens
  cases leading with
  | none =>
    refine ⟨first.name.tree, trees ++ Segments.tokensAfter more ++ rest, ?_, hname⟩
    simp only [Path.tokens, Segments.tokens, htokens, List.cons_append]
    rfl
  | some span => exact ⟨_, _, rfl, .inr (.inl rfl)⟩

theorem Trees.shown_group {inner : List Tree} {first : Tree} {more : List Tree}
    (h : Trees.shown inner = first :: more) (span : Span) (rest : List Tree) :
    Trees.shown (.group .invisible inner span :: rest) = first :: (more ++ rest) := by
  rw [Trees.shown, Tree.shown, h]
  rfl

/-- Every type begins as types do, inside invisible groups too. -/
theorem Ty.Written.begins {t : Ty} (h : t.Written) (rest : List Tree) :
    BeginsType (t.tokens ++ rest) := by
  match t, h with
  | .path (.plain p), .path hp _ => exact hp.begins rest
  | .path (.qualified ..), .qualified .. => exact ⟨_, _, rfl, .inl rfl⟩
  | .reference .., .reference .. => exact ⟨_, _, rfl, .inr (.inr rfl)⟩
  | .paren .., .paren _ => exact ⟨_, _, rfl, rfl⟩
  | .group span elem, .group helem =>
    obtain ⟨first, more, hshown, hfirst⟩ := helem.begins []
    rw [List.append_nil] at hshown
    exact ⟨first, more ++ rest, Trees.shown_group hshown span rest, hfirst⟩

theorem Tree.weight_mark (c : Char) (span : Span) : (mark c span).weight = 1 := rfl

open Reader

/-- Types that weigh less than `n` are read back, whatever closes them. -/
def Rules.ReadsBelow (g : Rules) (n : Nat) : Prop :=
  ∀ t : Ty, t.Written → Trees.weight t.tokens < n → ∀ plus generic rest, Closes rest →
    Reads (g.type plus generic) (t.tokens ++ rest) t rest

section

variable {g : Rules} {n : Nat} {rest : List Tree}

theorem constant_reads {tokens : List Tree}
    (h : literalHere? (tokens ++ rest) = some (tokens, rest)) :
    Reads (constant g) (tokens ++ rest) tokens rest := by
  refine .look (c := true) (by rw [Look.literal, h]; rfl) fun close left => ?_
  change literal _ = _
  rw [literal, h]

theorem argument_type {t : Ty} {ts : List Tree} (hts : BeginsType ts)
    (hread : Reads (g.type true true) ts t rest) (hrest : Closes rest) :
    Reads (argument g) ts (false, .type t) rest := by
  refine .look (c := false) (by rw [Look.and, hts.no_lifetime]; rfl) ?_
  refine .look (c := false) (by rw [Look.or, hts.no_literal, hts.no_brace]; rfl) ?_
  refine .bind hread ?_
  cases hfixable : isFixable t with
  | false =>
    simp only [Bool.false_eq_true, if_false]
    exact .pure
  | true => exact .look hrest.not_fixed.1 (.look hrest.not_fixed.2 .pure)

theorem argument_literal {tokens : List Tree}
    (hlook : Look.and .lifetime (.not (.second (.op "+"))) (tokens ++ rest) = false)
    (hread : literalHere? (tokens ++ rest) = some (tokens, rest)) :
    Reads (argument g) (tokens ++ rest) (false, .other tokens) rest := by
  refine .look hlook (.look (c := true) ?_ (.bind (constant_reads hread) .pure))
  rw [Look.or, Look.literal, hread]
  rfl

theorem literalHere?_truth {i : Ident} (hi : i.name = "true" ∨ i.name = "false")
    (rest : List Tree) : literalHere? (i.tree :: rest) = some ([i.tree], rest) := by
  change (if i.name = "true" ∨ i.name = "false" then some ([i.tree], rest) else none) = _
  rw [if_pos hi]

theorem literalHere?_negative {text : String} (htext : isNumber text = true) (minus span : Span)
    (rest : List Tree) : literalHere? (mark '-' minus :: .literal text span :: rest) =
      some ([mark '-' minus, .literal text span], rest) := by
  change (if isNumber text then some ([mark '-' minus, .literal text span], rest) else none) = _
  rw [if_pos htext]

/-- An argument is read back, and whether it is a lifetime. -/
theorem Argument.Written.reads (hg : g.ReadsBelow n) {a : Argument} (ha : a.Written)
    (hweight : Trees.weight a.tokens < n) (hrest : Closes rest) :
    Reads (argument g) (a.tokens ++ rest) (a.isLifetime, a) rest := by
  cases ha with
  | type ht =>
    exact argument_type (ht.begins rest) (hg _ ht hweight true true rest hrest) hrest
  | lifetime =>
    refine .look (c := true) ?_ (.bind (fun _ _ => rfl) .pure)
    change (!Look.op "+" rest) = true
    rw [hrest.no_plus]
    rfl
  | literal => exact argument_literal rfl rfl
  | truth hi => exact argument_literal rfl (literalHere?_truth hi rest)
  | negative htext => exact argument_literal rfl (literalHere?_negative htext _ _ rest)

def closing (trailing : Bool) (span : Span) (rest : List Tree) : List Tree :=
  (if trailing then [mark ',' .made] else []) ++ mark '>' span :: rest

def argumentRound (g : Rules) (done : List (Bool × Argument)) :
    Reader (Round (List (Bool × Argument)) (List (Bool × Argument) × Bool)) := do
  if ← look (.op ">") then return .done (done.reverse, !done.isEmpty)
  let a ← argument g
  if ← look (.op ">") then return .done ((a :: done).reverse, false)
  let _ ← op ","
  return .again (a :: done)

theorem Argument.Written.begins {a : Argument} (ha : a.Written) (rest : List Tree) :
    Look.op ">" (a.tokens ++ rest) = false := by
  cases ha with
  | type ht => exact (ht.begins rest).no_op rfl (by decide)
  | lifetime | literal | truth | negative => rfl

theorem argumentRound_comma (hg : g.ReadsBelow n) {a : Argument} (ha : a.Written)
    (hweight : Trees.weight a.tokens < n) (done : List (Bool × Argument)) (rest : List Tree) :
    Reads (argumentRound g done) (a.tokens ++ mark ',' .made :: rest)
      (.again ((a.isLifetime, a) :: done)) rest := by
  refine .look (ha.begins _) (.bind (ha.reads hg hweight .comma) (.look rfl ?_))
  exact .bind (fun _ _ => rfl) .pure

theorem argumentRound_last (hg : g.ReadsBelow n) {a : Argument} (ha : a.Written)
    (hweight : Trees.weight a.tokens < n) (done : List (Bool × Argument)) (span : Span)
    (rest : List Tree) :
    Reads (argumentRound g done) (a.tokens ++ mark '>' span :: rest)
      (.done (((a.isLifetime, a) :: done).reverse, false)) (mark '>' span :: rest) :=
  .look (ha.begins _) (.bind (ha.reads hg hweight .angle) (.look rfl .pure))

theorem arguments_rounds (hg : g.ReadsBelow n) {a : Argument} {args : List Argument}
    (hargs : ∀ b ∈ a :: args, b.Written ∧ Trees.weight b.tokens < n) (trailing : Bool) (span : Span)
    (rest : List Tree) (done : List (Bool × Argument)) (fuel : Nat)
    (hfuel : args.length + 2 ≤ fuel) :
    Reads (rounds (argumentRound g) fuel done)
      (Arguments.tokens (a :: args) ++ closing trailing span rest)
      (done.reverse ++ (a :: args).map fun b => (b.isLifetime, b), trailing)
      (mark '>' span :: rest) := by
  obtain ⟨fuel, rfl⟩ := Nat.exists_eq_add_of_le' hfuel
  clear hfuel
  obtain ⟨ha, hweight⟩ := hargs a (by simp)
  -- one round for each argument; the first stays outside, for the comma stands behind it
  induction args generalizing a done with
  | nil =>
    rw [Arguments.tokens, Arguments.tokensAfter, List.append_nil, List.map_singleton,
      ← List.reverse_cons]
    cases trailing with
    | false => exact .done (argumentRound_last hg ha hweight done span rest) _
    | true =>
      rw [closing, if_pos rfl, List.singleton_append]
      refine .again (argumentRound_comma hg ha hweight done _) (.done (.look rfl ?_) fuel)
      exact .pure
  | cons b args ih =>
    have htokens : Arguments.tokens (a :: b :: args) ++ closing trailing span rest = a.tokens ++
        mark ',' .made :: (Arguments.tokens (b :: args) ++ closing trailing span rest) := by
      simp [Arguments.tokens, Arguments.tokensAfter]
    have hmore : ∀ c ∈ b :: args, c.Written ∧ Trees.weight c.tokens < n :=
      fun c hc => hargs c (List.mem_cons_of_mem _ hc)
    obtain ⟨hb, hweightb⟩ := hmore b (by simp)
    have hread := ih hmore ((a.isLifetime, a) :: done) hb hweightb
    rw [List.reverse_cons, List.append_assoc, List.singleton_append] at hread
    rw [htokens]
    exact .again (argumentRound_comma hg ha hweight done _) hread

theorem length_le_weight (args : List Argument) (trailing : Bool) (span : Span) (rest : List Tree) :
    args.length ≤ Trees.weight (Arguments.tokens args ++ closing trailing span rest) := by
  have hafter (args : List Argument) : args.length ≤ Trees.weight (Arguments.tokensAfter args) := by
    induction args with
    | nil => simp
    | cons a args ih =>
      rw [Arguments.tokensAfter, List.length_cons, List.cons_append, Trees.weight,
        Trees.weight_append, Tree.weight_mark]
      omega
  have hclosing : 1 ≤ Trees.weight (closing trailing span rest) := by
    rw [closing, Trees.weight_append, Trees.weight, Tree.weight_mark]
    omega
  cases args with
  | nil => simp
  | cons a args =>
    have := hafter args
    simp only [Arguments.tokens, List.length_cons, Trees.weight_append]
    omega

theorem arguments_reads (hg : g.ReadsBelow n) {args : List Argument}
    (hargs : ∀ b ∈ args, b.Written ∧ Trees.weight b.tokens < n) {trailing : Bool}
    (htrailing : trailing = true → args ≠ []) (span : Span) (rest : List Tree) :
    Reads (separated (.op ">") "," (argument g))
      (Arguments.tokens args ++ closing trailing span rest)
      (args.map fun b => (b.isLifetime, b), trailing) (mark '>' span :: rest) := by
  intro close left
  change rounds (argumentRound g) (Trees.weight _ + 2) [] _ = _
  cases args with
  | nil =>
    cases trailing with
    | false => rfl
    | true => exact absurd rfl (htrailing rfl)
  | cons a args =>
    have hlength := length_le_weight (a :: args) trailing span rest
    exact arguments_rounds hg hargs trailing span rest [] _
      (Nat.add_le_add_right (Nat.le_of_succ_le hlength) 2) close left

theorem LifetimesFirst.lifetimesFirst_eq {args : List Argument} (h : LifetimesFirst args)
    (trailing : Bool) :
    lifetimesFirst (args.map fun b => (b.isLifetime, b)) trailing = (args, trailing) := by
  have hlast (hothers : args.filter (!·.isLifetime) ≠ []) :
      args.getLast?.any Argument.isLifetime = false := by
    have hmem := List.mem_filter.mp (List.getLast_mem hothers)
    rw [← h, List.getLast?_append, List.getLast?_eq_some_getLast hothers, Option.some_or,
      Option.any_some]
    exact (Bool.not_eq_true' _).mp hmem.2
  have hmoved : (!(args.filter (!·.isLifetime)).isEmpty &&
      args.getLast?.any Argument.isLifetime) = false := by
    by_cases hothers : args.filter (!·.isLifetime) = []
    · simp [hothers]
    · rw [hlast hothers, Bool.and_false]
  have hsnd : (Prod.snd ∘ fun b : Argument => (b.isLifetime, b)) = id := rfl
  simp only [lifetimesFirst, List.filter_map, List.getLast?_map, List.isEmpty_map, List.map_append,
    List.map_map, Option.any_map, hsnd, List.map_id, Function.comp_def]
  rw [h, hmoved, Bool.or_false]

theorem Argument.weight_le {a : Argument} {args : List Argument} (ha : a ∈ args) :
    Trees.weight a.tokens ≤ Trees.weight (Arguments.tokens args) := by
  have hafter (args : List Argument) (ha : a ∈ args) :
      Trees.weight a.tokens ≤ Trees.weight (Arguments.tokensAfter args) := by
    induction args with
    | nil => cases ha
    | cons b args ih =>
      rw [Arguments.tokensAfter, List.cons_append, Trees.weight, Trees.weight_append]
      obtain rfl | ha := List.mem_cons.mp ha
      · omega
      · have := ih ha
        omega
  cases args with
  | nil => cases ha
  | cons b args =>
    rw [Arguments.tokens, Trees.weight_append]
    obtain rfl | ha := List.mem_cons.mp ha
    · omega
    · have := hafter args ha
      omega

def angledList (g : Rules) (name : Ident) (turbofish : Bool) : Reader Segment := do
  let opening ← opSpan "<"
  let args ← separated (.op ">") "," (argument g)
  let closing ← opSpan ">"
  let sorted := lifetimesFirst args.1 args.2
  return .angled name turbofish opening sorted.1 sorted.2 closing

theorem angledArgs_reads (hg : g.ReadsBelow n) {name : Ident} {turbofish : Bool} {opening : Span}
    {args : List Argument} (hargs : ∀ a ∈ args, a.Written) (hfirst : LifetimesFirst args)
    {trailing : Bool} (htrailing : trailing = true → args ≠ [])
    (hweight : Trees.weight (Arguments.tokens args) < n) (span : Span) (rest : List Tree) :
    Reads (angledArgs g name) ((if turbofish then colons .made else []) ++ mark '<' opening ::
        (Arguments.tokens args ++ closing trailing span rest))
      (.angled name turbofish opening args trailing span) rest := by
  have hlight : ∀ a ∈ args, a.Written ∧ Trees.weight a.tokens < n :=
    fun a ha => ⟨hargs a ha, Nat.lt_of_le_of_lt (Argument.weight_le ha) hweight⟩
  have hread := arguments_reads hg hlight htrailing span rest
  have hlist : Reads (angledList g name turbofish)
      (mark '<' opening :: (Arguments.tokens args ++ closing trailing span rest))
      (.angled name turbofish opening args trailing span) rest := by
    refine .bind (fun _ _ => rfl) (.bind hread (.bind (fun _ _ => rfl) ?_))
    simp only [hfirst.lifetimesFirst_eq]
    exact .pure
  cases turbofish with
  | false => exact .look rfl hlist
  | true => exact .look rfl (.bind (fun _ _ => rfl) hlist)

theorem Segment.Written.reads (hg : g.ReadsBelow n) {s : Segment} (hs : s.Written)
    (hweight : Trees.weight s.tokens ≤ n) {rest : List Tree}
    (hrest : startsAngled false rest = false) :
    Reads (segment g false) (s.tokens ++ rest) s rest := by
  cases hs with
  | plain hname => exact segment_word g hname hrest
  | @angled name turbofish opening args trailing span hname hargs hfirst htrailing =>
    have hlight : Trees.weight (Arguments.tokens args) < n := by
      rw [← List.append_nil (Segment.tokens _), Segment.tokens_angled, Trees.weight,
        Trees.weight_append, Trees.weight, Trees.weight_append, Tree.weight_mark] at hweight
      omega
    rw [Segment.tokens_angled]
    have hafter : Reads (segmentNamed g false name)
        ((if turbofish then colons .made else []) ++ mark '<' opening ::
          (Arguments.tokens args ++ closing trailing span rest))
        (.angled name turbofish opening args trailing span) rest := by
      refine .look (c := true) (by cases turbofish <;> rfl) ?_
      exact angledArgs_reads hg hargs hfirst htrailing hlight span rest
    exact segment_named g hname hafter

theorem Closes.no_args_after (h : Closes rest) (more : List Segment) :
    startsAngled false (Segments.tokensAfter more ++ rest) = false := by
  cases more with
  | nil => exact h.no_args
  | cons s more => cases s <;> rfl

/-- Further segments are read back, each with the `::` before it. -/
theorem segments_reads (hg : g.ReadsBelow n) {follows : Look}
    (hfollows : ∀ (s : Segment) ts, follows (colons .made ++ s.tokens ++ ts) = true)
    (hrest : Closes rest) (hends : follows rest = false) {more : List Segment}
    (hmore : ∀ s ∈ more, s.Written ∧ Trees.weight s.tokens ≤ n) :
    Reads (manyWhile follows do let _ ← op "::"; segment g false)
      (Segments.tokensAfter more ++ rest) more rest := by
  refine manyWhile_reads (fun more => Segments.tokensAfter more ++ rest) hends ?_ more hmore ?_
  · rintro s more ⟨hs, hweight⟩
    rw [Segments.tokensAfter, List.append_assoc]
    refine ⟨hfollows s _, ?_⟩
    rw [List.append_assoc]
    exact .bind (p := op "::") (fun _ _ => rfl) (hs.reads hg hweight (hrest.no_args_after more))
  · have := weight_tokensAfter more
    rw [Trees.weight_append]
    omega

theorem Segment.weight_le {s : Segment} {more : List Segment} (hs : s ∈ more) :
    Trees.weight s.tokens ≤ Trees.weight (Segments.tokensAfter more) := by
  induction more with
  | nil => cases hs
  | cons t more ih =>
    rw [Segments.tokensAfter, Trees.weight_append, Trees.weight_append]
    obtain rfl | hs := List.mem_cons.mp hs
    · omega
    · have := ih hs
      omega

theorem no_paren_after (s : Segment) (ts : List Tree) :
    Look.and (.op "::") (.not (.third (.group .paren))) (colons .made ++ s.tokens ++ ts) =
      true := by
  cases s <;> rfl

theorem Path.Written.reads (hg : g.ReadsBelow n) {p : Path} (hp : p.Written)
    (hweight : Trees.weight p.tokens ≤ n) (hrest : Closes rest) :
    Reads (path g false) (p.tokens ++ rest) p rest := by
  obtain ⟨hfirst, hmore⟩ := hp
  rename_i leading first more
  have hsegments : Reads (do
      let first ← segment g false
      let more ← moreSegments g false
      return Path.mk leading (first :: more))
      (Segments.tokens (first :: more) ++ rest) ⟨leading, first :: more⟩ rest := by
    have hlight : Trees.weight (Segments.tokens (first :: more)) ≤ n := by
      cases leading with
      | none => exact hweight
      | some span =>
        rw [Path.tokens, Trees.weight_append] at hweight
        omega
    rw [Segments.tokens, Trees.weight_append] at hlight
    have hends : Look.and (.op "::") (.not (.third (.group .paren))) rest = false := by
      rw [Look.and, hrest.no_colons]
      rfl
    rw [Segments.tokens, List.append_assoc]
    refine .bind (hfirst.reads hg (by omega) (hrest.no_args_after more)) (.bind ?_ .pure)
    refine segments_reads hg no_paren_after hrest hends fun s hs => ⟨hmore s hs, ?_⟩
    have := Segment.weight_le hs
    omega
  cases leading with
  | none =>
    have hcolons : Look.op "::" (Segments.tokens (first :: more) ++ rest) = false := by
      cases first <;> rfl
    exact .bind (.look hcolons .pure) hsegments
  | some span =>
    rw [Path.tokens, List.append_assoc]
    exact .bind (fun _ _ => rfl) hsegments

theorem members_reads (hg : g.ReadsBelow n) {first : Segment} {more : List Segment}
    (hfirst : first.Written) (hmore : ∀ s ∈ more, s.Written)
    (hweight : Trees.weight (Segments.tokensAfter (first :: more)) ≤ n) (hrest : Closes rest) :
    Reads (members g false) (Segments.tokensAfter (first :: more) ++ rest) (first :: more)
      rest := by
  have hlight (s : Segment) (hs : s ∈ first :: more) : Trees.weight s.tokens ≤ n :=
    Nat.le_trans (Segment.weight_le hs) hweight
  rw [Segments.tokensAfter, List.append_assoc, List.append_assoc]
  refine .bind (fun _ _ => rfl) (.bind (hfirst.reads hg (hlight first (by simp))
    (hrest.no_args_after more)) (.bind ?_ .pure))
  refine segments_reads hg (fun s ts => by cases s <;> rfl) hrest hrest.no_colons fun s hs => ?_
  exact ⟨hmore s hs, hlight s (by simp [hs])⟩

/-- A type that starts as a path does is read as one. -/
theorem typeRule_path {ts : List Tree} {t : Ty} {plus generic : Bool}
    (hinvisible : Look.group .invisible ts = false) (hfor : Look.word "for" ts = false)
    (hparen : Look.group .paren ts = false) (hfunction : isFunctionWord ts = false)
    (hbuiltin : startsBuiltin ts = false)
    (hpath : Look.anyOf [.name, isTypeWord, .op "::", .op "<"] ts = true)
    (hread : Reads (pathType g [] plus) ts t rest) : Reads (typeRule g plus generic) ts t rest := by
  have hbinder : Reads (binderWhen g) ts [] ts := .look hfor .pure
  refine .look hinvisible (.bind (p := ahead) (fun _ _ => rfl) (.bind hbinder (.look rfl ?_)))
  exact .look hparen (.look hfunction (.look hbuiltin (.look hpath hread)))

theorem no_hash (hrest : Closes rest) {s : Segment} (hs : s.Written) (more : List Segment) :
    Look.second (.op "#") (s.tokens ++ (Segments.tokensAfter more ++ rest)) = false := by
  cases hs with
  | plain =>
    cases more with
    | nil => cases hrest <;> rfl
    | cons s more => cases s <;> rfl
  | @angled name turbofish =>
    rw [Segment.tokens_angled]
    cases turbofish <;> rfl

theorem pathType_reads {p : Path} {ts : List Tree} {plus : Bool} (hangle : Look.op "<" ts = false)
    (hread : Reads (path g false) ts p rest) (hrest : Closes rest) :
    Reads (pathType g [] plus) ts (.path (.plain p)) rest := by
  have hqpath : Reads (qpath g false) ts (.plain p) rest := .look hangle (.bind hread .pure)
  refine .bind hqpath (.look hrest.no_invocation ?_)
  simp only [Bool.and_false, Bool.false_eq_true, if_false]
  refine .look hrest.no_plus ?_
  simp only [Bool.and_false]
  exact .pure

theorem startsPath {i : Ident} (hi : i.IsSegment) (htry : i.name ≠ "try") (ts : List Tree) :
    Look.anyOf [.name, isTypeWord, .op "::", .op "<"] (i.tree :: ts) = true := by
  have hword (w : String) : Look.word w (i.tree :: ts) = (i.name == w) := rfl
  have hname : Look.name (i.tree :: ts) = !isKeyword i.name := rfl
  simp only [isTypeWord, Look.anyOf, List.any_cons, List.any_nil, hword, hname]
  simp only [Ident.IsSegment, List.mem_cons, List.not_mem_nil] at hi
  grind

theorem Path.Written.reads_type (hg : g.ReadsBelow n) {p : Path} (hp : p.Written)
    (htry : p.leading = none → ∀ i ∈ Segments.firstName? p.segments, i.name ≠ "try")
    (hweight : Trees.weight p.tokens ≤ n) (hrest : Closes rest) (plus generic : Bool) :
    Reads (typeRule g plus generic) (p.tokens ++ rest) (.path (.plain p)) rest := by
  have hbegins := hp.begins rest
  have hread := hp.reads hg hweight hrest
  have hfor : Look.word "for" (p.tokens ++ rest) = false :=
    hbegins.no_word (by decide) (by decide)
  have hfunction : isFunctionWord (p.tokens ++ rest) = false := by
    simp only [isFunctionWord, Look.anyOf, List.any_cons, List.any_nil, Bool.or_eq_false_iff]
    exact ⟨hbegins.no_word (by decide) (by decide), hbegins.no_word (by decide) (by decide),
      hbegins.no_word (by decide) (by decide), trivial⟩
  obtain ⟨hfirst, hmore⟩ := hp
  rename_i leading first more
  cases leading with
  | some span =>
    exact typeRule_path rfl hfor rfl hfunction rfl rfl (pathType_reads rfl hread hrest)
  | none =>
    obtain ⟨trees, hname, hsegment⟩ := hfirst.exists_tokens
    have htokens : Path.tokens ⟨none, first :: more⟩ ++ rest =
        first.name.tree :: (trees ++ (Segments.tokensAfter more ++ rest)) := by
      rw [Path.tokens, Segments.tokens, hname, List.cons_append, List.cons_append,
        List.append_assoc]
    have hbuiltin : startsBuiltin (Path.tokens ⟨none, first :: more⟩ ++ rest) = false := by
      rw [startsBuiltin, Look.and, Path.tokens, Segments.tokens, List.append_assoc,
        no_hash hrest hfirst, Bool.and_false]
    rw [htokens] at hfor hfunction hbuiltin hread ⊢
    exact typeRule_path rfl hfor rfl hfunction hbuiltin
      (startsPath hsegment (htry rfl first.name rfl) _) (pathType_reads rfl hread hrest)

theorem qpath_reads (hg : g.ReadsBelow n) {opening span : Span} {self : Ty} {via : Option Path}
    {members ts : List Tree} {more : List Segment} (hself : self.Written)
    (hvia : ∀ p ∈ via, p.Written) (hlight : Trees.weight self.tokens < n)
    (hlight' : Trees.weight (Via.tokens via) ≤ n)
    (hmembers : Reads (Reader.members g false) (members ++ rest) more rest)
    (hts : ts = mark '<' opening ::
      (self.tokens ++ (Via.tokens via ++ mark '>' span :: (members ++ rest)))) :
    Reads (qpath g false) ts (.qualified opening self via span more) rest := by
  rw [hts]
  refine .look (c := true) rfl (.bind (p := opSpan "<") (fun _ _ => rfl) ?_)
  cases via with
  | none =>
    refine .bind (hg _ hself hlight _ _ _ .angle) (.look rfl ?_)
    exact .bind (p := opSpan ">") (fun _ _ => rfl) (.bind hmembers .pure)
  | some p =>
    rw [Via.tokens, Trees.weight] at hlight'
    have hclose : Closes (mark '>' span :: (members ++ rest)) := .angle
    have hread := (hvia p rfl).reads hg (by omega) hclose
    refine .bind (hg _ hself hlight _ _ _ .via) (.look rfl ?_)
    refine .bind (p := word "as") (fun _ _ => rfl) (.bind hread ?_)
    exact .bind (p := opSpan ">") (fun _ _ => rfl) (.bind hmembers .pure)

theorem qualified_reads (hg : g.ReadsBelow n) {opening span : Span} {self : Ty} {via : Option Path}
    {first : Segment} {more : List Segment} (hself : self.Written) (hvia : ∀ p ∈ via, p.Written)
    (hfirst : first.Written) (hmore : ∀ s ∈ more, s.Written)
    (hweight : Trees.weight (QPath.tokens (.qualified opening self via span (first :: more))) ≤ n)
    (hrest : Closes rest) (plus generic : Bool) :
    Reads (typeRule g plus generic)
      (QPath.tokens (.qualified opening self via span (first :: more)) ++ rest)
      (.path (.qualified opening self via span (first :: more))) rest := by
  have htokens (us : List Tree) :
      QPath.tokens (.qualified opening self via span (first :: more)) ++ us =
        mark '<' opening :: (self.tokens ++ (Via.tokens via ++
          mark '>' span :: (Segments.tokensAfter (first :: more) ++ us))) := by
    simp [QPath.tokens]
  have hparts : Trees.weight self.tokens + Trees.weight (Via.tokens via) +
      Trees.weight (Segments.tokensAfter (first :: more)) < n := by
    rw [← List.append_nil (QPath.tokens _), htokens, Trees.weight, Trees.weight_append,
      Trees.weight_append, Trees.weight, List.append_nil] at hweight
    rw [Tree.weight_mark] at hweight
    omega
  have hmembers := members_reads hg hfirst hmore (by omega) hrest
  have hqpath := qpath_reads hg hself hvia (by omega) (by omega) hmembers (htokens rest)
  have hpath : Reads (pathType g [] plus)
      (QPath.tokens (.qualified opening self via span (first :: more)) ++ rest)
      (.path (.qualified opening self via span (first :: more))) rest := .bind hqpath .pure
  rw [htokens] at hpath ⊢
  exact typeRule_path rfl rfl rfl rfl rfl rfl hpath

theorem enclosed_reads {α : Type} {delim : Delim} {p : Reader α} {inner : List Tree} {a : α}
    (h : Reads p inner a []) (span : Span) (rest : List Tree) :
    Reads (enclosed delim p) (.group delim inner span :: rest) (a, span) rest := by
  intro close left
  have hgroup : group? delim (.group delim inner span :: rest) = some (inner, span, rest) := by
    cases delim <;> rfl
  rw [enclosed]
  simp only [hgroup, h span.closing left]
  cases left <;> rfl

theorem paren_reads (hg : g.ReadsBelow n) {elem : Ty} (helem : elem.Written)
    (hweight : Trees.weight elem.tokens < n) (hrest : Closes rest) (span : Span)
    (plus generic : Bool) :
    Reads (typeRule g plus generic) (.group .paren elem.tokens span :: rest) (.paren span elem)
      rest := by
  have hbegins := helem.begins []
  have helem := hg _ helem hweight true true [] .ended
  rw [List.append_nil] at hbegins helem
  have hcontent : Reads (parenType g) elem.tokens (.single elem) [] := by
    have hended : Look.ended elem.tokens = false := by simpa [Look.ended] using hbegins.ne_nil
    refine .look hended (.look hbegins.no_lifetime (.look (hbegins.no_op rfl (by decide)) ?_))
    exact .bind helem (.look rfl .pure)
  have hparen : Reads (parenthesized g plus) (.group .paren elem.tokens span :: rest)
      (.paren span elem) rest := by
    refine .bind (enclosed_reads hcontent span rest) (.look hrest.no_plus ?_)
    simp only [Bool.and_false]
    cases soleTrait? elem <;> exact .pure
  have hbinder : Reads (binderWhen g) (.group .paren elem.tokens span :: rest) []
      (.group .paren elem.tokens span :: rest) := .look rfl .pure
  refine .look rfl (.bind (p := ahead) (fun _ _ => rfl) (.bind hbinder (.look rfl ?_)))
  exact .look rfl hparen

theorem group_reads (hg : g.ReadsBelow n) {elem : Ty} (helem : elem.Written)
    (hweight : Trees.weight elem.tokens < n) (hrest : Closes rest) (span : Span)
    (plus generic : Bool) :
    Reads (typeRule g plus generic) (.group .invisible elem.tokens span :: rest) (.group span elem)
      rest := by
  have helem := hg _ helem hweight true true [] .ended
  rw [List.append_nil] at helem
  have hcolons (p : Look) : Look.and (.op "::") p rest = false := by
    rw [Look.and, hrest.no_colons, Bool.false_and]
  have hangle : Look.op "<" rest = false := by cases hrest <;> rfl
  refine .look rfl (.bind (enclosed_reads helem span rest) (.look (hcolons _) ?_))
  refine .look hangle (.look (hcolons _) ?_)
  simp only [Bool.and_false, Bool.or_false]
  exact .pure

theorem lifetimeWhen_reads {lifetime ts : List Tree}
    (hlifetime : lifetime = [] ∨ (Argument.other lifetime).isLifetime = true)
    (hts : Look.lifetime ts = false) : Reads lifetimeWhen (lifetime ++ ts) lifetime ts := by
  obtain rfl | hlifetime := hlifetime
  · exact .look hts .pure
  · unfold Argument.isLifetime at hlifetime
    split at hlifetime
    next heq =>
      cases heq
      exact .look rfl fun _ _ => rfl
    next => cases hlifetime

theorem referenceType_reads (hg : g.ReadsBelow n) {amp : Span} {lifetime : List Tree}
    {mutable : Option Span} {elem : Ty}
    (hlifetime : lifetime = [] ∨ (Argument.other lifetime).isLifetime = true)
    (helem : elem.Written) (hweight : Trees.weight elem.tokens < n) (hrest : Closes rest) :
    Reads (referenceType g) (mark '&' amp ::
        (lifetime ++ ((mutable.map (Tree.ident "mut")).toList ++ (elem.tokens ++ rest))))
      (.reference amp lifetime mutable elem) rest := by
  have hbegins := helem.begins rest
  have hafter : Look.lifetime ((mutable.map (Tree.ident "mut")).toList ++ (elem.tokens ++ rest)) =
      false := by
    cases mutable with
    | none => exact hbegins.no_lifetime
    | some span => rfl
  have hbefore := lifetimeWhen_reads hlifetime hafter
  have hread := hg elem helem hweight false true rest hrest
  refine .bind (p := opSpan "&") (fun _ _ => rfl) (.bind hbefore ?_)
  cases mutable with
  | none =>
    refine .look (hbegins.no_word (by decide) (by decide)) (.bind .pure ?_)
    exact .bind hread .pure
  | some span =>
    refine .look rfl (.bind (p := wordSpan "mut") (fun _ _ => rfl) (.bind .pure ?_))
    exact .bind hread .pure

theorem reference_reads (hg : g.ReadsBelow n) {amp : Span} {lifetime : List Tree}
    {mutable : Option Span} {elem : Ty}
    (hlifetime : lifetime = [] ∨ (Argument.other lifetime).isLifetime = true)
    (helem : elem.Written) (hweight : Trees.weight elem.tokens < n) (hrest : Closes rest)
    (plus generic : Bool) :
    Reads (typeRule g plus generic) (Ty.tokens (.reference amp lifetime mutable elem) ++ rest)
      (.reference amp lifetime mutable elem) rest := by
  have htokens : Ty.tokens (.reference amp lifetime mutable elem) ++ rest = mark '&' amp ::
      (lifetime ++ ((mutable.map (Tree.ident "mut")).toList ++ (elem.tokens ++ rest))) := by
    simp [Ty.tokens]
  have hbinder (ts : List Tree) : Reads (binderWhen g) (mark '&' amp :: ts) []
      (mark '&' amp :: ts) := .look rfl .pure
  rw [htokens]
  refine .look rfl (.bind (p := ahead) (fun _ _ => rfl) (.bind (hbinder _) (.look rfl ?_)))
  refine .look rfl (.look rfl (.look rfl (.look rfl (.look rfl (.look rfl (.look rfl ?_))))))
  exact .look rfl (referenceType_reads hg hlifetime helem hweight hrest)

/-- One more rule around types that are read back reads back what is one token heavier. -/
theorem typeRule_reads (hg : g.ReadsBelow n) {t : Ty} (ht : t.Written)
    (hweight : Trees.weight t.tokens ≤ n) (hrest : Closes rest) (plus generic : Bool) :
    Reads (typeRule g plus generic) (t.tokens ++ rest) t rest := by
  cases ht with
  | path hp htry => exact hp.reads_type hg htry hweight hrest plus generic
  | qualified hself hvia hfirst hmore =>
    exact qualified_reads hg hself hvia hfirst hmore hweight hrest plus generic
  | reference hlifetime helem =>
    refine reference_reads hg hlifetime helem ?_ hrest plus generic
    rw [Ty.tokens, Trees.weight_append, List.cons_append, Trees.weight, Tree.weight_mark] at hweight
    omega
  | paren helem =>
    refine paren_reads hg helem ?_ hrest _ plus generic
    rwa [Ty.tokens, Trees.weight, Trees.weight, Tree.weight] at hweight
  | group helem =>
    refine group_reads hg helem ?_ hrest _ plus generic
    rwa [Ty.tokens, Trees.weight, Trees.weight, Tree.weight] at hweight

end

/-- The grammar reads back what is written, types nested as deep as its rules. -/
theorem rules_readsBelow (depth : Nat) : (rules depth).ReadsBelow depth := by
  induction depth with
  | zero => exact fun t _ hweight => absurd hweight (Nat.not_lt_zero _)
  | succ depth ih =>
    intro t ht hweight plus generic rest hrest
    -- one level of rules more, and types one token heavier
    exact typeRule_reads ih ht (Nat.le_of_lt_succ hweight) hrest plus generic

end Delegation
