/-
  In which order requests take the connection.

  ARRIVAL.  A direct call is in line for the connection as soon as it is made.  What a trigger asks
  for is first in line for the worker of its bridge, and comes into the other line when the worker
  takes it (`reachedBy`).

  ORDER.  The line for the connection is kept: a request that takes it finds every request through
  that reached the line before it did (`Leg.Fair`).  The invariant compares the tasks in line by
  pairs: of who is behind and who is in front, the one behind reached the line later
  (`Core.Arrived`).

  TWO LINES.  So nobody overtakes a direct call.  A call overtakes what a trigger asked for before
  it if the worker is not there yet; a disconnect of a trigger can therefore tear a connection down
  that was asked for after it (`not_inArrivalOrder`).
-/
import Mathlib.Data.List.Induction
import TunnelSession.Proofs.Accounts
import TunnelSession.Proofs.Exclusion

namespace TunnelSession

/-- The request has called the backend, or came to something else than `cancelled`. -/
def Progress.HasBegun : Progress Lifecycle Settled → Prop
  | .waiting b => b.IsActive
  | .done (.error .cancelled) => False
  | .done _ => True

instance : DecidablePred Progress.HasBegun
  | .waiting b => inferInstanceAs (Decidable b.IsActive)
  | .done (.error .cancelled) => .isFalse id
  | .done (.error (.backend _)) | .done (.error (.config _)) | .done (.ok _) => .isTrue trivial

/-- The stretch of work takes the connection: the request was in line before it, or not even there,
and has begun after it. -/
def Leg.Begins (l : Leg) : Prop := (∀ a ∈ l.start, ¬ a.IsActive) ∧ l.result.HasBegun

instance (l : Leg) : Decidable l.Begins :=
  inferInstanceAs (Decidable ((∀ a ∈ l.start, ¬ a.IsActive) ∧ l.result.HasBegun))

/-- The source whose request takes the connection. -/
def Act.begins? : Act → Option Source
  | .leg l => if l.Begins then some l.source else none
  | _ => none

/-- Does a request of the source reach the line for the connection?  A call does when it is made,
the request of a trigger when the worker of its bridge takes it. -/
def Act.reaches : Source → Act → Bool
  | .call t, act => act.isRequest (.call t)
  | .bridge b, .leg l => l.source == .bridge b && l.start.isNone
  | .bridge _, _ => false

/-- How many requests of a source reached the line. -/
def reachedBy (s : Source) (τ : List Act) : Nat := τ.countP (Act.reaches s)

/-- No request takes the connection after one that was made later: if the `j`th act takes it for a
request that was not among the first `i` acts, then so does every later one. -/
def InArrivalOrder (τ : List Act) : Prop :=
  ∀ i j k s s', j < k → (τ[j]?).bind Act.begins? = some s → (τ[k]?).bind Act.begins? = some s' →
    madeBy s (τ.take i) ≤ settledBy s (τ.take j) → madeBy s' (τ.take i) ≤ settledBy s' (τ.take k)

/-- The source that a task of that number makes its requests for. -/
def Task.source? (t : TaskId) : Task → Option Source
  | .command _ => some (.call t)
  | .worker b _ => some (.bridge b)
  | _ => none

/-- If it takes the connection, every request that reached the line before its own is through. -/
def Leg.Fair (l : Leg) (τ : List Act) : Prop :=
  l.Begins → ∀ past, past <+: τ → reachedBy l.source past ≤ settledBy l.source τ →
    ∀ s, reachedBy s past ≤ settledBy s τ

section Counts

variable {s s' : Source} {τ σ : List Act}

@[simp] theorem reachedBy_append (s : Source) (τ σ : List Act) :
    reachedBy s (τ ++ σ) = reachedBy s τ + reachedBy s σ := List.countP_append

theorem reachedBy_le (h : τ <+: σ) : reachedBy s τ ≤ reachedBy s σ := h.sublist.countP_le

theorem reachedBy_call (t : TaskId) (τ : List Act) : reachedBy (.call t) τ = madeBy (.call t) τ :=
  rfl

/-- What a worker has taken came to its result or is under way, by induction on the acts: a leg
begins or goes on, and it comes to a result or not. -/
theorem reachedBy_bridge (b : BridgeId)
    (h : ∀ pre l post, τ = pre ++ .leg l :: post → l.Fits pre) :
    reachedBy (.bridge b) τ =
      settledBy (.bridge b) τ + (standingOf (.bridge b) τ).toList.length := by
  induction τ using List.reverseRecOn with
  | nil => rfl
  | append_singleton τ act ih =>
    have ih := ih fun pre l post he => h pre l (post ++ [act]) (by rw [he]; simp)
    rw [reachedBy_append, settledBy_append, standingOf_append, List.foldl_cons, List.foldl_nil]
    cases act with
    | ask | leave => exact ih
    | leg l =>
      have hstart := (h τ l [] rfl).start
      rw [Act.standing_leg]
      by_cases hs : l.source = .bridge b
      · rw [hs] at hstart
        rw [if_pos hs]
        rw [← hstart] at ih
        -- it begins or goes on, and comes to a result or not
        cases hl : l.start <;> cases hr : l.result <;>
          simp [reachedBy, Act.reaches, settledBy, Act.settles, hs, hl, hr, Progress.stage?]
            at ih ⊢ <;>
          omega
      · rw [if_neg hs]
        simp [reachedBy, Act.reaches, settledBy, Act.settles, hs] at ih ⊢
        omega

/-- A request reaches the line after it was made: a call at once, and what a trigger asked for when
the worker takes it. -/
theorem reachedBy_le_madeBy (s : Source)
    (h : ∀ pre l post, τ = pre ++ .leg l :: post → l.Fits pre) : reachedBy s τ ≤ madeBy s τ := by
  cases s with
  | call t => exact Nat.le_refl _
  | bridge b =>
    -- the induction is on the run, from its end: only a worker that begins adds to the count
    induction τ using List.reverseRecOn with
    | nil => exact Nat.le_refl _
    | append_singleton τ act ih =>
      have hτ : ∀ pre l post, τ = pre ++ .leg l :: post → l.Fits pre := fun pre l post he =>
        h pre l (post ++ [act]) (by rw [he]; simp)
      have ih := ih hτ
      rw [reachedBy_append, madeBy_append]
      cases act with
      | ask | leave => exact Nat.le_trans ih (Nat.le_add_right _ _)
      | leg l =>
        have hf := h τ l [] rfl
        by_cases hl : l.source = .bridge b ∧ l.start = none
        · -- the worker has nothing under way, so what it takes is not through
          have hreached := reachedBy_bridge b hτ
          have hstart := hf.start
          have hmade := hf.made
          rw [hl.1] at hstart hmade
          rw [hl.2] at hstart
          rw [← hstart, Option.toList_none, List.length_nil] at hreached
          have hone : reachedBy (.bridge b) [.leg l] = 1 := by
            simp [reachedBy, Act.reaches, hl.1, hl.2]
          omega
        · have hzero : reachedBy (.bridge b) [.leg l] = 0 := by
            simpa [reachedBy, Act.reaches] using hl
          omega

/-- The request that `s'` has in line reached it later than the one of `s`. -/
def Before (τ : List Act) (s s' : Source) : Prop :=
  ∀ pre, pre <+: τ → reachedBy s' τ ≤ reachedBy s' pre → reachedBy s τ ≤ reachedBy s pre

/-- Nothing of either source happens. -/
theorem Before.append (h : Before τ s s') (hs : reachedBy s σ = 0) (hs' : reachedBy s' σ = 0) :
    Before (τ ++ σ) s s' := by
  intro pre hpre hle
  rw [reachedBy_append, hs'] at hle
  rw [reachedBy_append, hs]
  rcases List.prefix_or_prefix_of_prefix hpre (List.prefix_append τ σ) with hp | hp
  · exact h pre hp hle
  · exact reachedBy_le hp

/-- A request reaches the line behind one that is there. -/
theorem before_of_reached (hs : reachedBy s σ = 0) (hs' : reachedBy s' σ ≠ 0) :
    Before (τ ++ σ) s s' := by
  intro pre hpre hle
  rw [reachedBy_append] at hle
  rw [reachedBy_append, hs]
  rcases List.prefix_or_prefix_of_prefix hpre (List.prefix_append τ σ) with hp | hp
  · -- before that, the request behind was not there
    have hlt := reachedBy_le (s := s') hp
    omega
  · exact reachedBy_le hp

end Counts

namespace Core

variable {t u v : TaskId} {c c₀ c' : Core} {p : Progress Lifecycle Settled} {past acts : List Act}
  {s s' : Source} {m : Leg}

/-! ## Who is in line -/

/-- The source that a task makes its requests for. -/
def source? (c : Core) (t : TaskId) : Option Source := (c.entry t).bind (Task.source? t)

theorem source?_congr (h : c'.entry t = c.entry t) : c'.source? t = c.source? t := by
  unfold source?
  rw [h]

theorem source?_of_entry {task : Task} (h : c.entry t = some task) :
    c.source? t = task.source? t := by
  unfold source?
  rw [h]
  rfl

/-- Two tasks do not work for one source: a call is its own task, and a bridge has one worker. -/
theorem Staffed.source_injective (h : c.Staffed) (hu : c.source? u = some s)
    (hv : c.source? v = some s) : u = v := by
  obtain ⟨task, heu, hs⟩ := Option.bind_eq_some_iff.1 hu
  obtain ⟨task', hev, hs'⟩ := Option.bind_eq_some_iff.1 hv
  cases s with
  | call t =>
    have hcall : ∀ w (k : Task), k.source? w = some (.call t) → w = t := by
      intro w k hk
      cases k <;> cases hk
      rfl
    rw [hcall u task hs, hcall v task' hs']
  | bridge b =>
    -- a bridge has one worker
    have hworker : ∀ w (k : Task), c.entry w = some k → k.source? w = some (.bridge b) →
        ∃ jobs, c.crew b = some (w, jobs) := by
      intro w k hw hk
      cases k <;> cases hk
      exact h.owner w b _ hw
    obtain ⟨jobs, hb⟩ := hworker u task heu hs
    obtain ⟨jobs', hb'⟩ := hworker v task' hev hs'
    rw [hb] at hb'
    cases hb'
    rfl

/-- What a source has under way, a task of it is at: the task of a call itself, and the worker of a
bridge. -/
theorem Staffed.exists_task (h : c.Staffed) (hc : c.Sound) {x : Lifecycle}
    (hs : c.standing s = some x) : ∃ u, c.source? u = some s ∧ c.stage u = some x := by
  cases s with
  | call t =>
    obtain ⟨task, ht, hk⟩ := Option.bind_eq_some_iff.1 hs
    refine ⟨t, ?_, ?_⟩
    · rw [source?_of_entry ht]
      unfold Task.call? at hk
      split at hk <;> first | rfl | cases hk
    · rw [hc.stage_of_entry ht]
      unfold Task.call? at hk
      split at hk <;> first | exact hk | cases hk
  | bridge b =>
    obtain ⟨⟨t, jobs⟩, hb, hwork⟩ := Option.bind_eq_some_iff.1 hs
    obtain ⟨task, ht, hk⟩ := Option.bind_eq_some_iff.1 hwork
    cases task with
    | worker b' current =>
      obtain ⟨jobs', hb'⟩ := h.owner t b' current ht
      obtain rfl := h.distinct b b' t jobs jobs' hb hb'
      refine ⟨t, source?_of_entry ht, ?_⟩
      rw [hc.stage_of_entry ht]
      -- a worker at no job has nothing under way
      cases current with
      | none => cases hk
      | some current => exact hk
    | command | poller | receiver | ended => cases hk

/-! ## What a stretch of work does to the line -/

/-- Who moves or goes leaves the others in their order. -/
theorem Travel.queue_sublist (h : Travel t c p c') (ho : c.Orderly) :
    c'.transition.queue.Sublist c.transition.queue := by
  induction h with
  | stay => exact .refl _
  | settle h =>
    obtain ⟨hq, -⟩ := h.frame (ho.active _)
    rw [hq, Lock.queue_withdraw ho.nodup]
    exact List.filter_sublist
  | move h _ ih =>
    obtain ⟨-, hq, -⟩ := h.frame (ho.active _)
    rw [← hq]
    exact ih (ho.move h)

/-- Who is behind whom after a stretch of work was so before, or has just come. -/
theorem Stretch.behind {start : Start} (h : Stretch t c start p c') (ho : c.Orderly)
    (hs : [u, v].Sublist c'.transition.queue) :
    [u, v].Sublist c.transition.queue ∨
      (start.stage? = none ∧ u ∈ c.transition.queue ∧ v = t) := by
  cases h with
  | refuse => exact .inl hs
  | connect hst _ ht =>
    have hin := (behind_enter ho u).1 (hs.trans (ht.queue_sublist (ho.enter hst id)))
    exact hin.imp id fun h => ⟨rfl, h⟩
  | disconnect hst ht =>
    have hin := (behind_enter ho u).1 (hs.trans (ht.queue_sublist (ho.enter hst id)))
    exact hin.imp id fun h => ⟨rfl, h⟩
  | resume _ ht => exact .inl (hs.trans (ht.queue_sublist ho))

/-- Who takes the connection holds it: the moves that call the backend need the lock. -/
theorem Travel.holder_of_begins {l : Lifecycle} (h : Travel t c p c') (hs : c.stage t = some l)
    (hl : ¬ l.IsActive) (hb : p.HasBegun) : c.transition.holder = some t := by
  cases h with
  | stay hk =>
    rw [hs] at hk
    cases hk
    exact absurd hb hl
  | settle h =>
    cases h with
    | drop => exact hb.elim
    | noServer _ _ hh => exact hh
    | abort hk | refuse hk | arrive _ hk | close hk | fail hk =>
      rw [hs] at hk
      cases hk
      exact absurd trivial hl
  | move h =>
    cases h with
    | dial _ _ hh => exact hh
    | hangUp _ hh => exact hh
    | connect hk | look hk =>
      rw [hs] at hk
      cases hk
      exact absurd trivial hl

/-- A request that takes the connection was the first in line, or came when nobody was there.
Anybody else in front would have the connection still. -/
theorem Stretch.queue_of_begins {start : Start} (h : Stretch t c start p c') (ho : c.Orderly)
    (hb : (c₀.leg c' s start.stage? p).Begins) :
    c.transition.queue = [] ∨
      start.stage? ≠ none ∧ ∃ rest, c.transition.queue = t :: rest ∧ t ∉ rest := by
  obtain ⟨hstart, hbegun⟩ := hb
  have hfirst : ∀ l : Lifecycle, c.stage t = none → (c.enter t l).transition.holder = some t →
      c.transition.queue = [] := by
    intro l hst hh
    cases hold : c.transition.holder with
    | none =>
      unfold Lock.queue
      rw [hold, ho.wellFormed hold]
      rfl
    | some u =>
      -- somebody else would still have it
      have hu : (c.enter t l).transition.holder = some u := by
        show (c.transition.request t).holder = some u
        unfold Lock.request
        rw [hold]
      have hut : u = t := Option.some.inj (hu.symm.trans hh)
      subst hut
      have hmem : u ∈ c.transition.queue := by simp [Lock.queue, hold]
      exact absurd hst ((ho.mem u).1 hmem)
  cases h with
  | refuse => exact hbegun.elim
  | connect hst _ ht =>
    have hh := ht.holder_of_begins (put_stage_self _ _ _) id hbegun
    exact .inl (hfirst _ hst hh)
  | disconnect hst ht =>
    have hh := ht.holder_of_begins (put_stage_self _ _ _) id hbegun
    exact .inl (hfirst _ hst hh)
  | resume hst ht =>
    exact .inr ⟨nofun, ho.queue_cons (ht.holder_of_begins hst (hstart _ rfl) hbegun)⟩

/-! ## The order of arrival -/

/-- Who is behind in line reached it later, and so it was for everybody who took the connection. -/
structure Arrived (past : List Act) (c : Core) : Prop where
  order : ∀ u v s s', [u, v].Sublist c.transition.queue → c.source? u = some s →
    c.source? v = some s' → Before past s s'
  fair : ∀ pre l post, past = pre ++ .leg l :: post → l.Fair pre

/-- No act of these brings a request to the line. -/
def Unreached (acts : List Act) : Prop := (∀ l, .leg l ∉ acts) ∧ ∀ s, reachedBy s acts = 0

/-- The legs of a trace that got longer by acts that are none. -/
theorem fair_append (h : ∀ pre l post, past = pre ++ .leg l :: post → l.Fair pre)
    (ha : ∀ l, .leg l ∉ acts) :
    ∀ pre l post, past ++ acts = pre ++ .leg l :: post → l.Fair pre := by
  intro pre l post he
  rcases List.append_eq_append_iff.1 he with ⟨a, rfl, hacts⟩ | ⟨a, rfl, ha'⟩
  · exact absurd (by rw [hacts]; simp) (ha l)
  · cases a with
    | nil => exact absurd (by rw [List.nil_append] at ha'; rw [← ha']; simp) (ha l)
    | cons act a =>
      obtain ⟨rfl, -⟩ := List.cons.inj ha'
      exact h pre l a rfl

/-- Nobody comes, and nobody in line changes. -/
theorem Arrived.silent (h : Arrived past c) (hq : c'.transition = c.transition)
    (hsrc : ∀ u, u ∈ c.transition.queue → c'.source? u = c.source? u) (ha : Unreached acts) :
    Arrived (past ++ acts) c' where
  order u v s s' hs hu hv := by
    rw [hq] at hs
    rw [hsrc u (hs.subset (by simp))] at hu
    rw [hsrc v (hs.subset (by simp))] at hv
    exact (h.order u v s s' hs hu hv).append (ha.2 s) (ha.2 s')
  fair := fair_append h.fair ha.1

/-- What of a source reached the line came to its result or is under way. -/
theorem Accounts.reachedBy_eq (h : Accounts past c) (s : Source) :
    reachedBy s past = settledBy s past + (c.standing s).toList.length := by
  cases s with
  | call t =>
    obtain ⟨settled, heq, hlen⟩ := h.ledger.pending (.call t)
    have hl := congrArg List.length heq
    rw [length_ticketsOf, List.length_append, hlen] at hl
    rw [reachedBy_call, hl]
    simp [pending, waiting]
  | bridge b => rw [reachedBy_bridge b h.ledger.legs, h.ledger.standing]

/-- A stretch of work is fair to those who reached the line before. If it took the connection with
one of them unserved, that one would be in line before it, and so it would not be first. -/
theorem Arrived.fair_leg (h : Arrived past c) (ha : Accounts past c) (hc : c.Sound)
    (ho : c.Orderly) (hsrc : c.source? t = some s) (hs : c.standing s = m.start)
    (hq : m.Begins → c.transition.queue = [] ∨
      m.start ≠ none ∧ ∃ rest, c.transition.queue = t :: rest ∧ t ∉ rest)
    (hm : m.source = s) (hnone : ∀ s', s' ≠ s → reachedBy s' acts = 0)
    (hsettled : ∀ s', settledBy s' acts = 0) : m.Fair (past ++ acts) := by
  intro hb base hbase hle s'
  by_contra hlt
  rw [hm] at hle
  have hne : s' ≠ s := by
    rintro rfl
    exact hlt hle
  -- the request of the other source reached the line and is not through, so it is in line
  have hbase' := reachedBy_le (s := s') hbase
  have hacc := ha.reachedBy_eq s'
  rw [reachedBy_append, hnone s' hne] at hbase'
  rw [settledBy_append, hsettled] at hlt hle
  obtain ⟨x, hx⟩ : ∃ x, c.standing s' = some x := by
    cases hst : c.standing s' with
    | none =>
      rw [hst, Option.toList_none, List.length_nil] at hacc
      omega
    | some x => exact ⟨x, rfl⟩
  obtain ⟨u, husrc, hu⟩ := ha.staffed.exists_task hc hx
  have hmem : u ∈ c.transition.queue := (ho.mem u).2 (by rw [hu]; exact nofun)
  rw [hx, Option.toList_some, List.length_singleton] at hacc
  rcases hq hb with hnil | ⟨hstart, rest, hqueue, -⟩
  · rw [hnil] at hmem
    cases hmem
  · -- it is behind, so it reached the line later than the one that takes the connection
    have hut : u ≠ t := by
      rintro rfl
      exact hne (Option.some.inj (husrc.symm.trans hsrc))
    rw [hqueue] at hmem
    have hrest : u ∈ rest := (List.mem_cons.1 hmem).resolve_left hut
    have hbehind : [t, u].Sublist c.transition.queue := by
      rw [hqueue]
      exact (List.singleton_sublist.2 hrest).cons_cons t
    have hbefore := h.order t u s s' hbehind hsrc husrc
    have hself := ha.reachedBy_eq s
    obtain ⟨y, hy⟩ := Option.ne_none_iff_exists'.1 hstart
    rw [hs, hy, Option.toList_some, List.length_singleton] at hself
    rcases List.prefix_or_prefix_of_prefix hbase (List.prefix_append past acts) with hp | hp
    · have := hbefore base hp (by omega)
      omega
    · have := reachedBy_le (s := s) hp
      omega

/-- These acts bring a request of the source to the line if its work begins, and no other one. -/
structure Brings (s : Source) (start : Option Lifecycle) (acts : List Act) : Prop where
  own : start = none ↔ reachedBy s acts ≠ 0
  other : ∀ s', s' ≠ s → reachedBy s' acts = 0

/-- A stretch of work keeps the order of those in line. Its own task joins at the end, if it was not
in line yet, and so comes after everybody who reached the line before. -/
theorem Arrived.order_leg {start : Start} {task : Task} (h : Arrived past c)
    (hstaff : c.Staffed) (ho : c.Orderly) (ho' : c'.Orderly) (hs : Stretch t c₀ start p c')
    (hlink : SameLink c c₀) (hentry : c₀.entry = c.entry) (hsrc : c.source? t = some s)
    (htask : ∀ l, p = .waiting l → task.source? t = some s) (hb : Brings s start.stage? acts) :
    ∀ u v su sv, [u, v].Sublist (c'.write t task).transition.queue →
      (c'.write t task).source? u = some su → (c'.write t task).source? v = some sv →
      Before (past ++ acts) su sv := by
  intro u v su sv hq hu hv
  have hlock := hlink.transition
  have hstage := hlink.stage
  have hq' : [u, v].Sublist c'.transition.queue := hq
  -- who is in line works for the source it worked for
  have hkeep : ∀ w, w ∈ c'.transition.queue → (c'.write t task).source? w = c.source? w := by
    intro w hw
    by_cases hwt : w = t
    · subst hwt
      have hwait : ∃ l, p = .waiting l := by
        have hne := (ho'.mem w).1 hw
        rw [hs.stage_self] at hne
        cases p with
        | waiting l => exact ⟨l, rfl⟩
        | done r => exact absurd rfl hne
      obtain ⟨l, hl⟩ := hwait
      have hself : (c'.write w task).entry w = some task := Function.update_self _ _ _
      rw [source?_of_entry hself, htask l hl, hsrc]
    · refine source?_congr ?_
      show Function.update c'.entry t (some task) w = _
      rw [Function.update_of_ne hwt, hs.near.entry, hentry]
  rw [hkeep u (hq'.subset (by simp))] at hu
  rw [hkeep v (hq'.subset (by simp))] at hv
  rcases hs.behind (linkInvariant_orderly.same hlink ho) hq' with hold | ⟨hstart, humem, rfl⟩
  · rw [hlock] at hold
    have hzero : ∀ w sw, w ∈ c.transition.queue → c.source? w = some sw →
        reachedBy sw acts = 0 := by
      intro w sw hw hsw
      by_cases he : sw = s
      · subst he
        -- it is the task itself, which goes on
        obtain rfl := hstaff.source_injective hsw hsrc
        have hne := (ho.mem w).1 hw
        rw [← hstage] at hne
        by_contra hcomes
        have hstart := hb.own.2 hcomes
        cases hs with
        | refuse hst | connect hst | disconnect hst => exact hne hst
        | resume => cases hstart
      · exact hb.other sw he
    exact (h.order u v su sv hold hu hv).append (hzero u su (hold.subset (by simp)) hu)
      (hzero v sv (hold.subset (by simp)) hv)
  · -- the task has just come, and was not there
    obtain rfl := Option.some.inj (hv.symm.trans hsrc)
    have hne : su ≠ sv := by
      rintro rfl
      obtain rfl := hstaff.source_injective hu hsrc
      rw [hlock] at humem
      have hst := (ho.mem u).1 humem
      rw [← hstage] at hst
      cases hs with
      | refuse h | connect h | disconnect h => exact hst h
      | resume => cases hstart
    exact before_of_reached (hb.other su hne) (hb.own.1 hstart)

/-- What is kept throughout a run. -/
structure Arrivals (past : List Act) (c : Core) : Prop where
  accounts : Accounts past c
  orderly : c.Orderly
  arrived : Arrived past c

/-- Before a stretch of work, its source may make the request that it is on. -/
structure Opens (s : Source) (acts : List Act) : Prop where
  noLeg : ∀ l, .leg l ∉ acts
  settled : ∀ s', settledBy s' acts = 0
  other : ∀ s', s' ≠ s → reachedBy s' acts = 0

/-- A stretch of work, with the request made before it if it begins one: those in line keep their
order, and if it takes the connection, all who reached the line before are through. -/
theorem Arrived.leg {start : Start} {task : Task} (h : Arrivals past c) (hc : c.Sound)
    (hs : Stretch t c₀ start p c') (hlink : SameLink c c₀) (hentry : c₀.entry = c.entry)
    (hsrc : c.source? t = some s) (htask : ∀ l, p = .waiting l → task.source? t = some s)
    (ho' : (c'.write t task).Orderly) (hstart : start.stage? = standingOf s (past ++ acts))
    (ha : Opens s acts)
    (hb : Brings s start.stage? (acts ++ [.leg (c.leg c' s start.stage? p)])) :
    Arrived (past ++ (acts ++ [.leg (c.leg c' s start.stage? p)])) (c'.write t task) where
  order := by
    have hstay : SameLink (c'.write t task) c' := ⟨rfl, rfl, rfl, rfl, rfl, rfl, rfl⟩
    exact h.arrived.order_leg h.accounts.staffed h.orderly (linkInvariant_orderly.same hstay ho')
      hs hlink hentry hsrc htask hb
  fair := by
    rw [← List.append_assoc]
    refine legs_snoc (P := Leg.Fair) (fair_append h.arrived.fair ha.noLeg) ?_
    intro l hleg
    cases hleg
    have hstanding : c.standing s = start.stage? := by
      rw [h.accounts.ledger.standing, hstart, standingOf_append_of_noLeg _ _ _ ha.noLeg]
    refine h.arrived.fair_leg h.accounts hc h.orderly hsrc hstanding ?_ rfl ha.other ha.settled
    -- who takes the connection was the first in line
    intro hbegins
    have hq := hs.queue_of_begins (linkInvariant_orderly.same hlink h.orderly) hbegins
    rw [hlink.transition] at hq
    exact hq

theorem Aside.source?_eq (h : Aside c c') (u : TaskId) : c'.source? u = c.source? u :=
  source?_congr (congrFun h.entry_eq u)

/-- Who is in line is not the task that is written. -/
theorem source?_write_of_idle (ho : c.Orderly) (hs : c.stage t = none) (task : Task) :
    ∀ u, u ∈ c.transition.queue → (c.write t task).source? u = c.source? u := by
  intro u hu
  refine source?_congr (Function.update_of_ne ?_ _ _)
  rintro rfl
  exact (ho.mem u).1 hu hs

theorem reachedBy_singleton (s : Source) (act : Act) :
    reachedBy s [act] = if Act.reaches s act then 1 else 0 := by
  unfold reachedBy
  rw [List.countP_cons, List.countP_nil, Nat.zero_add]

/-- The act is the request of a call. -/
def IsCallOf (t : TaskId) (act : Act) : Prop :=
  (∃ target, act = .ask (.call t) target) ∨ act = .leave (.call t)

/-- A request of a call is the only one that it brings to the line. -/
theorem IsCallOf.reachedBy_eq {act : Act} (h : IsCallOf t act) (s : Source) :
    reachedBy s [act] = if Source.call t = s then 1 else 0 := by
  rw [reachedBy_singleton]
  rcases h with ⟨target, rfl⟩ | rfl
  · cases s <;> simp [Act.reaches, Act.isRequest]
  · cases s <;> simp [Act.reaches, Act.isRequest]

theorem IsCallOf.opens {act : Act} (h : IsCallOf t act) : Opens (.call t) [act] where
  noLeg l hl := by
    rcases h with ⟨target, rfl⟩ | rfl
    · cases List.mem_singleton.1 hl
    · cases List.mem_singleton.1 hl
  settled s := by rcases h with ⟨target, rfl⟩ | rfl <;> rfl
  other s hs := by rw [h.reachedBy_eq, if_neg fun h => hs h.symm]

theorem opens_nil (s : Source) : Opens s [] :=
  ⟨fun _ => List.not_mem_nil, fun _ => rfl, fun _ _ => rfl⟩

/-- A call reaches the line with its request. -/
theorem brings_call {act : Act} (h : IsCallOf t act) (hl : m.source = .call t) :
    Brings (.call t) none ([act] ++ [.leg m]) where
  own := by
    rw [reachedBy_append, h.reachedBy_eq, if_pos rfl]
    simp
  other s' hs := by
    rw [reachedBy_append, h.reachedBy_eq, if_neg fun h => hs h.symm, reachedBy_singleton]
    cases s' with
    | call u => rfl
    | bridge b => simp [Act.reaches, hl]

/-- A worker reaches the line when it begins, and nobody does with work that goes on. -/
theorem brings_leg {o : Option Lifecycle} (hl : m.source = s) (ho : m.start = o)
    (hs : ∀ t, s = .call t → o ≠ none) : Brings s o ([] ++ [.leg m]) where
  own := by
    rw [List.nil_append, reachedBy_singleton]
    cases s with
    | call t => simp [Act.reaches, Act.isRequest, hs t rfl]
    | bridge b => simp [Act.reaches, hl, ho]
  other s' hs' := by
    rw [List.nil_append, reachedBy_singleton]
    cases s' with
    | call u => rfl
    | bridge b =>
      have hne : m.source ≠ .bridge b := fun h => hs' (h.symm.trans hl)
      simp [Act.reaches, hne]

theorem callTask_source? {starts : Bool} {l : Lifecycle} (h : p = .waiting l) :
    (callTask starts p).source? t = some (.call t) := by
  subst h
  rfl

theorem jobTask_source? {b : BridgeId} {job : Job} {l : Lifecycle} (h : p = .waiting l) :
    (jobTask b job p).source? t = some (.bridge b) := by
  subst h
  rfl

/-- Every step keeps the order of arrival, one case for each kind of step. Only stretches of work
and jobs that are taken move anything in line. -/
theorem Arrived.step (h : Arrivals past c) (hc : c.Sound) (ha : Accounts (past ++ acts) c')
    (ho' : c'.Orderly) (hs : Step c acts c') : Arrived (past ++ acts) c' := by
  have hunreached : Unreached [] := ⟨fun _ => List.not_mem_nil, fun _ => rfl⟩
  have hstanding : ∀ s, c.standing s = standingOf s past := h.accounts.ledger.standing
  have hstart : ∀ pre l, past ++ acts = pre ++ [.leg l] → l.start = standingOf l.source pre :=
    fun pre l he => (ha.ledger.legs pre l [] he).start
  cases hs with
  | aside hw =>
    exact h.arrived.silent hw.sameLink.transition (fun u _ => hw.source?_eq u) hunreached
  | @turn t old task hold hturn _ =>
    refine h.arrived.silent rfl (source?_write_of_idle h.orderly ?_ task) hunreached
    rw [hc.stage_of_entry hold]
    cases hturn with
    | wait hk => exact hk
    | reply hk => exact hk
    | receiver | worker => rfl
  | @retire t hold =>
    refine h.arrived.silent rfl (source?_write_of_idle h.orderly ?_ _) hunreached
    rw [hc.agree, hold]
    rfl
  | takeAsk | takeLeave =>
    -- a trigger is taken, which brings nobody to the line
    refine h.arrived.silent rfl (fun u _ => rfl) ⟨fun l hm => ?_, fun s => ?_⟩
    · cases List.mem_singleton.1 hm
    · rw [reachedBy_singleton]
      cases s with
      | call u => simp [Act.reaches, Act.isRequest]
      | bridge b => rfl
  | @ask t point target p c₁ hold _ hst =>
    -- a call that asks for a connect, made and begun in one
    have hact : IsCallOf t (.ask (.call t) target) := .inl ⟨target, rfl⟩
    refine Arrived.leg h hc hst ⟨rfl, rfl, rfl, rfl, rfl, rfl, rfl⟩ rfl (source?_of_entry hold) ?_
      ho' (hstart _ (c.leg c₁ (.call t) none p) (List.append_assoc _ [_] [_]).symm) hact.opens
      (brings_call hact rfl)
    exact fun l hl => callTask_source? hl
  | @leave t p c₁ hold hst =>
    have hact : IsCallOf t (.leave (.call t)) := .inr rfl
    refine Arrived.leg h hc hst ⟨rfl, rfl, rfl, rfl, rfl, rfl, rfl⟩ rfl (source?_of_entry hold) ?_
      ho' (hstart _ (c.leg c₁ (.call t) none p) (List.append_assoc _ [_] [_]).symm) hact.opens
      (brings_call hact rfl)
    exact fun l hl => callTask_source? hl
  | @resume t l p c₁ starts hold hst =>
    have hstand := hstart past (c.leg c₁ (.call t) (some l) p) rfl
    rw [← List.append_nil past] at hstand
    refine Arrived.leg h hc hst ⟨rfl, rfl, rfl, rfl, rfl, rfl, rfl⟩ rfl
      ((source?_of_entry hold).trans (callTask_source? rfl)) ?_ ho' hstand (opens_nil _)
      (brings_leg rfl rfl fun _ _ => Option.some_ne_none _)
    exact fun l hl => callTask_source? hl
  | @begin t b bridge job rest p c₁ hold hb hj hst =>
    -- the worker takes a job, which reaches the line only now
    have hleg := Job.stage?_start job
    have hstand := hleg.trans (hstart past (c.leg c₁ (.bridge b) none p) rfl)
    rw [← List.append_nil past] at hstand
    have hl : Arrived (past ++ ([] ++ [.leg (c.leg c₁ (.bridge b) job.start.stage? p)])) _ :=
      Arrived.leg h hc hst ⟨rfl, rfl, rfl, rfl, rfl, rfl, rfl⟩ rfl (source?_of_entry hold)
        (fun l hl => jobTask_source? hl) ho' hstand (opens_nil _)
        (brings_leg rfl rfl fun _ hu => by cases hu)
    rw [hleg] at hl
    exact hl
  | @carry t b job l p c₁ hold hst =>
    have hstand := hstart past (c.leg c₁ (.bridge b) (some l) p) rfl
    rw [← List.append_nil past] at hstand
    refine Arrived.leg h hc hst ⟨rfl, rfl, rfl, rfl, rfl, rfl, rfl⟩ rfl (source?_of_entry hold) ?_
      ho' hstand (opens_nil _) (brings_leg rfl rfl fun _ hu => by cases hu)
    exact fun l hl => jobTask_source? hl

/-- No change from outside brings a request to the line. -/
theorem Arrived.outside {e : Event} (h : Arrivals past c) (hc : c.Sound) (ho : Outside c e c') :
    Arrived past c' := by
  have hlt : ∀ u, u ∈ c.transition.queue → u < c.size := by
    intro u hu
    by_contra hge
    exact (h.orderly.mem u).1 hu (hc.stage_small (Nat.le_of_not_lt hge))
  have hsilent : Arrived (past ++ []) c' := h.arrived.silent ho.sameLink.transition ?_
    ⟨fun _ => List.not_mem_nil, fun _ => rfl⟩
  · rwa [List.append_nil] at hsilent
  · exact fun u hu => source?_congr (ho.entry_eq (hlt u hu))

/-- Where nothing happened nobody is in line. -/
theorem arrivals_make (config : Config) (backend : Backend) :
    Arrivals [] (Client.make config backend).core where
  accounts := accounts_make config backend
  orderly := orderly_make config backend
  arrived := by
    refine ⟨fun u v s s' hs => ?_, fun pre l post he => ?_⟩
    · cases List.sublist_nil.1 hs
    · simp at he

end Core

/-- In every run, who takes the connection comes after all that reached the line before. -/
theorem Client.arrivals_after (config : Config) {backend : Backend} (hb : backend.Prompt)
    (events : List Event) :
    Core.Arrivals ((make config backend).trace events)
      ((make config backend).after events).core := by
  refine (invariant_after (I := Core.Arrivals) (P := fun _ => True) ?_ ?_ (sound_make config hb) []
    (Core.arrivals_make config backend) events fun _ _ => trivial).2
  · intro past c acts c' hc h hs
    have ha := h.accounts.step hs
    have ho := Core.linkInvariant_orderly.step hs hc h.orderly
    exact ⟨ha, ho, Core.Arrived.step h hc ha ho hs⟩
  · intro past c e c' _ hc h ho
    exact ⟨h.accounts.outside hc ho, Core.linkInvariant_orderly.same ho.sameLink h.orderly,
      Core.Arrived.outside h hc ho⟩

/-- In every run, when a request takes the connection that was made after `past`, every direct call
that was made in `past` is through, and so is every request of a trigger that its worker had taken
then. -/
theorem arrival_after (config : Config) (servers : List Server) (latency : Nat)
    (version : String) (events : List Event) {past mid rest : List Act} {m : Leg}
    (ht : (Client.fresh config servers latency version).trace events =
      past ++ mid ++ .leg m :: rest)
    (hb : m.Begins) (hm : madeBy m.source past ≤ settledBy m.source (past ++ mid)) :
    (∀ t, madeBy (.call t) past ≤ settledBy (.call t) (past ++ mid)) ∧
      ∀ b, reachedBy (.bridge b) past ≤ settledBy (.bridge b) (past ++ mid) := by
  have h := Client.arrivals_after config (Backend.prompt_make servers latency version) events
  rw [show (Client.make config (.make servers latency version)).trace events = _ from ht] at h
  have hfits : ∀ pre l post, past = pre ++ .leg l :: post → l.Fits pre := by
    intro pre l post he
    refine h.accounts.ledger.legs pre l (post ++ (mid ++ .leg m :: rest)) ?_
    rw [he]
    simp
  have hfair := h.arrived.fair (past ++ mid) m rest rfl hb past (List.prefix_append _ _)
    (Nat.le_trans (reachedBy_le_madeBy m.source hfits) hm)
  exact ⟨fun t => hfair (.call t), fun b => hfair (.bridge b)⟩

/-- A disconnect takes the connection when the connect that was made before it is through, be it a
call or the request of a trigger that the worker of its bridge had taken. -/
theorem arrival_after_calls :
    (∃ past mid m, (Client.fresh Config.default [] 5 "1").trace
        [.call (.connect "x"), .call .disconnect, .poll 0, .poll 1] = past ++ mid ++ .leg m :: [] ∧
      m.Begins ∧ madeBy m.source past ≤ settledBy m.source (past ++ mid) ∧
      madeBy (.call 0) past = 1 ∧ madeBy (.call 0) past ≤ settledBy (.call 0) (past ++ mid)) ∧
    ∃ past mid m, (Client.fresh Config.default [] 5 "1").trace
        [.openBridge, .send 0 (.connect "x"), .poll 1, .poll 0, .call .disconnect, .poll 0,
          .poll 2] = past ++ mid ++ .leg m :: [] ∧
      m.Begins ∧ madeBy m.source past ≤ settledBy m.source (past ++ mid) ∧
      reachedBy (.bridge 0) past = 1 ∧
      reachedBy (.bridge 0) past ≤ settledBy (.bridge 0) (past ++ mid) := by
  constructor
  · obtain ⟨past, mid, m, ht, hb, hm, hone⟩ : ∃ past mid m,
        (Client.fresh Config.default [] 5 "1").trace
          [.call (.connect "x"), .call .disconnect, .poll 0, .poll 1] =
            past ++ mid ++ .leg m :: [] ∧
        m.Begins ∧ madeBy m.source past ≤ settledBy m.source (past ++ mid) ∧
        madeBy (.call 0) past = 1 :=
      ⟨[_, _], [_, _, _], ⟨.call 1, some .leaving, _, _, _, _, .waiting (.hangingUp _)⟩, rfl,
        by decide, by decide, by decide⟩
    exact ⟨past, mid, m, ht, hb, hm, hone, (arrival_after Config.default [] 5 "1" _ ht hb hm).1 0⟩
  · obtain ⟨past, mid, m, ht, hb, hm, hone⟩ : ∃ past mid m,
        (Client.fresh Config.default [] 5 "1").trace
          [.openBridge, .send 0 (.connect "x"), .poll 1, .poll 0, .call .disconnect, .poll 0,
            .poll 2] = past ++ mid ++ .leg m :: [] ∧
        m.Begins ∧ madeBy m.source past ≤ settledBy m.source (past ++ mid) ∧
        reachedBy (.bridge 0) past = 1 :=
      ⟨[_, _], [_, _, _], ⟨.call 2, some .leaving, _, _, _, _, .waiting (.hangingUp _)⟩, rfl,
        by decide, by decide, by decide⟩
    exact ⟨past, mid, m, ht, hb, hm, hone, (arrival_after Config.default [] 5 "1" _ ht hb hm).2 0⟩

/-- Of two disconnects that triggers asked for, the second waits for the worker while a call asks
for a connect.  The call takes the connection first, and the disconnect tears it down. -/
theorem not_inArrivalOrder :
    let w := Client.fresh Config.default [Server.make "x" "" "" "" ""] 5 "1"
    let early : List Event := [.openBridge, .send 0 .disconnect, .send 0 .disconnect, .poll 1,
      .poll 0, .call (.connect "x"), .pass 5, .poll 0, .poll 2, .pass 5, .poll 2]
    let late : List Event := [.pass 5, .poll 2, .poll 0, .pass 5, .poll 0]
    ¬ InArrivalOrder (w.trace (early ++ late)) ∧ (w.after early).session.state = .connected ∧
      (w.after (early ++ late)).session.state = .disconnected := by
  intro w early late
  refine ⟨fun h => ?_, by decide +kernel, by decide +kernel⟩
  -- after the two disconnects the connect is made; it takes the connection before the second one
  have hle := h 2 7 10 (.call 2) (.bridge 0) (by decide) (by decide +kernel) (by decide +kernel)
    (by decide +kernel)
  exact absurd hle (by decide +kernel)

end TunnelSession
