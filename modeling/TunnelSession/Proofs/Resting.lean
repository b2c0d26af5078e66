/-
  A client at rest.

  ASSURED.  A task that sleeps in a call sleeps no longer than the latency, and a timer wakes it; a
  command that has not begun is woken, and so is a change that is handed the settings
  (`Client.Assured`).  Every event keeps that: the turn of a task says so of the task itself
  (`Parked`), and leaves the others alone (`OthersKept`).

  REST.  If no task can run, somebody sleeps wherever somebody waits.  A request in line for the
  connection waits for the first in line, which is not woken and so is at the backend; a change in
  line for the settings waits for the one that called the backend; a job waits for the job that its
  worker is at.  Without latency nobody sleeps, so nothing is left to be done.
-/
import TunnelSession.Proofs.Commits
import TunnelSession.Proofs.Handling
import TunnelSession.Proofs.Sleeping
import TunnelSession.Proofs.Solo
import TunnelSession.Proofs.Yielding

namespace TunnelSession

/-! ## Who sleeps -/

theorem Lock.mem_line {l : Lock} {t u : TaskId} (h : t ∈ l.queue) (hh : l.holder = some u)
    (hu : u ≠ t) : t ∈ l.line := by
  unfold queue at h
  rw [hh] at h
  exact (List.mem_cons.1 h).resolve_left hu.symm

theorem Call.Runs.isSome_sleep? {α : Type} {call : Call α} {ask : Ask α} (h : call.Runs ask) :
    call.sleep?.isSome := by
  obtain ⟨due, rfl⟩ := h
  rfl

/-- Who has called the backend for a connect or a disconnect sleeps in that call. -/
theorem Lifecycle.Sound.isSome_sleep? {l : Lifecycle} (h : l.Sound) (ha : l.IsActive) :
    l.sleep?.isSome := by
  cases l with
  | queued | leaving => cases ha
  | dialing ticket call =>
    obtain ⟨ask, -, hr⟩ := h
    exact hr.isSome_sleep?
  | sampling | hangingUp => exact Call.Runs.isSome_sleep? h

theorem Writing.Sound.isSome_sleep? {p : Writing} (h : p.Sound) (hc : p.IsCalled) :
    p.sleep?.isSome := by
  cases p with
  | queued => cases hc
  | saving | toggling => exact Call.Runs.isSome_sleep? h

/-- Who is at a connect or a disconnect sleeps for that. -/
theorem Task.sleep?_of_lifecycle? {k : Task} {l : Lifecycle} (h : k.lifecycle? = some l) :
    k.sleep? = l.sleep? := by
  unfold Task.lifecycle? at h
  split at h <;> cases h <;> rfl

namespace Client

open TunnelSession.Core

variable {w w' v : Client} {t u : TaskId} {k : Task}

/-- Until when a task sleeps. -/
def sleep? (w : Client) (t : TaskId) : Option Nat := (w.task? t).bind Task.sleep?

/-- What a task sleeps for is its own, or its look's. -/
theorem sleep?_eq (w : Client) (t : TaskId) :
    w.sleep? t = ((w.core.entry t).bind Task.sleep?).or ((w.core.looking t).bind Call.sleep?) := by
  show (w.task? t).bind Task.sleep? =
    (((w.task? t).bind Task.seen?).bind Task.sleep?).or
      (((w.task? t).bind Task.look?).bind Call.sleep?)
  cases w.task? t with
  | none => rfl
  | some k =>
    cases k with
    | poller p => rfl
    | command | receiver | worker | ended => exact (Option.or_none).symm

theorem OthersKept.sleep? (h : OthersKept t w w') (u : TaskId) : w'.sleep? u = w.sleep? u := by
  rw [sleep?_eq, sleep?_eq, h.entry, h.looking]

theorem hasEnded_of_sleep? {due : Nat} (h : w.sleep? t = some due) : w.hasEnded t = false := by
  obtain ⟨k, hk, hs⟩ := Option.bind_eq_some_iff.1 h
  unfold hasEnded
  rw [hk]
  cases k with
  | ended => cases hs
  | command | poller | receiver | worker => rfl

/-! ## What is done for those who wait -/

/-- The task will be woken when its call is over; it is woken if it has not begun, or is handed the
settings. -/
structure Assured (w : Client) (u : TaskId) : Prop where
  short : ∀ due, w.sleep? u = some due → due ≤ w.now + w.backend.latency
  timed : ∀ due, w.sleep? u = some due → u ∈ w.ready ∨ (due, u) ∈ w.timers ∧ w.now < due
  fresh : ∀ c, w.core.entry u = some (.command (.fresh c)) → u ∈ w.ready
  handed : ∀ x, w.core.entry u = some (.command (.writing (.queued x))) →
    w.writes.holder = some u → u ∈ w.ready

/-- Work of another leaves a task assured of its turn. -/
theorem Assured.othersKept (h : w.Assured u) (hc : OthersKept t w w') (hu : u ≠ t) :
    w'.Assured u where
  short due hs := by
    rw [hc.now, hc.latency]
    exact h.short due ((hc.sleep? u).symm.trans hs)
  timed due hs := by
    rw [hc.now]
    exact (h.timed due ((hc.sleep? u).symm.trans hs)).imp (hc.ready ·)
      (And.imp_left (hc.timers u due hu))
  fresh c he := hc.ready (h.fresh c (by rw [← hc.entry]; exact he))
  handed x he hh := by
    rw [hc.entry] at he
    -- who is handed the settings is woken for it
    rcases hc.writes u _ hh he with ht | hw | hr
    · exact absurd ht hu
    · exact hc.ready (h.handed x he hw)
    · exact hr

/-- A change that nobody has a part in. -/
theorem Assured.untouched (h : w.Assured u) (hc : ∀ t, OthersKept t w w') : w'.Assured u :=
  h.othersKept (hc (u + 1)) (Nat.ne_of_lt (Nat.lt_succ_self u))

/-- Where another task stands does not matter. -/
theorem Assured.congr (h : w.Assured u) (ht : v.task? u = w.task? u) (hn : v.now = w.now)
    (hb : v.backend = w.backend) (hm : v.timers = w.timers) (hw : v.writes = w.writes)
    (hr : u ∈ w.ready → u ∈ v.ready) : v.Assured u := by
  have he : v.core.entry u = w.core.entry u := congrArg (·.bind Task.seen?) ht
  have hs : v.sleep? u = w.sleep? u := congrArg (·.bind Task.sleep?) ht
  refine ⟨fun due hd => ?_, fun due hd => ?_, fun c hc => hr (h.fresh c (he ▸ hc)),
    fun x hx hh => hr (h.handed x (he ▸ hx) (hw ▸ hh))⟩
  · rw [hn, hb]
    exact h.short due (hs ▸ hd)
  · rw [hn, hm]
    exact (h.timed due (hs ▸ hd)).imp_left hr

/-- A task that is in no call and is no command, if there is one. -/
theorem assured_of_idle (h : ∀ k, w.task? u = some k → k.IsIdle) : w.Assured u := by
  have hs : ∀ due, w.sleep? u ≠ some due := by
    intro due hd
    obtain ⟨k, hk, hs⟩ := Option.bind_eq_some_iff.1 hd
    rw [(h k hk).sleep?] at hs
    cases hs
  have he : ∀ p, w.core.entry u ≠ some (.command p) := fun p he => nomatch h _ (task?_of_entry he)
  exact ⟨fun due hd => absurd hd (hs due), fun due hd => absurd hd (hs due),
    fun c hc => absurd hc (he _), fun x hx => absurd hx (he _)⟩

/-! ## Turns -/

theorem task?_setTask_self {k' : Task} (h : (v.setTask t k).task? t = some k') : k' = k := by
  obtain ⟨hlt, hk⟩ := List.getElem?_eq_some_iff.1 h
  rw [← hk]
  exact List.getElem_set_self _

/-- After its turn a task is assured of its turn, as all others were. -/
theorem Parked.assured (h : Parked t w w') (ho : ∀ u, u ≠ t → w.Assured u) (u : TaskId) :
    w'.Assured u := by
  obtain ⟨v, k, hc, rfl, hn, hf, hl⟩ := h.turn
  -- the task that had the turn has the timer of its call; the others are left alone
  by_cases hu : u = t
  · subst hu
    have hself : ∀ k', (v.setTask u k).task? u = some k' → k' = k := fun _ => task?_setTask_self
    have hsleep : ∀ due, (v.setTask u k).sleep? u = some due → k.sleep? = some due := by
      intro due hd
      obtain ⟨k', hk, hs⟩ := Option.bind_eq_some_iff.1 hd
      rw [← hself k' hk]
      exact hs
    refine ⟨fun due hd => (hn due (hsleep due hd)).bound, fun due hd => .inr ?_, fun c hc => ?_,
      fun x hx hh => ?_⟩
    · exact ⟨(hn due (hsleep due hd)).timer, (hn due (hsleep due hd)).later⟩
    · exact absurd (hself _ (task?_of_entry hc)).symm (hf c)
    · exact absurd hh (hl x (hself _ (task?_of_entry hx)).symm)
  · exact ((ho u hu).othersKept hc hu).congr (task?_setTask_of_ne v k hu) rfl rfl rfl rfl id

/-- A turn, of a task that is assured of its turn but for being woken. -/
theorem assured_run (ho : ∀ u, u ≠ t → w.Assured u)
    (hb : ∀ due, w.sleep? t = some due → due ≤ w.now + w.backend.latency) :
    ∀ u, (w.run t).Assured u := by
  refine (parked_run w t fun k due hk hs => hb due ?_).assured ho
  unfold Client.sleep?
  rw [hk]
  exact hs

/-! ## Runs -/

/-- Every task is assured of its turn. -/
def AllAssured (w : Client) : Prop := ∀ u, w.Assured u

theorem AllAssured.untouched (h : w.AllAssured) (hc : ∀ t, OthersKept t w w') : w'.AllAssured :=
  fun u => (h u).untouched hc

/-- A task is written behind all others. -/
theorem Assured.spawn (h : w.Assured u) (k : Task) (hu : u ≠ w.tasks.length) :
    (w.spawn k).2.Assured u :=
  h.congr (by rw [task?_spawn, if_neg hu]) rfl rfl rfl rfl id

/-- A task that is at no command and in no call may be added. -/
theorem AllAssured.spawn (h : w.AllAssured) (hk : k.IsIdle) : (w.spawn k).2.AllAssured := by
  intro u
  by_cases hu : u = w.tasks.length
  · refine assured_of_idle fun k' hk' => ?_
    rw [task?_spawn, if_pos hu] at hk'
    cases hk'
    exact hk
  · exact (h u).spawn k hu

theorem task?_spawn_self (w : Client) (k : Task) :
    (w.spawn k).2.task? w.tasks.length = some k := by
  rw [task?_spawn, if_pos rfl]

theorem sleep?_spawn_fresh (w : Client) (c : Command) :
    (w.spawn (.command (.fresh c))).2.sleep? w.tasks.length = none := by
  unfold Client.sleep?
  rw [task?_spawn_self]
  rfl

/-- A command begins at once. -/
theorem AllAssured.call (h : w.AllAssured) (c : Command) : (w.call c).AllAssured := by
  refine assured_run (fun u hu => (h u).spawn _ hu) fun due hd => ?_
  cases (sleep?_spawn_fresh w c).symm.trans hd

/-- A command is woken before it begins. -/
theorem AllAssured.go (h : w.AllAssured) (c : Command) : (w.go c).2.AllAssured := by
  intro u
  have hkept : ∀ t, OthersKept t (w.spawn (.command (.fresh c))).2 (w.go c).2 :=
    fun t => othersKept_wake t _ w.tasks.length
  by_cases hu : u = w.tasks.length
  · subst hu
    have hin : w.tasks.length ∈ (w.go c).2.ready :=
      mem_ready_wake (entry_of_task? (task?_spawn_self w _) rfl) rfl
    refine ⟨fun due hd => ?_, fun _ _ => .inl hin, fun _ _ => hin, fun _ _ _ => hin⟩
    cases (sleep?_spawn_fresh w c).symm.trans (((hkept 0).sleep? _).symm.trans hd)
  · exact ((h u).spawn _ hu).untouched hkept

/-- Time passes: whose timer is due is woken, and the other timers are still to come. So whoever
sleeps has a timer, or is ready. -/
theorem AllAssured.tickTo (h : w.AllAssured) {now : Nat} (hle : w.now ≤ now) :
    (w.tickTo now).AllAssured := by
  intro u
  let due := (w.timers.filter (·.1 ≤ now)).map (·.2)
  let v : Client :=
    { w with now := now, timers := w.timers.filter fun t => !decide (t.1 ≤ now) }
  have hkept : OthersKept (u + 1) v (v.wakeAll due) := othersKept_wakeAll _ _ _
  have hu : u ≠ u + 1 := Nat.ne_of_lt (Nat.lt_succ_self u)
  have hready : w.ready ⊆ (v.wakeAll due).ready := hkept.ready
  have hsleep : ∀ d, (v.wakeAll due).sleep? u = some d → w.sleep? u = some d :=
    fun d hd => (hkept.sleep? u).symm.trans hd
  show (v.wakeAll due).Assured u
  refine ⟨fun d hd => ?_, fun d hd => ?_, fun c hc => ?_, fun x hx hh => ?_⟩
  · -- with more time passed nobody sleeps for longer
    rw [hkept.now, hkept.latency]
    exact Nat.le_trans ((h u).short d (hsleep d hd)) (Nat.add_le_add_right hle _)
  · rcases (h u).timed d (hsleep d hd) with hr | ⟨ht, -⟩
    · exact .inl (hready hr)
    · -- its timer was due and has woken it, or is kept
      by_cases hd' : d ≤ now
      · refine .inl (mem_ready_wakeAll (List.mem_map.2 ⟨(d, u), ?_, rfl⟩)
          (hasEnded_of_sleep? (hsleep d hd)))
        exact List.mem_filter.2 ⟨ht, decide_eq_true hd'⟩
      · refine .inr ⟨hkept.timers u d hu (List.mem_filter.2 ⟨ht, ?_⟩), ?_⟩
        · simp [hd']
        · rw [hkept.now]
          exact Nat.lt_of_not_le hd'
  · rw [hkept.entry] at hc
    exact hready ((h u).fresh c hc)
  · rw [hkept.entry] at hx
    obtain ⟨more, heq⟩ := wakeAll_eq v due
    rw [heq] at hh
    exact hready ((h u).handed x hx hh)

/-- A bridge is opened: its tasks have nothing to do yet. -/
theorem AllAssured.activate (h : w.AllAssured) : w.activate.2.AllAssured := by
  have hworker := (h.spawn (k := .worker w.bridges.length none) trivial).untouched
    fun t => othersKept_wake t _ w.tasks.length
  unfold Client.activate
  dsimp only [Client.spawn] at hworker ⊢
  -- the client when the worker is there
  generalize Client.wake _ w.tasks.length = v at hworker
  have hreceiver := (hworker.spawn (k := .receiver w.bridges.length) trivial).untouched
    fun t => othersKept_wake t _ v.tasks.length
  dsimp only [Client.spawn] at hreceiver
  exact hreceiver.untouched fun t => othersKept_with t _ _ _ _ _ _ _ _ _ _ _

/-- An event at a bridge leaves all tasks as they are, whoever is woken for it. -/
theorem BridgeWrite.othersKept {b : BridgeId} (h : BridgeWrite w b w') (t : TaskId) :
    OthersKept t w w' := by
  cases h with
  | nothing => exact .refl t w
  | change f => exact othersKept_setBridge t w b f
  | rouse f _ _ u => exact (othersKept_setBridge t w b f).trans (othersKept_wake t _ u)

/-- Every event leaves everybody assured of a turn. A turn may break it for the task itself only,
whose new entry says what it waits for. -/
theorem AllAssured.happen (h : w.AllAssured) (e : Event) : (w.happen e).AllAssured := by
  cases e with
  | call c => exact h.call c
  | go c => exact h.go c
  | poll t =>
    refine assured_run (w := { w with ready := w.ready.erase t }) (fun u hu => ?_) (h t).short
    exact (h u).congr rfl rfl rfl rfl rfl (List.mem_erase_of_ne hu).2
  | pass ms => exact h.tickTo (Nat.le_add_right _ _)
  | fail op e => exact h.untouched fun t => othersKept_backend t w rfl
  | pin op value => exact h.untouched fun t => othersKept_backend t w rfl
  | startPolling period => exact h.untouched fun t => othersKept_startPolling t w period
  | stopPolling => exact h.untouched fun t => othersKept_stopPolling t w
  | openBridge => exact h.activate
  | deactivate | dropSender | dropPages | takePages | send =>
    exact h.untouched (bridgeWrite_happen w rfl).othersKept

theorem AllAssured.after (h : w.AllAssured) (events : List Event) :
    (w.after events).AllAssured := by
  induction events generalizing w with
  | nil => exact h
  | cons e events ih => exact ih (h.happen e)

theorem allAssured_make (config : Config) (backend : Backend) : (make config backend).AllAssured :=
  fun _ => assured_of_idle fun _ hk => nomatch hk

/-! ## At rest -/

/-- The task sleeps in a call to the backend, whose latency is not over. -/
def Sleeps (w : Client) (t : TaskId) : Prop := ∃ due, w.sleep? t = some due ∧ w.Naps t due

/-- The task sleeps in a call, or is in line for the connection or for the settings behind a task
that does. -/
def IsHeldUp (w : Client) (t : TaskId) : Prop :=
  ∃ u, w.Sleeps u ∧ (u = t ∨ w.transition.holder = some u ∧ t ∈ w.transition.line ∨
    w.writes.holder = some u ∧ t ∈ w.writes.line)

/-- Whatever was begun and is not finished sleeps in a call, or waits behind a task that does. -/
structure HeldUp (w : Client) : Prop where
  commands : ∀ t p, w.task? t = some (.command p) → w.IsHeldUp t
  looks : ∀ t p, w.task? t = some (.poller p) → p.call.isSome → w.Sleeps t
  /-- What was sent has been taken. -/
  triggers : ∀ b bridge, w.bridge? b = some bridge → bridge.triggers.queue = []
  jobs : ∀ t b job l, w.task? t = some (.worker b (some (job, l))) → w.IsHeldUp t
  /-- The jobs of a bridge wait for the one that its worker is at. -/
  queue : ∀ b bridge, w.bridge? b = some bridge → bridge.jobs ≠ [] →
    ∃ job l, w.task? bridge.worker = some (.worker b (some (job, l)))

/-- Whatever was begun is finished. -/
structure Finished (w : Client) : Prop where
  commands : ∀ t p, w.task? t ≠ some (.command p)
  looks : ∀ t p, w.task? t = some (.poller p) → p.call = none
  jobs : ∀ t b current, w.task? t = some (.worker b current) → current = none
  bridges : ∀ b bridge, w.bridge? b = some bridge → bridge.triggers.queue = [] ∧ bridge.jobs = []

/-- Without latency nobody sleeps. -/
theorem Sleeps.latency_pos (h : w.Sleeps t) : 0 < w.backend.latency := by
  obtain ⟨due, -, hn⟩ := h
  have := hn.later
  have := hn.bound
  omega

theorem IsHeldUp.latency_pos (h : w.IsHeldUp t) : 0 < w.backend.latency := by
  obtain ⟨u, hu, -⟩ := h
  exact hu.latency_pos

/-- Without latency nobody is held up, so everything that was begun is finished. -/
theorem HeldUp.finished (h : w.HeldUp) (h0 : w.backend.latency = 0) : w.Finished := by
  have hno : ∀ t, ¬ w.IsHeldUp t := fun t ht => Nat.ne_of_gt ht.latency_pos h0
  have hjobs : ∀ t b job l, w.task? t ≠ some (.worker b (some (job, l))) :=
    fun t b job l ht => hno t (h.jobs t b job l ht)
  refine ⟨fun t p ht => hno t (h.commands t p ht), fun t p ht => ?_, fun t b current ht => ?_,
    fun b bridge hb => ⟨h.triggers b bridge hb, ?_⟩⟩
  · cases hp : p.call with
    | none => rfl
    | some call => exact absurd h0 (Nat.ne_of_gt (h.looks t p ht (by rw [hp]; rfl)).latency_pos)
  · cases current with
    | none => rfl
    | some current => exact absurd ht (hjobs t b _ _)
  · refine Decidable.of_not_not fun hne => ?_
    obtain ⟨job, l, ht⟩ := h.queue b bridge hb hne
    exact hjobs _ _ _ _ ht

/-! ### Who sleeps -/

section Rest

variable {past : List Act} {start : Store} {L : List Change}

theorem AllAssured.sleeps (h : w.AllAssured) (hn : w.ready = []) {due : Nat}
    (hs : w.sleep? t = some due) : w.Sleeps t := by
  rcases (h t).timed due hs with hr | ⟨ht, hlt⟩
  · rw [hn] at hr
    cases hr
  · exact ⟨due, hs, ht, hlt, (h t).short due hs⟩

/-- Who waits for the backend sleeps. -/
theorem AllAssured.sleeps_of_entry (h : w.AllAssured) (hn : w.ready = [])
    (he : w.core.entry t = some k) (hk : k.sleep?.isSome) : w.Sleeps t := by
  obtain ⟨due, hdue⟩ := Option.isSome_iff_exists.1 hk
  have hs : w.sleep? t = some due := by
    unfold Client.sleep?
    rw [task?_of_entry he]
    exact hdue
  exact h.sleeps hn hs

/-- Who looks at the statistics sleeps, if no task can run. -/
theorem AllAssured.sleeps_of_look (h : w.AllAssured) (hn : w.ready = []) (hs : w.core.Sound)
    {p : Poller} (hp : w.task? t = some (.poller p)) (hc : p.call.isSome) : w.Sleeps t := by
  obtain ⟨call, hcall⟩ := Option.isSome_iff_exists.1 hc
  have hlook : w.core.looking t = some call := by
    show (w.task? t).bind Task.look? = _
    rw [hp]
    exact hcall
  obtain ⟨due, hdue⟩ := Option.isSome_iff_exists.1 (hs.looking t call hlook).isSome_sleep?
  have hsleep : w.sleep? t = some due := by
    unfold Client.sleep?
    rw [hp]
    show p.call.bind Call.sleep? = _
    rw [hcall]
    exact hdue
  exact h.sleeps hn hsleep

/-- Who is at the backend with a request sleeps. -/
theorem AllAssured.sleeps_of_stage (h : w.AllAssured) (hn : w.ready = []) (hs : w.core.Sound)
    {l : Lifecycle} (hl : w.stage t = some l) (ha : l.IsActive) : w.Sleeps t := by
  have hsound := hs.stage_sound t l hl
  rw [show w.stage t = _ from hs.agree t] at hl
  obtain ⟨k, he, hk⟩ := Option.bind_eq_some_iff.1 hl
  refine h.sleeps_of_entry hn he ?_
  rw [Task.sleep?_of_lifecycle? hk]
  exact hsound.isSome_sleep? ha

/-- In line for the connection everybody waits for the first, who sleeps: if that one could go on,
it would be woken. -/
theorem Attentive.isHeldUp (ha : Attentive past w) (ht : w.AllAssured) (hn : w.ready = [])
    {l : Lifecycle} (hl : w.stage t = some l) : w.IsHeldUp t := by
  have ho := ha.fit.fitting.orderly
  have hblocked : ∀ u k, w.stage u = some k → w.core.Blocked u k := by
    intro u k hk
    refine (ha.alert u k hk).woken.resolve_left ?_
    rw [hn]
    exact List.not_mem_nil
  have hin : t ∈ w.core.transition.queue := by
    rw [ho.mem, show w.core.stage t = some l from hl]
    exact Option.some_ne_none l
  obtain ⟨u, k, hh, hk, -⟩ := ho.exists_first hin
  have hsleeps : w.Sleeps u := by
    refine ht.sleeps_of_stage hn ha.fit.sound hk ?_
    have hb := hblocked u k hk
    cases k with
    | queued => exact absurd hh hb.2
    | leaving => exact absurd hh hb
    | dialing | sampling | hangingUp => exact trivial
  by_cases hu : u = t
  · exact ⟨u, hsleeps, .inl hu⟩
  · exact ⟨u, hsleeps, .inr (.inl ⟨hh, Lock.mem_line hin hh hu⟩)⟩

/-- Who has called the backend with a change of the settings sleeps. -/
theorem AllAssured.sleeps_of_writing (h : w.AllAssured) (hn : w.ready = []) (hs : w.core.Sound)
    {p : Writing} (he : w.core.entry t = some (.command (.writing p))) (hp : p.IsCalled) :
    w.Sleeps t :=
  h.sleeps_of_entry hn he (Writing.Sound.isSome_sleep? (hs.entry t _ he) hp)

/-- In line for the settings everybody waits for the first, who sleeps: it has the settings, and
would be ready if it had not called the backend. -/
theorem AllAssured.isHeldUp_of_writing (h : w.AllAssured) (hn : w.ready = []) (hs : w.core.Sound)
    (hl : Core.Listed start L w.core) {p : Writing}
    (he : w.core.entry t = some (.command (.writing p))) : w.IsHeldUp t := by
  -- who has the settings is not woken, and so has called the backend
  have hholder : ∀ u q, w.core.entry u = some (.command (.writing q)) →
      w.writes.holder = some u → w.Sleeps u := by
    intro u q hq hh
    refine h.sleeps_of_writing hn hs hq ?_
    cases q with
    | queued x =>
      have hin := (h u).handed x hq hh
      rw [hn] at hin
      cases hin
    | saving | toggling => exact trivial
  obtain ⟨ch, hm, rfl, hp, -⟩ := hl.writing he
  have hin : ch.task ∈ w.core.writes.queue := by
    rw [hl.queue]
    exact mem_lineOf.2 ⟨ch, hm, rfl, hp⟩
  cases hh : w.core.writes.holder with
  | none =>
    unfold Lock.queue at hin
    rw [hh, hl.wellFormed hh] at hin
    cases hin
  | some u =>
    have hu : u ∈ w.core.writes.queue := by
      unfold Lock.queue
      rw [hh]
      exact List.mem_cons_self
    rw [hl.queue] at hu
    obtain ⟨first, hfirst, rfl, hpending⟩ := mem_lineOf.1 hu
    obtain ⟨q, hq, -⟩ := hl.waiting hfirst hpending
    have hsleeps := hholder _ q hq hh
    by_cases hne : first.task = ch.task
    · exact ⟨_, hsleeps, .inl hne⟩
    · exact ⟨_, hsleeps, .inr (.inr ⟨hh, Lock.mem_line hin hh hne⟩)⟩

/-- Every command that has not ended sleeps, or is in line behind somebody who does. -/
theorem AllAssured.isHeldUp_of_command (h : w.AllAssured) (hn : w.ready = [])
    (ha : Attentive past w) (hl : Core.Listed start L w.core) {p : Point}
    (he : w.core.entry t = some (.command p)) : w.IsHeldUp t := by
  have hs := ha.fit.sound
  have hsound := hs.entry t _ he
  have hstage : ∀ l, (Task.command p).lifecycle? = some l → w.IsHeldUp t := fun l hk =>
    ha.isHeldUp h hn ((hs.stage_of_entry he).trans hk)
  have hcall : (Task.command p).sleep?.isSome → w.IsHeldUp t := fun hk =>
    ⟨t, h.sleeps_of_entry hn he hk, .inl rfl⟩
  cases p with
  | fresh c =>
    -- a command that has not begun is woken
    have hin := (h t).fresh c he
    rw [hn] at hin
    cases hin
  | lifecycle l | starting l => exact hstage l rfl
  | loading starts call => exact hcall (Call.Runs.isSome_sleep? hsound)
  | writing q => exact h.isHeldUp_of_writing hn hs hl he
  | sampling call => exact hcall (Call.Runs.isSome_sleep? hsound)
  | asking call => exact hcall (Call.Runs.isSome_sleep? hsound)

end Rest

/-! ### Runs -/

theorem doing_map_event (w : Client) (events : List Event) :
    w.doing (events.map .event) = w.after events := by
  unfold doing after
  rw [List.foldl_map]
  rfl

/-- Nothing waits in a channel whose receiver has ended, nor if no task can run. -/
theorem Intake.triggers_still {b : BridgeId} {bridge : Bridge} {acc han : List Trigger}
    {rd : List String} (hi : Intake b acc han rd w) (hb : w.bridge? b = some bridge)
    (hn : w.ready = []) : bridge.triggers.queue = [] := by
  cases hr : bridge.hasReceiver with
  | true => exact (hi.still hb hr hn).2.2
  | false =>
    exact ((hi.conserves _ (congrArg (Option.map Bridge.front) hb)).closed hr).2.1

/-- Who has jobs is at one of them if no task can run. -/
theorem Duty.busy_still {b : BridgeId} {bridge : Bridge} {han : List Trigger} {marks : List Mark}
    (hd : Duty b han marks w) (hb : w.bridge? b = some bridge) (hn : w.ready = [])
    (hj : bridge.jobs ≠ []) :
    ∃ job l, w.task? bridge.worker = some (.worker b (some (job, l))) := by
  obtain ⟨through, current, -, -, hs⟩ := hd.stands _ _ (crew_of_bridge? hb)
  cases hs with
  | busy he => exact ⟨_, _, task?_of_entry he⟩
  | idle he hr =>
    have hin := hr hj
    rw [hn] at hin
    cases hin
  | gone _ hnone => exact absurd hnone hj

/-- If no task can run, whatever is not finished is held up by somebody who sleeps. -/
theorem heldUp_after (config : Config) (servers : List Server) (latency : Nat) (version : String)
    (events : List Event) (hn : ((fresh config servers latency version).after events).ready = []) :
    ((fresh config servers latency version).after events).HeldUp := by
  have hstart := attentive_fresh config servers latency version
  have hi₀ := fun b => intake_fresh b config servers latency version
  have hd₀ := fun b => duty_fresh b config servers latency version
  obtain ⟨-, -, hl⟩ := listed_changes hstart.fit.sound (mirrors_make config _)
    (listed_make config _) (events.map .event)
  rw [doing_map_event] at hl
  have ht : ((fresh config servers latency version).after events).AllAssured :=
    (allAssured_make config (.make servers latency version)).after events
  have ha := hstart.after events
  have hs := ha.fit.sound
  -- each kind of work that may be left has a lemma of its own
  exact {
    commands := fun t p hp => ht.isHeldUp_of_command hn ha hl (entry_of_task? hp rfl)
    looks := fun t p hp hcall => ht.sleeps_of_look hn hs hp hcall
    triggers := fun b bridge hb => ((hi₀ b).after hstart.fit events).triggers_still hb hn
    jobs := fun t b job l hw => ha.isHeldUp ht hn (hs.stage_of_entry (entry_of_task? hw rfl))
    queue := fun b bridge hb hj => ((hd₀ b).after (hi₀ b) hstart events).busy_still hb hn hj }

end Client

/-! ## No deadlock -/

/-- If no task can run, every operation that is not finished sleeps in the latency of a call, or
waits in line, or for its worker, behind one that does; so without latency all are finished. -/
theorem no_deadlock (config : Config) (servers : List Server) (latency : Nat) (version : String)
    (events : List Event) :
    let w := (Client.fresh config servers latency version).after events
    w.ready = [] → w.HeldUp ∧ (latency = 0 → w.Finished) := by
  intro w hn
  have hheld := Client.heldUp_after config servers latency version events hn
  have hsound := (Client.attentive_fresh config servers latency version).fit.sound
  exact ⟨hheld, fun h0 => hheld.finished ((Client.latency_after hsound events).trans h0)⟩

/-- A connect sleeps in its call; the job of a worker is in line behind it, and another job waits
for that one.  Of two toggles the second is in line behind the first.  Without latency a connect is
through, and its poller waits. -/
theorem no_deadlock_in_line :
    let start := fun latency =>
      Client.fresh Config.default [Server.make "x" "" "" "" ""] latency "1"
    let w := (start 5).after [.openBridge, .call (.connect "x"), .send 0 .quickConnect,
      .send 0 .quickConnect, .poll 1, .poll 0]
    let v := (start 5).after
      [.call (.write (.toggle .killSwitch)), .call (.write (.toggle .killSwitch))]
    (w.ready = [] ∧ w.IsHeldUp 0) ∧ (v.ready = [] ∧ v.IsHeldUp 1) ∧
      ((start 0).after [.call (.connect "x"), .poll 1]).Finished := by
  have hw := no_deadlock Config.default [Server.make "x" "" "" "" ""] 5 "1" [.openBridge,
    .call (.connect "x"), .send 0 .quickConnect, .send 0 .quickConnect, .poll 1,
    .poll 0] rfl
  have hv := no_deadlock Config.default [Server.make "x" "" "" "" ""] 5 "1"
    [.call (.write (.toggle .killSwitch)), .call (.write (.toggle .killSwitch))] rfl
  have h0 := no_deadlock Config.default [Server.make "x" "" "" "" ""] 0 "1"
    [.call (.connect "x"), .poll 1] (by decide +kernel)
  exact ⟨⟨rfl, hw.1.jobs 0 0 _ _ rfl⟩, ⟨rfl, hv.1.commands 1 _ rfl⟩, h0.2 rfl⟩

end TunnelSession
