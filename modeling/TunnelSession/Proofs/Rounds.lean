/-
  What an event does, and what every run keeps.

  POLLERS.  A poller touches the statistics only, and ends when it was told to stop or when the
  connection is not up (`Watch`).

  OUTSIDE.  An event from outside wakes tasks and adds some; it leaves the session alone (`Outer`).

  RUNS.  An event is a change from outside, the turn of a task in parts, or that of a poller
  (`happen_cases`).  So what those keep holds throughout every run (`records_after`).
-/
import TunnelSession.Proofs.TurnParts

namespace TunnelSession

/-- Is the poller started or stopped by hand? -/
def Event.Drives : Event → Prop
  | .startPolling _ | .stopPolling => True
  | _ => False

namespace Client

open TunnelSession.Core

variable {w w' v v' u : Client} {t : TaskId} {ρ : List Record}

/-! ## Tasks that are no pollers -/

/-- Every turn of a task that is no poller is made of parts, by the kind of the task: a command is
one part or two, and receivers and workers have one for each trigger or job. -/
theorem turnParts_run (hw : w.Fit) (hp : ∀ p, w.task? t ≠ some (.poller p)) {ready : List TaskId}
    (hr : ready = w.ready ∨ ready = w.ready.erase t) :
    TurnParts t w ({ w with ready := ready }.turnRecords t) ({ w with ready := ready }.run t) := by
  -- nobody, or somebody who has ended, does nothing
  have hidle : ∀ how, w.task? t = none ∨ w.task? t = some (.ended how) →
      TurnParts t w [] { w with ready := ready } := by
    intro how hk
    have hself : w.setTask t (.ended how) = w := by
      rcases hk with hk | hk
      · exact setTask_of_none _ hk
      · exact setTask_self hk
    have hself' : ({ w with ready := ready } : Client).setTask t (.ended how) =
        { w with ready := ready } := by
      rcases hk with hk | hk
      · exact setTask_of_none (w := { w with ready := ready }) _ hk
      · exact setTask_self (w := { w with ready := ready }) hk
    have hstage : w.stage t = none := by
      show (w.task? t).bind Task.lifecycle? = none
      rcases hk with hk | hk <;> rw [hk] <;> rfl
    have h := turnPart_silent (w := w) (.ended how) (.ended how) (.refl { w with ready := ready })
      hp rfl rfl hr (by rw [hself]; exact hstage) rfl
      (by rw [hself, hself']; exact .refl _) fun _ _ => rfl
    rw [hself, hself'] at h
    exact h.single
  unfold turnRecords run
  rw [show ({ w with ready := ready } : Client).task? t = w.task? t from rfl]
  cases hk : w.task? t with
  | none => exact hidle .finished (.inl hk)
  | some task =>
    cases task with
    | command p => exact turnParts_runCommand hw (entry_of_task? hk rfl) hr
    | poller p => exact absurd hk (hp p)
    | receiver b => exact turnParts_runReceiver hw (entry_of_task? hk rfl) hr
    | worker b current => exact turnParts_runWorker hw (entry_of_task? hk rfl) hr
    | ended how => exact hidle how (.inr hk)

/-! ## Pollers -/

/-- How a poller may go on: as it is, or not at all. -/
def Poller.Leads (p : Poller) (w : Client) : Task → Prop
  | .poller q => q.cancelled = p.cancelled ∧ q.period = p.period
  | .ended _ => p.period = 0 ∨ p.cancelled = true ∨ w.published.isConnected = false
  | _ => False

/-- A turn of a poller. -/
structure Watch (t : TaskId) (v v' : Client) : Prop where
  turn : ∃ p w k, v.task? t = some (.poller p) ∧ ConnKept { v with ready := v.ready.erase t } w ∧
    v' = w.setTask t k ∧ Poller.Leads p w k ∧ (p.cancelled = true → w.session = v.session)
  steps : Steps v.core [] v'.core

/-- Looks end with the poller as it is, or with its end because the connection is not up. -/
theorem leads_pollerTurn (looks : Nat) (q : Poller) (w : Client) :
    ∃ u k, ConnKept w u ∧ pollerTurn t looks q w = u.setTask t k ∧ Poller.Leads q u k := by
  -- the induction is on the looks that the turn may take at most
  induction looks generalizing w q with
  | zero =>
    unfold pollerTurn
    dsimp only
    split
    · rename_i h
      exact ⟨_, _, (connKept_disarm w t).trans (connKept_say _ _), rfl, .inr (.inr h.2)⟩
    · exact ⟨_, _, connKept_arm w _ t, rfl, rfl, rfl⟩
  | succ looks ih =>
    unfold pollerTurn
    dsimp only
    split
    · rename_i h
      exact ⟨_, _, (connKept_disarm w t).trans (connKept_say _ _), rfl, .inr (.inr h.2)⟩
    · split
      · exact ⟨_, _, connKept_arm w _ t, rfl, rfl, rfl⟩
      · -- a look is due
        have hl := connKept_fetchStats w t
        rcases hr : w.fetchStats t with ⟨v, call | kept⟩
        · -- the look takes longer
          rw [hr] at hl
          exact ⟨v, _, hl, rfl, rfl, rfl⟩
        · -- it is through, and the next one may be due
          rw [hr] at hl
          obtain ⟨u, k, hu, he, hk⟩ := ih
            { q with seen := w.version, due := nextLook q.due q.period w.now, call := none }
            (v.reportLook kept)
          refine ⟨u, k, (hl.trans (connKept_reportLook v kept)).trans hu, he, ?_⟩
          cases k <;> exact hk

theorem watch_runPoller (hs : w.core.Sound) {p : Poller} (hp : w.task? t = some (.poller p)) :
    Watch t w ({ w with ready := w.ready.erase t }.runPoller t p) := by
  refine ⟨?_, steps_runPoller (w := { w with ready := w.ready.erase t }) hs hp⟩
  unfold runPoller
  dsimp only
  split
  · rename_i h0
    exact ⟨p, _, _, hp, .refl _, rfl, .inl h0, fun _ => rfl⟩
  · split
    · rename_i hc
      exact ⟨p, _, _, hp, (connKept_disarm _ t).trans (connKept_say _ _), rfl, .inr (.inl hc),
        fun _ => rfl⟩
    · rename_i hc
      split
      · obtain ⟨u, k, hu, he, hk⟩ :=
          leads_pollerTurn (t := t) _ p { w with ready := w.ready.erase t }
        exact ⟨p, u, k, hp, hu, he, hk, fun h => absurd h hc⟩
      · rename_i call hcall
        have hl := connKept_resumeStats { w with ready := w.ready.erase t } t call
        rcases hr : ({ w with ready := w.ready.erase t } : Client).resumeStats t call with
          ⟨v, call' | kept⟩
        · rw [hr] at hl
          exact ⟨p, v, _, hp, hl, rfl, ⟨rfl, rfl⟩, fun h => absurd h hc⟩
        · rw [hr] at hl
          obtain ⟨u, k, hu, he, hk⟩ := leads_pollerTurn (t := t) _ { p with call := none }
            (v.reportLook kept)
          refine ⟨p, u, k, hp, (hl.trans (connKept_reportLook v kept)).trans hu, he, ?_,
            fun h => absurd h hc⟩
          cases k <;> exact hk

/-! ## Events from outside -/

/-- What an event from outside leaves alone. -/
structure Outer (e : Event) (v v' : Client) : Prop where
  config : v'.config = v.config
  now : (∀ ms, e ≠ .pass ms) → v'.now = v.now
  session : v'.session = v.session
  published : v'.published = v.published
  version : v'.version = v.version
  transition : v'.transition = v.transition
  epoch : v'.epoch = v.epoch
  cancellable : v'.cancellable = v.cancellable
  ready : v.ready <+: v'.ready
  poller : ¬ e.Drives → v'.poller = v.poller
  /-- New tasks are no pollers, and all others are as they were. -/
  tasks : ¬ e.Drives → ∃ more, v'.tasks = v.tasks ++ more ∧ ∀ k ∈ more, k.seen? = some k
  task : ∀ u k, k.seen? = some k → v.task? u = some k → v'.task? u = some k

/-- A change of the clock, the backend, the bridges and the timers; new tasks, and some woken. -/
theorem outer_with {e : Event} {now : Nat} {tasks : List Task} {ready : List TaskId}
    (backend : Backend) (bridges : List Bridge) (timers : List (Nat × TaskId)) (log : List Notice)
    (hn : (∀ ms, e ≠ .pass ms) → now = w.now)
    (ht : ∃ more, tasks = w.tasks ++ more ∧ ∀ k ∈ more, k.seen? = some k)
    (hr : w.ready <+: ready) :
    Outer e w { w with
      now := now
      backend := backend
      bridges := bridges
      tasks := tasks
      ready := ready
      timers := timers
      log := log } := by
  obtain ⟨more, rfl, hm⟩ := ht
  refine ⟨rfl, hn, rfl, rfl, rfl, rfl, rfl, rfl, hr, fun _ => rfl, fun _ => ⟨more, rfl, hm⟩, ?_⟩
  intro t k _ hk
  show (w.tasks ++ more)[t]? = some k
  rw [List.getElem?_append_left (List.getElem?_eq_some_iff.1 hk).1]
  exact hk

/-- No new tasks. -/
theorem no_more (w : Client) : ∃ more, w.tasks = w.tasks ++ more ∧ ∀ k ∈ more, k.seen? = some k :=
  ⟨[], (List.append_nil _).symm, fun _ hk => nomatch hk⟩

theorem outer_refl (e : Event) (w : Client) : Outer e w w :=
  outer_with w.backend w.bridges w.timers w.log (fun _ => rfl) (no_more w) List.prefix_rfl

/-- A new task. -/
theorem outer_spawn (e : Event) (w : Client) {task : Task} (h : task.seen? = some task) :
    Outer e w (w.spawn task).2 := by
  refine outer_with w.backend w.bridges w.timers w.log (fun _ => rfl) ⟨[task], rfl, ?_⟩
    List.prefix_rfl
  intro k hk
  cases List.mem_singleton.1 hk
  exact h

theorem Outer.wake {e : Event} (h : Outer e w v) (t : TaskId) : Outer e w (v.wake t) := by
  obtain ⟨more, hw⟩ := wake_eq v t
  rw [hw]
  exact ⟨h.config, h.now, h.session, h.published, h.version, h.transition, h.epoch, h.cancellable,
    h.ready.trans (List.prefix_append _ _), h.poller, h.tasks, h.task⟩

/-- Two changes from outside are one. -/
theorem Outer.trans {e : Event} (h : Outer e w v) (h' : Outer e v v') : Outer e w v' where
  config := h'.config.trans h.config
  now hn := (h'.now hn).trans (h.now hn)
  session := h'.session.trans h.session
  published := h'.published.trans h.published
  version := h'.version.trans h.version
  transition := h'.transition.trans h.transition
  epoch := h'.epoch.trans h.epoch
  cancellable := h'.cancellable.trans h.cancellable
  ready := h.ready.trans h'.ready
  poller hd := (h'.poller hd).trans (h.poller hd)
  tasks hd := by
    obtain ⟨more, hm, hk⟩ := h.tasks hd
    obtain ⟨rest, hr, hk'⟩ := h'.tasks hd
    refine ⟨more ++ rest, by rw [hr, hm, List.append_assoc], fun k hmem => ?_⟩
    rcases List.mem_append.1 hmem with hmem | hmem
    · exact hk k hmem
    · exact hk' k hmem
  task u k hs hk := h'.task u k hs (h.task u k hs hk)

theorem outer_setBridge (e : Event) (w : Client) (b : BridgeId) (f : Bridge → Bridge) :
    Outer e w (w.setBridge b f) :=
  outer_with w.backend _ w.timers w.log (fun _ => rfl) (no_more w) List.prefix_rfl

theorem BridgeWrite.outer {b : BridgeId} (h : BridgeWrite w b v) (e : Event) : Outer e w v := by
  cases h with
  | nothing => exact outer_refl e w
  | change f => exact outer_setBridge e w b f
  | rouse f _ _ t => exact (outer_setBridge e w b f).wake t

/-- Opening a bridge makes its worker and its receiver, and wakes both. -/
theorem outer_activate (w : Client) : Outer .openBridge w w.activate.2 := by
  have hworker := (outer_spawn .openBridge w
    (rfl : (Task.worker w.bridges.length none).seen? = some _)).wake w.tasks.length
  unfold activate
  dsimp only [spawn] at hworker ⊢
  -- the client when the worker is there
  generalize Client.wake _ w.tasks.length = v at hworker
  have hreceiver := (outer_spawn .openBridge v
    (rfl : (Task.receiver w.bridges.length).seen? = some _)).wake v.tasks.length
  refine (hworker.trans hreceiver).trans ?_
  exact outer_with _ _ _ _ (fun _ => rfl) (no_more _) List.prefix_rfl

/-- An event that gives nobody a turn wakes tasks, adds some, or changes a bridge, and leaves the
connection alone but for the poller that is driven by hand. -/
theorem outer_happen (w : Client) {e : Event} (he : e.IsQuiet) : Outer e w (w.happen e) := by
  cases e with
  | call | poll => cases he
  | go command => exact (outer_spawn _ w rfl).wake _
  | pass ms =>
    -- time passes, and the timers that are due wake their tasks
    obtain ⟨more, hw⟩ := tickTo_eq w (w.now + ms)
    show Outer _ w (w.tickTo (w.now + ms))
    rw [hw]
    exact outer_with _ _ _ _ (fun h => absurd rfl (h ms)) (no_more w) (List.prefix_append _ _)
  | fail op e => exact outer_with _ _ _ _ (fun _ => rfl) (no_more w) List.prefix_rfl
  | pin op value => exact outer_with _ _ _ _ (fun _ => rfl) (no_more w) List.prefix_rfl
  | startPolling period =>
    -- pollers that are started and stopped by hand are the one thing that touches the slot
    obtain ⟨more, log, h⟩ := startPolling_eq w period
    show Outer _ w (w.startPolling period)
    rw [h]
    refine ⟨rfl, fun _ => rfl, rfl, rfl, rfl, rfl, rfl, rfl, List.prefix_append _ _,
      fun hd => absurd trivial hd, fun hd => absurd trivial hd, fun u k hs hk => ?_⟩
    exact (getElem?_stopIn hs).2 ((getElem?_append_poller hs).2 hk)
  | stopPolling =>
    obtain ⟨more, log, h⟩ := stopPolling_eq w
    show Outer _ w w.stopPolling
    rw [h]
    exact ⟨rfl, fun _ => rfl, rfl, rfl, rfl, rfl, rfl, rfl, List.prefix_append _ _,
      fun hd => absurd trivial hd, fun hd => absurd trivial hd,
      fun _ _ hs => (getElem?_stopIn hs).2⟩
  | openBridge => exact outer_activate w
  | deactivate | dropSender | dropPages | takePages | send =>
    exact (bridgeWrite_happen w rfl).outer _

/-! ## Runs -/

/-- The poll of a poller is one turn of it. -/
theorem watch_poll (hs : w.core.Sound) {p : Poller} (hp : w.task? t = some (.poller p)) :
    w.recordsOf (.poll t) = [] ∧ Watch t w (w.happen (.poll t)) := by
  have hp' : ({ w with ready := w.ready.erase t } : Client).task? t = some (.poller p) := hp
  constructor
  · show ({ w with ready := w.ready.erase t } : Client).turnRecords t = []
    unfold turnRecords
    rw [hp']
  · have hrun : w.happen (.poll t) = { w with ready := w.ready.erase t }.runPoller t p := by
      show ({ w with ready := w.ready.erase t } : Client).run t = _
      unfold run
      rw [hp']
    rw [hrun]
    exact watch_runPoller hs hp

/-- A poll is a turn in parts, or a turn of a poller. -/
theorem poll_cases (hw : w.Fit) (t : TaskId) :
    TurnParts t w (w.recordsOf (.poll t)) (w.happen (.poll t)) ∨
      w.recordsOf (.poll t) = [] ∧ Watch t w (w.happen (.poll t)) := by
  by_cases hp : ∃ p, w.task? t = some (.poller p)
  · obtain ⟨p, hp⟩ := hp
    exact .inr (watch_poll hw.sound hp)
  · exact .inl (turnParts_run hw (fun p h => hp ⟨p, h⟩) (.inr rfl))

/-- An event is a change from outside, a turn in parts, or a turn of a poller. -/
theorem happen_cases (hw : w.Fit) (e : Event) :
    ∃ v, (v = w ∨ Outer e w v ∧ (v.core = w.core ∨ Outside w.core e v.core)) ∧
      ((∃ t, TurnParts t v (w.recordsOf e) (w.happen e)) ∨
        w.recordsOf e = [] ∧ ∃ t, Watch t v (w.happen e)) := by
  cases e with
  | call command =>
    -- the command is made from outside, and then has its turn in parts
    have hc := core_spawn_call hw.sound command
    have hout : Outside w.core (.call command) (w.spawn (.command (.fresh command))).2.core := by
      rw [hc]
      exact .call command
    refine ⟨_, .inr ⟨outer_spawn (.call command) w rfl, .inr hout⟩, .inl ⟨w.tasks.length, ?_⟩⟩
    refine turnParts_run (w := (w.spawn (.command (.fresh command))).2) (hw.outside hout)
      (fun p hp => ?_) (.inl rfl)
    rw [task?_spawn, if_pos rfl] at hp
    cases hp
  | poll t => exact ⟨w, .inl rfl, (poll_cases hw t).imp (⟨t, ·⟩) fun h => ⟨h.1, t, h.2⟩⟩
  | _ =>
    exact ⟨_, .inr ⟨outer_happen w trivial, outside_happen hw.sound trivial⟩, .inl ⟨0, .refl _⟩⟩

section Invariant

variable {I : List Record → Client → Prop} {P : Event → Prop}

/-- What every part of a turn keeps, all its parts keep. -/
theorem invariant_turnParts
    (hpart : ∀ past t v ρ v', v.Fit → I past v → TurnPart t v ρ v' → I (past ++ ρ) v')
    {past : List Record} (hw : v.Fit) (hi : I past v) (h : TurnParts t v ρ v') :
    v'.Fit ∧ I (past ++ ρ) v' := by
  induction h generalizing past with
  | refl =>
    rw [List.append_nil]
    exact ⟨hw, hi⟩
  | head h _ ih =>
    rw [← List.append_assoc]
    exact ih (hw.steps h.steps) (hpart _ _ _ _ _ hw hi h)

/-- What every part of a turn, every turn of a poller and every change from outside keeps, every run
keeps. -/
theorem records_after
    (hpart : ∀ past t v ρ v', v.Fit → I past v → TurnPart t v ρ v' → I (past ++ ρ) v')
    (hwatch : ∀ past t v v', v.Fit → I past v → Watch t v v' → I past v')
    (hout : ∀ past e v v', P e → v.Fit → I past v → Outer e v v' →
      (v'.core = v.core ∨ Outside v.core e v'.core) → I past v')
    (hw : w.Fit) (past : List Record) (hi : I past w) (events : List Event)
    (hp : ∀ e ∈ events, P e) :
    (w.after events).Fit ∧ I (past ++ w.records events) (w.after events) := by
  induction events generalizing w past with
  | nil =>
    rw [records, List.append_nil]
    exact ⟨hw, hi⟩
  | cons e events ih =>
    obtain ⟨v, hv, hturn⟩ := happen_cases hw e
    -- the client between the change from outside and the turn
    have hmid : v.Fit ∧ I past v := by
      rcases hv with rfl | ⟨ho, hc⟩
      · exact ⟨hw, hi⟩
      · refine ⟨?_, hout _ _ _ _ (hp e List.mem_cons_self) hw hi ho hc⟩
        rcases hc with hc | hc
        · exact hw.steps (by rw [hc]; exact .refl _)
        · exact hw.outside hc
    -- and the client after the turn
    have hend : (w.happen e).Fit ∧ I (past ++ w.recordsOf e) (w.happen e) := by
      rcases hturn with ⟨t, h⟩ | ⟨hn, t, h⟩
      · exact invariant_turnParts hpart hmid.1 hmid.2 h
      · rw [hn, List.append_nil]
        exact ⟨hmid.1.steps h.steps, hwatch _ _ _ _ hmid.1 hmid.2 h⟩
    rw [after_cons, records, ← List.append_assoc]
    exact ih hend.1 _ hend.2 fun e' he => hp e' (List.mem_cons_of_mem _ he)

end Invariant

end Client

end TunnelSession
