/-
  What the basic functions of a client write.

  FORMS.  A function that wakes somebody, publishes a state, hands the connection on or starts and
  stops pollers is, up to who is woken, an update of a few fields (`wakeAll_eq`, `update_eq`,
  `stopPolling_eq`, `startPolling_eq`, `releaseTransition_eq`).  Whoever asks what such a function
  leaves alone rewrites with its form; nobody opens it again.

  TASKS.  Where a task stands is written by `setTask`, which touches nothing else
  (`task?_setTask_of_ne`).

  BRIDGES.  Five events from outside happen to a bridge.  All of them write that bridge at most, but
  neither its worker nor its jobs, and wake somebody for it at most (`BridgeWrite`).
-/
import Mathlib.Data.List.Basic
import TunnelSession.Proofs.Core

namespace TunnelSession

/-- The bridge that an event from outside happens to. -/
def Event.bridge? : Event → Option BridgeId
  | .deactivate b | .dropSender b | .dropPages b | .takePages b | .send b _ => some b
  | _ => none

namespace Client

variable {w : Client} {t : TaskId}

/-! ## Waking -/

/-- Waking adds a task to those that are ready, or nobody. -/
theorem wake_eq (w : Client) (t : TaskId) :
    ∃ more, w.wake t = { w with ready := w.ready ++ more } := by
  unfold wake
  split
  · exact ⟨[], by rw [List.append_nil]⟩
  · exact ⟨[t], rfl⟩

/-- Waking many adds tasks, one after the other. -/
theorem wakeAll_eq (w : Client) (ts : List TaskId) :
    ∃ more, w.wakeAll ts = { w with ready := w.ready ++ more } := by
  unfold wakeAll
  induction ts generalizing w with
  | nil => exact ⟨[], by rw [List.foldl_nil, List.append_nil]⟩
  | cons t ts ih =>
    -- first the head, which may add one, and then the rest
    obtain ⟨more, h⟩ := wake_eq w t
    obtain ⟨rest, hr⟩ := ih (w.wake t)
    refine ⟨more ++ rest, ?_⟩
    rw [List.foldl_cons, hr, h, List.append_assoc]

/-- Time passes: the timers that are due are taken back, and their tasks are woken. -/
theorem tickTo_eq (w : Client) (now : Nat) :
    ∃ more, w.tickTo now = { w with
      now := now
      timers := w.timers.filter fun t => !decide (t.1 ≤ now)
      ready := w.ready ++ more } :=
  wakeAll_eq { w with now := now, timers := w.timers.filter fun t => !decide (t.1 ≤ now) } _

/-- Who was woken, and has not ended, is ready. -/
theorem mem_ready_wakeAll {ts : List TaskId} {u : TaskId} (hu : u ∈ ts)
    (he : w.hasEnded u = false) : u ∈ (w.wakeAll ts).ready := by
  induction ts generalizing w with
  | nil => cases hu
  | cons t ts ih =>
    obtain ⟨more, h⟩ := wake_eq w t
    have he' : (w.wake t).hasEnded u = false := by
      rw [h]
      exact he
    rcases List.mem_cons.1 hu with rfl | hu
    · -- the head is woken now, and the rest only adds to that
      obtain ⟨rest, hr⟩ := wakeAll_eq (w.wake u) ts
      have hmem : u ∈ (w.wake u).ready := by
        unfold wake
        split
        · rename_i hc
          simpa [he] using hc
        · exact List.mem_append_right _ (.head _)
      show u ∈ ((w.wake u).wakeAll ts).ready
      rw [hr]
      exact List.mem_append_left _ hmem
    · -- who is further back is woken when its turn comes
      exact ih hu he'

/-- Who is woken has a turn to come, if it has not ended. -/
theorem mem_ready_wake {task : Task} (h : w.core.entry t = some task)
    (hk : task.isEnded = false) : t ∈ (w.wake t).ready := by
  have hin : t ∈ (w.wakeAll [t]).ready :=
    mem_ready_wakeAll (List.mem_singleton.2 rfl) ((hasEnded_of_entry h).trans hk)
  exact hin

/-- An update changes the session, and publishes its state if that is news. The version counts what
was published. -/
theorem update_eq (w : Client) (f : Session → Session) :
    ∃ more, w.update f = { w with
      session := f w.session
      published := (f w.session).state
      version := if (f w.session).state = w.published then w.version else w.version + 1
      ready := w.ready ++ more } := by
  unfold update
  dsimp only
  split
  · rename_i h
    refine ⟨[], ?_⟩
    rw [List.append_nil, h]
  · exact wakeAll_eq _ _

/-! ## The connection -/

/-- Who gives the connection back wakes the next in line. -/
theorem releaseTransition_eq (w : Client) :
    ∃ more, w.releaseTransition = { w with
      transition := w.transition.release
      ready := w.ready ++ more } :=
  wakeAll_eq _ _

/-- Who leaves the line for the connection, or gives it back, changes the lock and wakes at most the
next in line. -/
theorem withdrawTransition_eq (w : Client) (t : TaskId) :
    ∃ more, w.withdrawTransition t = { w with
      transition := w.transition.withdraw t
      ready := w.ready ++ more } := by
  unfold withdrawTransition Lock.withdraw
  split
  · exact releaseTransition_eq w
  · exact ⟨[], by rw [List.append_nil]⟩

/-- Cancelling is one disconnect more; all connects that wait are woken and are not in the list any
more. -/
theorem cancelConnects_eq (w : Client) :
    ∃ more, w.cancelConnects = { w with
      epoch := w.epoch + 1
      cancellable := []
      ready := w.ready ++ more } :=
  wakeAll_eq _ _

/-! ## Pollers that are started and stopped -/

/-- A poller that was told to stop; any other task is as it was. -/
def stopped : Task → Task
  | .poller p => .poller { p with cancelled := true }
  | task => task

/-- The tasks when the poller that was started before is told to stop. -/
def stopIn (old : Option TaskId) (tasks : List Task) : List Task :=
  old.elim tasks fun u => tasks.modify u stopped

/-- Telling a task to stop that is no poller does nothing. -/
theorem modify_stopped {tasks : List Task} (h : ∀ p, tasks[t]? ≠ some (.poller p)) :
    tasks.modify t stopped = tasks := by
  refine List.ext_getElem? fun u => ?_
  rw [List.getElem?_modify]
  cases hk : tasks[u]? with
  | none => rfl
  | some task =>
    show some (if t = u then stopped task else task) = some task
    -- only the task that is told to stop could differ
    by_cases hu : t = u
    · subst hu
      rw [if_pos rfl]
      cases task with
      | poller p => exact absurd hk (h p)
      | command | receiver | worker | ended => rfl
    · rw [if_neg hu]

/-- A poller that is told to stop is woken, so that it ends in its next turn. -/
theorem cancelPoller_eq (w : Client) (t : TaskId) :
    ∃ more, w.cancelPoller t = { w with
      tasks := w.tasks.modify t stopped
      ready := w.ready ++ more } := by
  unfold cancelPoller
  split
  · rename_i p hp
    rw [List.modify_eq_set_getElem?, show w.tasks[t]? = some (.poller p) from hp]
    exact wake_eq _ _
  · rename_i hp
    refine ⟨[], ?_⟩
    rw [List.append_nil, modify_stopped hp]

/-- To stop polling empties the slot and tells the poller that was in it to stop. -/
theorem stopPolling_eq (w : Client) :
    ∃ more log, w.stopPolling = { w with
      poller := none
      tasks := stopIn w.poller w.tasks
      ready := w.ready ++ more
      log := log } := by
  unfold stopPolling
  cases h : w.poller with
  | none =>
    refine ⟨[], w.log, ?_⟩
    rw [List.append_nil]
    -- an empty slot: the client stays as it is, which is seen field by field
    obtain ⟨⟩ := w
    cases h
    rfl
  | some u =>
    obtain ⟨more, hc⟩ := cancelPoller_eq { w with poller := none } u
    refine ⟨more, .pollingStopped :: w.log, ?_⟩
    dsimp only
    rw [hc]
    rfl

/-- To start polling puts a new poller into the slot; the one that was there before is told to
stop. -/
theorem startPolling_eq (w : Client) (period : Nat) :
    ∃ more log, w.startPolling period = { w with
      poller := some w.tasks.length
      tasks := stopIn w.poller
        (w.tasks ++ [.poller ⟨false, w.version, period, w.now + period, none⟩])
      ready := w.ready ++ more
      log := log } := by
  unfold startPolling spawn
  dsimp only
  obtain ⟨more, hw⟩ := wake_eq { w with
    tasks := w.tasks ++ [.poller ⟨false, w.version, period, w.now + period, none⟩] } w.tasks.length
  rw [hw]
  cases h : w.poller with
  | none => exact ⟨more, .pollingStarted period :: w.log, rfl⟩
  | some old =>
    -- the old poller is told to stop when the new one is in the slot
    dsimp only [Option.elim]
    obtain ⟨rest, hc⟩ := cancelPoller_eq { w with
      poller := some w.tasks.length
      tasks := w.tasks ++ [.poller ⟨false, w.version, period, w.now + period, none⟩]
      ready := w.ready ++ more } old
    rw [hc]
    exact ⟨more ++ rest, .pollingStarted period :: w.log, by rw [← List.append_assoc]; rfl⟩

theorem session_update (w : Client) (f : Session → Session) :
    (w.update f).session = f w.session :=
  congrArg Core.session (core_update w f)

theorem transition_update (w : Client) (f : Session → Session) :
    (w.update f).transition = w.transition :=
  congrArg Core.transition (core_update w f)

theorem session_stopPolling (w : Client) : w.stopPolling.session = w.session :=
  congrArg Core.session (core_stopPolling w)

theorem transition_stopPolling (w : Client) : w.stopPolling.transition = w.transition :=
  congrArg Core.transition (core_stopPolling w)

theorem poller_startPolling (w : Client) (period : Nat) :
    (w.startPolling period).poller = some w.tasks.length := by
  obtain ⟨more, log, h⟩ := startPolling_eq w period
  rw [h]

/-! ## Where a task stands -/

theorem setTask_self {k : Task} (h : w.task? t = some k) : w.setTask t k = w := by
  obtain ⟨hlt, hk⟩ := List.getElem?_eq_some_iff.1 h
  unfold setTask
  rw [← hk, List.set_getElem_self]

theorem setTask_of_none (k : Task) (h : w.task? t = none) : w.setTask t k = w := by
  unfold setTask
  rw [List.set_eq_of_length_le (List.getElem?_eq_none_iff.1 h)]

/-- Writing a task leaves the others where they stand. -/
theorem task?_setTask_of_ne (w : Client) {u : TaskId} (k : Task) (h : u ≠ t) :
    (w.setTask t k).task? u = w.task? u :=
  List.getElem?_set_ne fun he => h he.symm

theorem stage_setTask_of_ne (w : Client) {u : TaskId} (k : Task) (h : u ≠ t) :
    (w.setTask t k).stage u = w.stage u :=
  congrArg (·.bind Task.lifecycle?) (task?_setTask_of_ne w k h)

/-! ## What happens to a bridge -/

/-- What an event from outside makes of a client by a bridge: nothing, or the bridge is changed, but
neither in its worker nor in its jobs, and somebody is woken for it or nobody. -/
inductive BridgeWrite (w : Client) (b : BridgeId) : Client → Prop where
  | nothing : BridgeWrite w b w
  | change (f : Bridge → Bridge) (worker : ∀ r, (f r).worker = r.worker)
      (jobs : ∀ r, (f r).jobs = r.jobs) : BridgeWrite w b (w.setBridge b f)
  | rouse (f : Bridge → Bridge) (worker : ∀ r, (f r).worker = r.worker)
      (jobs : ∀ r, (f r).jobs = r.jobs) (t : TaskId) : BridgeWrite w b ((w.setBridge b f).wake t)

/-- An event at a bridge writes that bridge at most. What is done with a bridge that does not exist
is nothing, and so is an offer to a channel that does not take it. -/
theorem bridgeWrite_happen (w : Client) {e : Event} {b : BridgeId} (he : e.bridge? = some b) :
    BridgeWrite w b (w.happen e) := by
  cases e with
  | deactivate =>
    cases he
    show BridgeWrite w b (w.deactivate b)
    unfold deactivate
    split
    · refine .rouse _ ?_ ?_ _ <;> exact fun _ => rfl
    · exact .nothing
  | dropSender =>
    cases he
    show BridgeWrite w b (w.dropSender b)
    unfold dropSender
    split
    · refine .rouse _ ?_ ?_ _ <;> exact fun _ => rfl
    · exact .nothing
  | dropPages | takePages =>
    cases he
    exact .change _ (fun _ => rfl) fun _ => rfl
  | send _ e =>
    cases he
    show BridgeWrite w b (w.offerTrigger b e).2
    unfold offerTrigger
    split
    · split
      · refine .rouse _ ?_ ?_ _ <;> exact fun _ => rfl
      · exact .nothing
    · exact .nothing
  | _ => cases he

end Client

end TunnelSession
