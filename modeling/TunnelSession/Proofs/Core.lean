/-
  What of a client its requests see and change.

  CORE.  `Core` has the clock, the session, the kill switch, the backend, the two locks, the count
  of disconnects, the bridges, the tasks that are no pollers, and the looks of those that are.  It
  leaves out who is woken when: the ready list, the timers, the connects that a disconnect wakes,
  the watchers, the log, and everything else about pollers.

  STAGES.  `entry` is where a task stands, `stage` its connect or disconnect.  They agree between
  two polls; while a task runs, its `stage` is ahead of its `entry`, which is written at the end.

  EQUATIONS.  Every step of `Client.Basic` and the pollers' handling is an equation on cores.
-/
import Mathlib.Logic.Function.Basic
import TunnelSession.Proofs.Run

namespace TunnelSession

/-- The task, if it is no poller. -/
def Task.seen? : Task → Option Task
  | .poller _ => none
  | task => some task

/-- The look that a poller has under way. -/
def Task.look? : Task → Option (Call Stats)
  | .poller p => p.call
  | _ => none

/-- The connect or the disconnect that a task is at. -/
def Task.lifecycle? : Task → Option Lifecycle
  | .command (.lifecycle l) => some l
  | .command (.starting l) => some l
  | .worker _ (some (_, l)) => some l
  | _ => none

/-- The lock after a task gave it up, or its place in line. -/
def Lock.withdraw (l : Lock) (t : TaskId) : Lock :=
  if l.isHeldBy t then l.release else { l with line := l.line.filter (· != t) }

/-- What of a client its requests see and change. -/
structure Core where
  now : Nat
  session : Session
  killSwitch : KillSwitch
  backend : Backend
  transition : Lock
  writes : Lock
  epoch : Nat
  bridges : List Bridge
  /-- How many tasks there are. -/
  size : Nat
  entry : TaskId → Option Task
  stage : TaskId → Option Lifecycle
  looking : TaskId → Option (Call Stats)

namespace Core

/-- Put a task at a stage. -/
def put (c : Core) (t : TaskId) (l : Option Lifecycle) : Core :=
  { c with stage := Function.update c.stage t l }

/-- Write where a task stands. -/
def write (c : Core) (t : TaskId) (task : Task) : Core :=
  { c with entry := Function.update c.entry t (some task) }

/-- Change the session. -/
def edit (c : Core) (f : Session → Session) : Core := { c with session := f c.session }

@[simp] theorem put_put (c : Core) (t : TaskId) (l m : Option Lifecycle) :
    (c.put t l).put t m = c.put t m := by
  simp [put]

/-- Putting a task where it is already changes nothing, so work that goes on at its stage may be
taken for a step to that stage. -/
theorem put_self {c : Core} {t : TaskId} {l : Option Lifecycle} (h : c.stage t = l) :
    c.put t l = c := by
  subst h
  simp [put]

@[simp] theorem put_stage_self (c : Core) (t : TaskId) (l : Option Lifecycle) :
    (c.put t l).stage t = l := by
  simp [put]

theorem put_stage_of_ne (c : Core) {t u : TaskId} (l : Option Lifecycle) (h : u ≠ t) :
    (c.put t l).stage u = c.stage u := by
  simp [put, h]

end Core

namespace Client

/-- Where a task stands, if it is no poller. -/
def entry (w : Client) (t : TaskId) : Option Task := (w.task? t).bind Task.seen?

/-- The connect or the disconnect that a task is at. -/
def stage (w : Client) (t : TaskId) : Option Lifecycle := (w.task? t).bind Task.lifecycle?

/-- The look that a poller has under way. -/
def looking (w : Client) (t : TaskId) : Option (Call Stats) := (w.task? t).bind Task.look?

/-- The core of a client. -/
def core (w : Client) : Core where
  now := w.now
  session := w.session
  killSwitch := w.killSwitch
  backend := w.backend
  transition := w.transition
  writes := w.writes
  epoch := w.epoch
  bridges := w.bridges
  size := w.tasks.length
  entry := w.entry
  stage := w.stage
  looking := w.looking

/-- What a task is can be read off the core, unless it is a poller. -/
theorem entry_of_task? {w : Client} {t : TaskId} {task : Task} (h : w.task? t = some task)
    (hp : task.seen? = some task) : w.core.entry t = some task := by
  show (w.task? t).bind Task.seen? = _
  rw [h]
  exact hp

theorem task?_of_entry {w : Client} {t : TaskId} {task : Task} (h : w.core.entry t = some task) :
    w.task? t = some task := by
  obtain ⟨old, hold, hs⟩ := Option.bind_eq_some_iff.1 h
  rw [hold]
  cases old with
  | poller p => cases hs
  | command | receiver | worker | ended => exact hs

/-- A task that the core shows has ended if it is told to be so there. -/
theorem hasEnded_of_entry {w : Client} {t : TaskId} {task : Task}
    (h : w.core.entry t = some task) : w.hasEnded t = task.isEnded := by
  unfold hasEnded
  rw [task?_of_entry h]

/-! ## Reports, turns and timers -/

@[simp] theorem core_say (w : Client) (n : Notice) : (w.say n).core = w.core := rfl

/-- Who is woken is no part of the core, so waking somebody is no step. -/
@[simp] theorem core_wake (w : Client) (t : TaskId) : (w.wake t).core = w.core := by
  unfold wake
  split <;> rfl

@[simp] theorem core_wakeAll (w : Client) (ts : List TaskId) : (w.wakeAll ts).core = w.core := by
  unfold wakeAll
  induction ts generalizing w with
  | nil => rfl
  | cons t ts ih => rw [List.foldl_cons, ih, core_wake]

@[simp] theorem core_arm (w : Client) (due : Nat) (t : TaskId) : (w.arm due t).core = w.core := by
  unfold arm
  split <;> rfl

@[simp] theorem core_disarm (w : Client) (t : TaskId) : (w.disarm t).core = w.core := rfl

@[simp] theorem core_delist (w : Client) (t : TaskId) : (w.delist t).core = w.core := rfl

/-! ## The session, the kill switch, locks and tickets -/

/-- Publishing the state is no part of the core either: of an update only the edit is left. -/
@[simp] theorem core_update (w : Client) (f : Session → Session) :
    (w.update f).core = w.core.edit f := by
  unfold update
  dsimp only
  -- the state is published if it is news, which wakes the watchers
  split
  · rfl
  · rw [core_wakeAll]
    rfl

@[simp] theorem core_setKillSwitch (w : Client) (on : Bool) :
    (w.setKillSwitch on).core = { w.core with killSwitch := w.core.killSwitch.setEnabled on } := rfl

@[simp] theorem core_raiseTunnel (w : Client) :
    w.raiseTunnel.core = { w.core with killSwitch := w.core.killSwitch.tunnelRaised } := rfl

@[simp] theorem core_lowerTunnel (w : Client) :
    w.lowerTunnel.core = { w.core with killSwitch := w.core.killSwitch.tunnelLowered } := rfl

@[simp] theorem core_releaseTransition (w : Client) :
    w.releaseTransition.core = { w.core with transition := w.core.transition.release } := by
  unfold releaseTransition
  rw [core_wakeAll]
  rfl

/-- Who gives up the lock that it holds hands it on; who is in line leaves the line. -/
@[simp] theorem core_withdrawTransition (w : Client) (t : TaskId) :
    (w.withdrawTransition t).core =
      { w.core with transition := w.core.transition.withdraw t } := by
  unfold withdrawTransition
  split
  · rename_i h
    have hl : w.core.transition.withdraw t = w.core.transition.release := if_pos h
    rw [hl, core_releaseTransition]
  · rename_i h
    have hl : w.core.transition.withdraw t =
        { w.core.transition with line := w.core.transition.line.filter (· != t) } := if_neg h
    rw [hl]
    rfl

/-- Who holds the settings is woken, which the core does not show. -/
@[simp] theorem core_releaseWrites (w : Client) :
    w.releaseWrites.core = { w.core with writes := w.core.writes.release } := by
  unfold releaseWrites
  rw [core_wakeAll]
  rfl

@[simp] theorem core_withdrawWrites (w : Client) (t : TaskId) :
    (w.withdrawWrites t).core = { w.core with writes := w.core.writes.withdraw t } := by
  unfold withdrawWrites
  split
  · rename_i h
    have hl : w.core.writes.withdraw t = w.core.writes.release := if_pos h
    rw [hl, core_releaseWrites]
  · rename_i h
    have hl : w.core.writes.withdraw t =
        { w.core.writes with line := w.core.writes.line.filter (· != t) } := if_neg h
    rw [hl]
    rfl

/-- To cancel the connects that wait is one disconnect more; they find out when they run. -/
@[simp] theorem core_cancelConnects (w : Client) :
    w.cancelConnects.core = { w.core with epoch := w.core.epoch + 1 } := by
  unfold cancelConnects
  rw [core_wakeAll]
  rfl

/-! ## Tasks -/

/-- A task that is written is found again, and no other one has changed. -/
theorem task?_setTask (w : Client) {t : TaskId} (task : Task) (u : TaskId)
    (h : t < w.tasks.length) :
    (w.setTask t task).task? u = if u = t then some task else w.task? u := by
  unfold setTask task?
  dsimp only
  rw [List.getElem?_set]
  by_cases hu : u = t
  · subst hu
    simp [h]
  · rw [if_neg (fun e => hu e.symm), if_neg hu]

/-- The number of the next task is that of nobody. -/
theorem task?_length (w : Client) : w.task? w.tasks.length = none :=
  List.getElem?_eq_none (Nat.le_refl _)

/-- A new task stands behind all others, which keep their numbers. -/
theorem task?_spawn (w : Client) (task : Task) (u : TaskId) :
    (w.spawn task).2.task? u = if u = w.tasks.length then some task else w.task? u := by
  unfold spawn task?
  dsimp only
  -- below the new task, the new task, above it
  rcases Nat.lt_trichotomy u w.tasks.length with h | h | h
  · rw [if_neg (Nat.ne_of_lt h), List.getElem?_append_left h]
  · subst h
    simp
  · rw [if_neg (Nat.ne_of_gt h), List.getElem?_eq_none (by simp; omega),
      List.getElem?_eq_none (Nat.le_of_lt h)]

/-- Writing a task changes every view of the tasks at that task only. -/
theorem view_setTask {β : Type} (g : Option Task → β) (w : Client) {t : TaskId} (task : Task)
    (h : t < w.tasks.length) :
    (fun u => g ((w.setTask t task).task? u)) =
      Function.update (fun u => g (w.task? u)) t (g (some task)) := by
  funext u
  rw [task?_setTask w task u h]
  by_cases hu : u = t
  · subst hu
    simp
  · simp [hu]

/-- A new task changes every view of the tasks at its number only. -/
theorem view_spawn {β : Type} (g : Option Task → β) (w : Client) (task : Task) :
    (fun u => g ((w.spawn task).2.task? u)) =
      Function.update (fun u => g (w.task? u)) w.tasks.length (g (some task)) := by
  funext u
  rw [task?_spawn]
  by_cases hu : u = w.tasks.length
  · subst hu
    simp
  · simp [hu]

/-- A task is written. -/
theorem core_setTask (w : Client) {t : TaskId} (task : Task) (h : t < w.core.size) :
    (w.setTask t task).core = { w.core with
      entry := Function.update w.core.entry t (task.seen?)
      stage := Function.update w.core.stage t task.lifecycle?
      looking := Function.update w.core.looking t task.look? } := by
  have he := view_setTask (·.bind Task.seen?) w task h
  have hs := view_setTask (·.bind Task.lifecycle?) w task h
  have hl := view_setTask (·.bind Task.look?) w task h
  have hn : (w.setTask t task).tasks.length = w.tasks.length := List.length_set
  unfold core entry stage looking
  rw [he, hs, hl, hn]
  rfl

/-- A new task is written behind all others. -/
theorem core_spawn (w : Client) (task : Task) :
    (w.spawn task).2.core = { w.core with
      size := w.core.size + 1
      entry := Function.update w.core.entry w.core.size (task.seen?)
      stage := Function.update w.core.stage w.core.size task.lifecycle?
      looking := Function.update w.core.looking w.core.size task.look? } := by
  have he := view_spawn (·.bind Task.seen?) w task
  have hs := view_spawn (·.bind Task.lifecycle?) w task
  have hl := view_spawn (·.bind Task.look?) w task
  have hn : (w.spawn task).2.tasks.length = w.tasks.length + 1 := by simp [spawn]
  unfold core entry stage looking
  rw [he, hs, hl, hn]
  rfl

/-- A task that is no poller, and was none, is written. -/
theorem core_setTask_write (w : Client) {t : TaskId} {task : Task} (h : t < w.core.size)
    (hp : task.seen? = some task) (hl : w.core.looking t = none) :
    (w.setTask t task).core = (w.core.write t task).put t task.lifecycle? := by
  have hk : Function.update w.core.looking t task.look? = w.core.looking := by
    refine Function.update_eq_self_iff.2 ?_
    rw [hl]
    cases task <;> first | rfl | cases hp
  rw [core_setTask w task h, hk, hp]
  rfl

/-- A new task that is no poller is written behind all others. -/
theorem core_spawn_write (w : Client) {task : Task} (hp : task.seen? = some task) :
    (w.spawn task).2.core =
      ({ w.core with size := w.core.size + 1 }.write w.core.size task).put w.core.size
        task.lifecycle? := by
  have hk : Function.update w.core.looking w.core.size task.look? = w.core.looking := by
    refine Function.update_eq_self_iff.2 ?_
    show _ = (w.task? w.tasks.length).bind Task.look?
    rw [task?_length]
    cases task <;> first | rfl | cases hp
  rw [core_spawn, hk, hp]
  rfl

/-- Writing what a view has already changes nothing. The three views of a task are what the core has
of it: its entry, its stage and its look. -/
theorem core_setTask_eq (w : Client) {t : TaskId} {task : Task}
    (h : ∀ old, w.task? t = some old → old.seen? = task.seen? ∧
      old.lifecycle? = task.lifecycle? ∧ old.look? = task.look?) :
    (w.setTask t task).core = w.core := by
  -- a task that exists, or one that does not
  rcases Nat.lt_or_ge t w.tasks.length with ht | ht
  · obtain ⟨old, hold⟩ : ∃ old, w.task? t = some old :=
      ⟨w.tasks[t], List.getElem?_eq_getElem ht⟩
    obtain ⟨h1, h2, h3⟩ := h old hold
    have he : w.core.entry t = task.seen? := by
      show (w.task? t).bind Task.seen? = _
      rw [hold, ← h1]
      rfl
    have hs : w.core.stage t = task.lifecycle? := by
      show (w.task? t).bind Task.lifecycle? = _
      rw [hold, ← h2]
      rfl
    have hl : w.core.looking t = task.look? := by
      show (w.task? t).bind Task.look? = _
      rw [hold, ← h3]
      rfl
    rw [core_setTask w task ht, ← he, ← hs, ← hl, Function.update_eq_self,
      Function.update_eq_self, Function.update_eq_self]
  · -- writing nobody changes nothing at all
    have hw : w.setTask t task = w := by
      unfold setTask
      rw [List.set_eq_of_length_le ht]
    rw [hw]

/-! ## Pollers -/

/-- A poller that is told to stop keeps its look, and nothing else of it is seen. -/
@[simp] theorem core_cancelPoller (w : Client) (t : TaskId) :
    (w.cancelPoller t).core = w.core := by
  unfold cancelPoller
  split
  · rename_i p hp
    rw [core_wake, core_setTask_eq]
    intro old hold
    rw [hp] at hold
    cases hold
    exact ⟨rfl, rfl, rfl⟩
  · rfl

@[simp] theorem core_stopPolling (w : Client) : w.stopPolling.core = w.core := by
  unfold stopPolling
  split
  · rw [core_say, core_cancelPoller]
    rfl
  · rfl

/-- Starting a poller adds a task that is not seen otherwise. The poller in the slot, if there is
one, is told to stop. -/
@[simp] theorem core_startPolling (w : Client) (period : Nat) :
    (w.startPolling period).core = { w.core with size := w.core.size + 1 } := by
  have hn : w.task? w.core.size = none := task?_length w
  -- nobody had the number before, so each view of the tasks stays what it was
  have he : Function.update w.core.entry w.core.size none = w.core.entry := by
    refine Function.update_eq_self_iff.2 ?_
    show none = (w.task? w.core.size).bind Task.seen?
    rw [hn]
    rfl
  have hs : Function.update w.core.stage w.core.size none = w.core.stage := by
    refine Function.update_eq_self_iff.2 ?_
    show none = (w.task? w.core.size).bind Task.lifecycle?
    rw [hn]
    rfl
  have hl : Function.update w.core.looking w.core.size none = w.core.looking := by
    refine Function.update_eq_self_iff.2 ?_
    show none = (w.task? w.core.size).bind Task.look?
    rw [hn]
    rfl
  have h : (w.spawn (.poller ⟨false, w.version, period, w.now + period, none⟩)).2.core =
      { w.core with size := w.core.size + 1 } := by
    rw [core_spawn]
    show ({ w.core with
      size := w.core.size + 1
      entry := Function.update w.core.entry w.core.size none
      stage := Function.update w.core.stage w.core.size none
      looking := Function.update w.core.looking w.core.size none } : Core) = _
    rw [he, hs, hl]
  unfold startPolling
  dsimp only
  rw [core_say]
  -- an empty slot is filled; a poller in the slot is replaced
  cases w.poller with
  | none => exact (core_wake _ _).trans h
  | some old =>
    dsimp only [Option.elim]
    rw [core_cancelPoller]
    exact (core_wake _ _).trans h

/-! ## Bridges -/

@[simp] theorem core_setBridge (w : Client) (b : BridgeId) (f : Bridge → Bridge) :
    (w.setBridge b f).core = { w.core with bridges := w.core.bridges.modify b f } := rfl

@[simp] theorem core_wakeWorker (w : Client) (bridge : Bridge) :
    (w.wakeWorker bridge).core = w.core := by
  unfold wakeWorker
  split
  · exact core_wake _ _
  · rfl

end Client

end TunnelSession
