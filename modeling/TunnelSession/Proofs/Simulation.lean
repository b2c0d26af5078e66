/-
  Every event is made of steps.

  TURNS.  Pollers leave the connection alone, receivers take triggers, and workers carry out jobs;
  with the commands of `Turns` that is every turn (`steps_run`).

  EVENTS.  An event is a change from outside, steps, or one after the other (`steps_happen`).  So
  what steps and outside changes keep holds throughout every run: `invariant_after` is the one
  induction over runs.
-/
import TunnelSession.Proofs.Turns
import TunnelSession.Proofs.Updates

namespace TunnelSession

namespace Client

open TunnelSession.Core

variable {w : Client} {t : TaskId} {b : BridgeId}

/-! ## Pollers -/

/-- The number of a poller in a sound core. -/
structure PollerAt (c : Core) (t : TaskId) : Prop where
  sound : c.Sound
  small : t < c.size
  unseen : c.entry t = none

/-- The number stays that of a poller while the connection is left alone. -/
theorem PollerAt.quiet {c c' : Core} (h : PollerAt c t) (hq : Quiet c c') : PollerAt c' t :=
  ⟨h.sound.quiet hq, by rw [hq.size_eq]; exact h.small, by rw [hq.entry_eq]; exact h.unseen⟩

theorem PollerAt.stage_eq {c : Core} (h : PollerAt c t) :
    Function.update c.stage t none = c.stage := by
  refine Function.update_eq_self_iff.2 ?_
  rw [h.sound.agree, h.unseen]
  rfl

/-- A poller waits, for its next look or for an answer. -/
theorem PollerAt.steps_wait (h : PollerAt w.core t) (p : Poller)
    (hp : ∀ call, p.call = some call → call.Runs .stats) :
    Steps w.core [] (w.setTask t (.poller p)).core := by
  have he : Function.update w.core.entry t none = w.core.entry :=
    Function.update_eq_self_iff.2 h.unseen.symm
  have hc : (w.setTask t (.poller p)).core =
      { w.core with looking := Function.update w.core.looking t p.call } := by
    rw [core_setTask w _ h.small]
    show ({ w.core with
      entry := Function.update w.core.entry t none
      stage := Function.update w.core.stage t none
      looking := Function.update w.core.looking t p.call } : Core) = _
    rw [he, h.stage_eq]
  rw [hc]
  exact (Step.aside (.looking h.unseen h.small hp)).single

/-- A poller ends. -/
theorem PollerAt.steps_retire (h : PollerAt w.core t) :
    Steps w.core [] (w.setTask t (.ended .finished)).core := by
  have hc : (w.setTask t (.ended .finished)).core = { w.core.write t (.ended .finished) with
      looking := Function.update w.core.looking t none } := by
    rw [core_setTask w _ h.small]
    show ({ w.core with
      entry := Function.update w.core.entry t (some (.ended .finished))
      stage := Function.update w.core.stage t none
      looking := Function.update w.core.looking t none } : Core) = _
    rw [h.stage_eq]
    rfl
  rw [hc]
  exact (Step.retire h.unseen h.small).single

/-- A poller waits until its next look is due. -/
theorem PollerAt.steps_arm (h : PollerAt w.core t) (due : Nat) {p : Poller} (hp : p.call = none) :
    Steps w.core [] ((w.arm due t).setTask t (.poller p)).core := by
  have ha := core_arm w due t
  rw [← ha] at h ⊢
  refine h.steps_wait p fun call hk => ?_
  rw [hp] at hk
  cases hk

theorem core_reportLook (w : Client) (kept : Bool) : (w.reportLook kept).core = w.core := by
  cases kept <;> rfl

/-- The looks of a poller that are due are steps of the core, each a look at the statistics, by
induction on how many the turn may take. -/
theorem PollerAt.steps_pollerTurn (looks : Nat) (p : Poller) (hp : p.call = none)
    (h : PollerAt w.core t) : Steps w.core [] (pollerTurn t looks p w).core := by
  -- the induction is on the looks that the turn may take at most
  induction looks generalizing w p with
  | zero =>
    unfold pollerTurn
    dsimp only
    split
    · exact steps_retire (w := (w.disarm t).say .pollingEnded) h
    · -- no look is due yet
      exact h.steps_arm _ hp
  | succ looks ih =>
    unfold pollerTurn
    dsimp only
    split
    · -- there is no connection any more
      exact steps_retire (w := (w.disarm t).say .pollingEnded) h
    · split
      · exact h.steps_arm _ hp
      · -- a look is due
        obtain ⟨hl, hk⟩ := looks_fetchStats w t h.sound.prompt
        rcases hr : w.fetchStats t with ⟨v, call | kept⟩
        · -- the look takes longer
          rw [hr] at hl hk
          refine hl.quiet.steps.trans ((h.quiet hl.quiet).steps_wait _ ?_)
          intro call' hcall
          cases hcall
          exact ⟨_, (hk call rfl).1⟩
        · -- it is through, and the next one may be due as well
          rw [hr] at hl
          have hq : Quiet w.core (v.reportLook kept).core := by
            rw [core_reportLook]
            exact hl.quiet
          exact hq.steps.trans (ih _ rfl (h.quiet hq))

/-- A turn of a poller leaves the connection alone: it ends, waits, or looks at the statistics. -/
theorem steps_runPoller (hs : w.core.Sound) {p : Poller} (hp : w.task? t = some (.poller p)) :
    Steps w.core [] (w.runPoller t p).core := by
  have hlook : w.core.looking t = p.call := by
    show (w.task? t).bind Task.look? = _
    rw [hp]
    rfl
  have h : PollerAt w.core t := by
    refine ⟨hs, (List.getElem?_eq_some_iff.1 hp).1, ?_⟩
    show (w.task? t).bind Task.seen? = none
    rw [hp]
    rfl
  unfold runPoller
  dsimp only
  split
  · -- told to stop
    exact h.steps_retire
  · split
    · -- a period of zero: it ends at once
      exact PollerAt.steps_retire (w := (w.disarm t).say .pollingEnded) h
    · split
      · -- no look is under way
        rename_i hc
        exact h.steps_pollerTurn _ p hc
      · -- a look is under way
        rename_i call hc
        have hrun := hs.looking t call (hlook.trans hc)
        obtain ⟨hl, hk⟩ := looks_resumeStats w t hrun
        rcases hr : w.resumeStats t call with ⟨v, call' | kept⟩
        · rw [hr] at hl hk
          refine hl.quiet.steps.trans ((h.quiet hl.quiet).steps_wait _ ?_)
          intro call'' hcall
          cases hcall
          exact (hk call' rfl).1 ▸ hrun
        · rw [hr] at hl
          have hq : Quiet w.core (v.reportLook kept).core := by
            rw [core_reportLook]
            exact hl.quiet
          exact hq.steps.trans ((h.quiet hq).steps_pollerTurn _ _ rfl)

/-! ## Receivers -/

/-- A change of a bridge that leaves its worker and its jobs alone leaves the jobs of all bridges
alone. -/
theorem sameJobs_modify {bs : List Bridge} {f : Bridge → Bridge}
    (hw : ∀ r, (f r).worker = r.worker) (hj : ∀ r, (f r).jobs = r.jobs) (b : BridgeId) :
    SameJobs bs (bs.modify b f) := by
  intro b'
  rw [List.getElem?_modify]
  cases bs[b']? with
  | none => rfl
  | some r =>
    by_cases hb : b = b'
    · simp [hb, hw, hj]
    · simp [hb]

/-- A bridge changes without its jobs. -/
theorem steps_setBridge (w : Client) (b : BridgeId) {f : Bridge → Bridge}
    (hw : ∀ r, (f r).worker = r.worker) (hj : ∀ r, (f r).jobs = r.jobs) :
    Steps w.core [] (w.setBridge b f).core :=
  (Step.aside (.bridge _ (sameJobs_modify hw hj b))).single

theorem core_handOver (w : Client) (b : BridgeId) (bridge : Bridge) (job : Job) :
    (w.handOver b bridge job).core = w.core.handOver b job := by
  unfold handOver
  rw [core_wakeWorker]
  rfl

theorem length_handOver (c : Core) (b : BridgeId) (job : Job) :
    (c.handOver b job).bridges.length = c.bridges.length :=
  List.length_modify _ _ _

/-- A trigger that makes no request leaves the connection alone, and any other is a step: a connect
with a ticket of now, or a disconnect that voids all tickets. -/
theorem step_receive (hb : b < w.core.bridges.length) (bridge : Bridge) (e : Trigger) :
    (triggerActs b e = [] ∧ Steps w.core [] (w.receive b bridge e).core) ∨
      Step w.core (triggerActs b e) (w.receive b bridge e).core := by
  have hr := List.getElem?_eq_getElem hb
  cases e with
  | navigate path =>
    -- a page makes no request
    refine .inl ⟨rfl, ?_⟩
    unfold receive
    dsimp only
    split
    · exact steps_setBridge (w.say (.triggered (.navigate path))) b (fun _ => rfl) (fun _ => rfl)
    · exact .refl _
  | quickConnect =>
    -- a connect takes its ticket when the trigger is taken
    right
    rw [show (w.receive b bridge .quickConnect).core = w.core.handOver b ⟨.quickConnect, _⟩ from
      core_handOver _ _ _ _]
    exact .takeAsk hr rfl
  | connect id =>
    right
    rw [show (w.receive b bridge (.connect id)).core = w.core.handOver b ⟨.connect id, _⟩ from
      core_handOver _ _ _ _]
    exact .takeAsk hr rfl
  | disconnect =>
    -- a disconnect cancels the connects that wait when the trigger is taken, and waits itself as a
    -- job
    right
    rw [show (w.receive b bridge .disconnect).core =
      ((w.say (.triggered .disconnect)).cancelConnects).core.handOver b ⟨.disconnect, _⟩ from
      core_handOver _ _ _ _, core_cancelConnects]
    exact .takeLeave hr

/-- When a trigger is taken the bridges are still there, and the tasks stand where they stood. -/
theorem receive_frame (w : Client) (b : BridgeId) (bridge : Bridge) (e : Trigger) :
    (w.receive b bridge e).core.bridges.length = w.core.bridges.length ∧
      (w.receive b bridge e).core.entry = w.core.entry := by
  cases e with
  | navigate path =>
    unfold receive
    dsimp only
    split
    · exact ⟨List.length_modify _ _ _, rfl⟩
    · exact ⟨rfl, rfl⟩
  | quickConnect | connect =>
    unfold receive
    dsimp only
    rw [core_handOver]
    exact ⟨length_handOver _ _ _, rfl⟩
  | disconnect =>
    unfold receive
    dsimp only
    rw [core_handOver, core_cancelConnects]
    exact ⟨length_handOver _ _ _, rfl⟩

/-- All triggers that wait are taken. -/
theorem steps_receiveAll (hb : b < w.core.bridges.length) (bridge : Bridge) (es : List Trigger) :
    Steps w.core (es.flatMap (triggerActs b)) (es.foldl (fun w e => w.receive b bridge e) w).core ∧
      (es.foldl (fun w e => w.receive b bridge e) w).core.entry = w.core.entry := by
  induction es generalizing w with
  | nil => exact ⟨.refl _, rfl⟩
  | cons e es ih =>
    obtain ⟨hl, he⟩ := receive_frame w b bridge e
    obtain ⟨hs, hes⟩ := ih (hl ▸ hb)
    rw [List.flatMap_cons, List.foldl_cons]
    refine ⟨Steps.trans ?_ hs, hes.trans he⟩
    rcases step_receive hb bridge e with ⟨hn, h⟩ | h
    · rw [hn]
      exact h
    · exact h.single

/-- A task that is no longer needed ends. -/
theorem steps_finish (hs : w.core.Sound) {old : Task} (ho : w.core.entry t = some old)
    (ht : old.Turns (.ended .finished)) (hk : old.lifecycle? = none) :
    Steps w.core [] (w.setTask t (.ended .finished)).core := by
  have hst : (w.core.write t (.ended .finished)).stage t = none :=
    (hs.stage_of_entry ho).trans hk
  have hc : (w.setTask t (.ended .finished)).core = w.core.write t (.ended .finished) :=
    (core_setTask_write w (hs.lt_size ho) rfl (hs.apart t (by simp [ho]))).trans (put_self hst)
  rw [hc]
  exact (Step.turn ho ht trivial).single

/-- A receiver ends. -/
theorem steps_endReceiver (hs : w.core.Sound) (ho : w.core.entry t = some (.receiver b))
    (bridge : Bridge) : Steps w.core [] (w.endReceiver t b bridge).core := by
  unfold endReceiver
  dsimp only
  -- the client when the bridge is closed
  generalize hv : w.setBridge b _ = v
  have hc : Steps w.core [] v.core := by
    rw [← hv]
    exact steps_setBridge w b (fun _ => rfl) (fun _ => rfl)
  have he : v.core.entry = w.core.entry := by
    rw [← hv]
    rfl
  have hk := core_wakeWorker v bridge
  refine hc.trans ?_
  rw [← hk]
  refine steps_finish ?_ ?_ (.receiver b) rfl
  · rw [hk]
    exact hs.steps hc
  · rw [hk, he]
    exact ho

/-- A receiver runs. It takes the triggers one after the other, each a step of the core, and then
waits on or ends. -/
theorem steps_runReceiver (hs : w.core.Sound) (ho : w.core.entry t = some (.receiver b)) :
    Steps w.core (w.receiverActs b) (w.runReceiver t b).core := by
  unfold runReceiver receiverActs
  cases hb : w.bridge? b with
  | none => exact steps_finish hs ho (.receiver b) rfl
  | some bridge =>
    dsimp only
    split
    · exact steps_endReceiver hs ho bridge
    · have hlt : b < w.core.bridges.length := (List.getElem?_eq_some_iff.1 hb).1
      -- the client when the queue is empty and nothing was taken yet
      generalize hv : w.setBridge b _ = v
      have hq : Steps w.core [] v.core := by
        rw [← hv]
        exact steps_setBridge w b (fun _ => rfl) (fun _ => rfl)
      have hvb : b < v.core.bridges.length := by
        rw [← hv]
        exact Nat.lt_of_lt_of_eq hlt (List.length_modify _ _ _).symm
      obtain ⟨hall, he⟩ := steps_receiveAll hvb bridge bridge.triggers.queue
      have hu := hq.trans hall
      split
      · exact hu
      · generalize bridge.triggers.queue.foldl _ v = u at hu he
        have hfin := steps_endReceiver (w := u.say .triggersClosed) (t := t) (b := b)
          (hs.steps hu) (by rw [core_say, he, ← hv]; exact ho) bridge
        have h := hu.trans hfin
        rwa [List.append_nil] at h

/-! ## Workers -/

/-- A job begins. -/
theorem stretch_beginJob (w : Client) (t : TaskId) (job : Job) (hp : w.core.backend.Prompt) :
    Stretch t (w.core.put t none) job.start (w.beginJob t job).2
      ((w.beginJob t job).1.core.put t (w.beginJob t job).2.stage?) := by
  rcases job with ⟨request, ticket⟩
  cases request with
  | quickConnect => exact stretch_requestConnect w t .best ticket hp
  | connect id => exact stretch_requestConnect w t (.server id) ticket hp
  | disconnect => exact stretch_queueDisconnect w t hp

theorem core_reportJob (w : Client) (r : Request) (s : Settled) :
    (w.reportJob r s).core = w.core := by
  rcases s with (_ | _) | _ <;> rfl

/-- A worker has nothing to do, and waits or ends. -/
theorem steps_idleWorker (hs : (w.core.idle t b).Sound) (ht : t < w.core.size) :
    Steps (w.core.idle t b) [] (w.setTask t (.worker b none)).core ∧
      Steps (w.core.idle t b) [] (w.setTask t (.ended .finished)).core := by
  have ho : (w.core.idle t b).entry t = some (.worker b none) := Function.update_self _ _ _
  have hl : w.core.looking t = none := hs.apart t (by simp [ho])
  refine ⟨?_, ?_⟩
  · rw [core_setTask_write w ht rfl hl]
    exact .refl _
  · rw [core_setTask_write w ht rfl hl]
    have h := (Step.turn ho (.worker b) trivial).single
    rwa [show (w.core.idle t b).write t (.ended .finished) =
      ((w.core.write t (.worker b none)).write t (.ended .finished)).put t none from rfl,
      write_write] at h

theorem jobTask_seen? (b : BridgeId) (job : Job) (p : Progress Lifecycle Settled) :
    (jobTask b job p).seen? = some (jobTask b job p) := by
  cases p <;> rfl

/-- A worker that is written as having nothing to do. -/
theorem core_setTask_idle (ht : t < w.core.size) (hl : w.core.looking t = none) :
    (w.setTask t (.worker b none)).core = w.core.idle t b :=
  core_setTask_write w ht rfl hl

/-- A worker begins a job: taking the job off the list and the work on it are one step, since the
job is in no other place in between. -/
theorem step_beginJob {v : Client} {bridge : Bridge} {job : Job} {rest : List Job}
    (hs : (w.core.idle t b).Sound) (hb : w.bridge? b = some bridge)
    (hj : bridge.jobs = job :: rest)
    (hv : w.setBridge b (fun r => { r with jobs := rest }) = v) :
    Step (w.core.idle t b) [v.leg (.bridge b) none (v.beginJob t job)]
      ((v.beginJob t job).1.setTask t (jobTask b job (v.beginJob t job).2)).core ∧
    t < (v.beginJob t job).1.core.size ∧ (v.beginJob t job).1.core.looking t = none := by
  have hc : v.core = w.core.takeJob b rest := by
    rw [← hv]
    rfl
  have hp : v.core.backend.Prompt := by
    rw [hc]
    exact hs.prompt
  -- the worker is written as having nothing to do, as it is before every job
  have hr := (stretch_beginJob v t job hp).write t (.worker b none)
  have ho : (w.core.idle t b).entry t = some (.worker b none) := Function.update_self _ _ _
  rw [show (v.core.put t none).write t (.worker b none) = (w.core.idle t b).takeJob b rest by
    rw [hc]; rfl] at hr
  have hlt : t < (v.beginJob t job).1.core.size :=
    Nat.lt_of_lt_of_le (hs.lt_size ho) hr.near.size
  have hlook : (v.beginJob t job).1.core.looking t = none :=
    (congrFun hr.near.looking t).trans (hs.apart t (by simp [ho]))
  -- taking the job off the list and working on it is one step
  have hstep := Step.begin ho hb hj hr
  rw [write_write] at hstep
  rw [core_setTask_write _ hlt (jobTask_seen? _ _ _) hlook, jobTask_lifecycle?]
  rw [← hv] at hstep ⊢
  exact ⟨hstep, hv ▸ hlt, hv ▸ hlook⟩

/-- A worker goes on with a job. -/
theorem step_resumeJob (hs : w.core.Sound) {job : Job} {l : Lifecycle}
    (ho : w.core.entry t = some (.worker b (some (job, l)))) :
    Step w.core [w.leg (.bridge b) (some l) (w.resumeLifecycle t l)]
      ((w.resumeLifecycle t l).1.setTask t (jobTask b job (w.resumeLifecycle t l).2)).core ∧
    t < (w.resumeLifecycle t l).1.core.size ∧
      (w.resumeLifecycle t l).1.core.looking t = none := by
  have hk : w.core.stage t = some l := hs.stage_of_entry ho
  have hr := stretch_resumeLifecycle w t l (hs.stage_sound t l hk) hs.prompt
  rw [put_self hk] at hr
  rw [core_setTask_stretch hs ho hr (jobTask_seen? _ _ _) (jobTask_lifecycle? b job _)]
  exact ⟨.carry ho hr, Nat.lt_of_lt_of_le (hs.lt_size ho) hr.near.size,
    (congrFun hr.near.looking t).trans (hs.apart t (by simp [ho]))⟩

/-- Jobs are carried out until one waits or none is left, each a step of the core that starts with
the worker at no job. -/
theorem steps_carryOut (jobs : Nat) (hs : (w.core.idle t b).Sound) (ht : t < w.core.size) :
    Steps (w.core.idle t b) (jobsActs t b jobs w) (carryOut t b jobs w).core := by
  induction jobs generalizing w with
  | zero =>
    unfold jobsActs carryOut
    cases w.bridge? b with
    | none => exact (steps_idleWorker hs ht).2
    | some bridge =>
      dsimp only
      split
      · exact (steps_idleWorker hs ht).1
      · exact (steps_idleWorker hs ht).2
  | succ jobs ih =>
    unfold jobsActs carryOut
    cases hb : w.bridge? b with
    | none => exact (steps_idleWorker hs ht).2
    | some bridge =>
      dsimp only
      cases hj : bridge.jobs with
      | nil =>
        dsimp only
        split
        · exact (steps_idleWorker hs ht).1
        · exact (steps_idleWorker hs ht).2
      | cons job rest =>
        dsimp only
        -- the client when the job is taken
        generalize hv : w.setBridge b _ = v
        obtain ⟨hstep, hlt, hlook⟩ := step_beginJob (t := t) hs hb hj hv
        rcases hvr : v.beginJob t job with ⟨u, l | s⟩
        · rw [hvr] at hstep
          exact hstep.single
        · rw [hvr] at hstep hlt hlook
          rw [show (u.setTask t (jobTask b job (.done s))).core = u.core.idle t b from
            core_setTask_idle hlt hlook] at hstep
          have hk := core_reportJob u job.request s
          have hrest := ih (w := u.reportJob job.request s)
            (by rw [hk]; exact hs.step hstep) (by rw [hk]; exact hlt)
          rw [hk] at hrest
          exact hstep.single.trans hrest

/-- A worker runs: it goes on with the job that is under way, and if that is through carries out
those that wait. -/
theorem steps_runWorker (hs : w.core.Sound) {current : Option (Job × Lifecycle)}
    (ho : w.core.entry t = some (.worker b current)) :
    Steps w.core (w.workerActs t b current) (w.runWorker t b current).core := by
  have ht := hs.lt_size ho
  cases current with
  | none =>
    -- nothing was under way, so the worker is idle already
    have hk : w.core.stage t = none := hs.stage_of_entry ho
    have hidle : w.core.idle t b = w.core := by rw [idle, write_self ho, put_self hk]
    have h := steps_carryOut (w := w) (t := t) (b := b) (w.jobCount b) (by rw [hidle]; exact hs) ht
    rw [hidle] at h
    exact h
  | some current =>
    obtain ⟨job, l⟩ := current
    obtain ⟨hstep, hlt, hlook⟩ := step_resumeJob hs ho
    unfold workerActs runWorker
    dsimp only
    rcases hv : w.resumeLifecycle t l with ⟨u, l' | s⟩
    · -- the job has to wait again
      rw [hv] at hstep
      exact hstep.single
    · -- the job is done and reported, and the next ones follow in the same turn
      rw [hv] at hstep hlt hlook
      rw [show (u.setTask t (jobTask b job (.done s))).core = u.core.idle t b from
        core_setTask_idle hlt hlook] at hstep
      have hc := core_reportJob u job.request s
      have hrest := steps_carryOut (w := u.reportJob job.request s) (t := t) (b := b)
        (u.jobCount b) (by rw [hc]; exact hs.step hstep) (by rw [hc]; exact hlt)
      rw [hc] at hrest
      exact hstep.single.trans hrest

/-! ## Events -/

/-- Every turn is made of steps. -/
theorem steps_run (hs : w.core.Sound) (t : TaskId) :
    Steps w.core (w.turnActs t) (w.run t).core := by
  unfold turnActs run
  cases hk : w.task? t with
  | none => exact .refl _
  | some task =>
    have ho : w.core.entry t = task.seen? := by
      show (w.task? t).bind Task.seen? = _
      rw [hk]
      rfl
    -- whoever has ended does nothing
    cases task with
    | command p => exact steps_runCommand hs ho
    | poller p => exact steps_runPoller hs hk
    | receiver b => exact steps_runReceiver hs ho
    | worker b current => exact steps_runWorker hs ho
    | ended how => exact .refl _

/-- A task that is at no stage is written behind all others. -/
theorem core_spawn_aside (w : Client) (task : Task) (hs : w.core.stage w.core.size = none)
    (hp : task.seen? = some task) (hl : task.lifecycle? = none) :
    (w.spawn task).2.core =
      { w.core with size := w.core.size + 1 }.write w.core.size task := by
  have hk : ({ w.core with size := w.core.size + 1 }.write w.core.size task).stage
      w.core.size = none := hs
  rw [core_spawn_write w hp, hl, put_self hk]

/-- A new bridge, with its receiver behind its worker. -/
def newBridge (capacity : Nat) (worker : TaskId) : Bridge :=
  ⟨.make capacity, true, false, worker + 1, worker, [], true, [], true⟩

/-- A bridge is opened. -/
theorem core_activate (w : Client) (hs : w.core.Sound) :
    ∃ capacity, w.activate.2.core = w.core.openBridge (newBridge capacity w.core.size) := by
  have hk : w.core.stage w.core.size = none := hs.stage_small (Nat.le_refl _)
  have hk' : w.core.stage (w.core.size + 1) = none := hs.stage_small (Nat.le_succ _)
  -- the client when the worker is there
  have hv := core_spawn_aside w (.worker w.bridges.length none) hk rfl rfl
  rw [← core_wake _ w.tasks.length] at hv
  unfold activate
  dsimp only [spawn] at hv ⊢
  generalize Client.wake _ w.tasks.length = v at hv
  -- the client when the receiver is there
  have hu := core_spawn_aside v (.receiver w.bridges.length)
    (by rw [hv]; exact hk') rfl rfl
  rw [← core_wake _ v.tasks.length] at hu
  dsimp only [spawn] at hu
  generalize Client.wake _ v.tasks.length = u at hu
  rw [show v.tasks.length = w.core.size + 1 from congrArg Core.size hv]
  rw [hv] at hu
  refine ⟨u.config.triggerCapacity.toNat, ?_⟩
  show ({ u.core with bridges := u.core.bridges ++ [_] } : Core) = _
  rw [hu]
  rfl

/-- A bridge changes from outside. -/
theorem outside_setBridge (e : Event) (w : Client) (b : BridgeId) {f : Bridge → Bridge}
    (hw : ∀ r, (f r).worker = r.worker) (hj : ∀ r, (f r).jobs = r.jobs) :
    Outside w.core e (w.setBridge b f).core :=
  .bridge _ (sameJobs_modify hw hj b)

/-- An event at a bridge is a change from outside, or nothing to the core, as no job and no worker
of a bridge changes by it. -/
theorem BridgeWrite.outside {b : BridgeId} (h : BridgeWrite w b w') (e : Event) :
    w'.core = w.core ∨ Outside w.core e w'.core := by
  cases h with
  | nothing => exact .inl rfl
  | change f hw hj => exact .inr (outside_setBridge e w b hw hj)
  | rouse f hw hj t =>
    rw [core_wake]
    exact .inr (outside_setBridge e w b hw hj)

/-- A command is there that was not polled yet. -/
theorem core_spawn_call (hs : w.core.Sound) (command : Command) :
    (w.spawn (.command (.fresh command))).2.core = w.core.spawnCall command :=
  core_spawn_aside w _ (hs.stage_small (Nat.le_refl _)) rfl rfl

/-- An event that gives nobody a turn is a change from outside, or nothing to the core: most of what
happens to a bridge is not seen there. -/
theorem outside_happen (hs : w.core.Sound) {e : Event} (he : e.IsQuiet) :
    (w.happen e).core = w.core ∨ Outside w.core e (w.happen e).core := by
  cases e with
  | call | poll => cases he
  | go command =>
    right
    show Outside w.core _ (w.go command).2.core
    rw [show (w.go command).2.core = _ from (core_wake _ _).trans (core_spawn_call hs command)]
    exact .go command
  | pass ms =>
    right
    show Outside w.core _ (w.tickTo (w.now + ms)).core
    rw [show (w.tickTo (w.now + ms)).core = { w.core with now := w.core.now + ms } from
      core_wakeAll _ _]
    exact .pass ms
  | fail op e => exact .inr (.fail op e)
  | pin op value => exact .inr (.pin op value)
  | startPolling period =>
    right
    show Outside w.core _ (w.startPolling period).core
    rw [core_startPolling]
    exact .startPolling period
  | stopPolling => exact .inl (core_stopPolling w)
  | openBridge =>
    right
    obtain ⟨capacity, hc⟩ := core_activate w hs
    show Outside w.core _ w.activate.2.core
    rw [hc]
    exact .openBridge rfl rfl
  | deactivate | dropSender | dropPages | takePages | send =>
    exact (bridgeWrite_happen w rfl).outside _

/-- An event is a change from outside or nothing, and then steps. -/
theorem steps_happen (hs : w.core.Sound) (e : Event) :
    ∃ c, (c = w.core ∨ Outside w.core e c) ∧ Steps c (w.acts e) (w.happen e).core := by
  cases e with
  | call command =>
    have hc := core_spawn_call hs command
    refine ⟨w.core.spawnCall command, .inr (.call command), ?_⟩
    rw [← hc]
    exact steps_run (by rw [hc]; exact hs.spawnCall command) _
  | poll t => exact ⟨_, .inl rfl, steps_run (w := { w with ready := w.ready.erase t }) hs t⟩
  | _ => exact ⟨_, outside_happen hs trivial, .refl _⟩

/-! ## Runs -/

section Invariant

variable {I : List Act → Core → Prop} {P : Event → Prop}

/-- What every step keeps, steps keep. -/
theorem invariant_steps
    (hstep : ∀ past c acts c', c.Sound → I past c → Step c acts c' → I (past ++ acts) c')
    {past acts : List Act} {c c' : Core} (hs : c.Sound) (hi : I past c) (h : Steps c acts c') :
    I (past ++ acts) c' := by
  induction h generalizing past with
  | refl => rwa [List.append_nil]
  | head h _ ih =>
    rw [← List.append_assoc]
    exact ih (hs.step h) (hstep _ _ _ _ hs hi h)

/-- What every step and every change from outside keeps, every run keeps. -/
theorem invariant_after
    (hstep : ∀ past c acts c', c.Sound → I past c → Step c acts c' → I (past ++ acts) c')
    (hout : ∀ past c e c', P e → c.Sound → I past c → Outside c e c' → I past c')
    (hs : w.core.Sound) (past : List Act) (hi : I past w.core) (events : List Event)
    (hp : ∀ e ∈ events, P e) :
    (w.after events).core.Sound ∧ I (past ++ w.trace events) (w.after events).core := by
  -- the acts that came before are the past of the induction
  induction events generalizing w past with
  | nil =>
    rw [trace, List.append_nil]
    exact ⟨hs, hi⟩
  | cons e events ih =>
    obtain ⟨c, hc, hsteps⟩ := steps_happen hs e
    -- the core between the change from outside and the steps of the turn
    have hmid : c.Sound ∧ I past c := by
      rcases hc with rfl | h
      · exact ⟨hs, hi⟩
      · exact ⟨hs.outside h, hout past _ e c (hp e List.mem_cons_self) hs hi h⟩
    rw [after_cons, trace, ← List.append_assoc]
    exact ih (hmid.1.steps hsteps) _ (invariant_steps hstep hmid.1 hmid.2 hsteps)
      fun e' he => hp e' (List.mem_cons_of_mem _ he)

end Invariant

/-- Every run keeps a client sound. -/
theorem sound_after (hs : w.core.Sound) (events : List Event) : (w.after events).core.Sound :=
  (invariant_after (I := fun _ _ => True) (P := fun _ => True) (fun _ _ _ _ _ _ _ => trivial)
    (fun _ _ _ _ _ _ _ _ => trivial) hs [] trivial events fun _ _ => trivial).1

/-- A client that was not called yet is sound. -/
theorem sound_make (config : Config) {backend : Backend} (hb : backend.Prompt) :
    (make config backend).core.Sound := by
  have he : (make config backend).core.entry = fun _ => none := by
    funext t
    rfl
  -- there is no task that could be unsound
  refine ⟨hb, ?_, ?_, ?_, ?_, ?_⟩
  · intro t task h
    rw [he] at h
    cases h
  · intro t
    rfl
  · intro t call h
    cases h
  · intro t h
    rfl
  · intro t h
    exact ⟨rfl, rfl⟩

end Client

end TunnelSession
