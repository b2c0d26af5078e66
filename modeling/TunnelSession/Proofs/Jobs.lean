/-
  What the worker of a bridge does.

  MARKS.  The records of a run say which job a worker begins and what a job comes to (`marksIn`).  A
  worker that does one thing at a time leaves its jobs' marks in turn (`Mark.inTurn`).

  TURNS.  In one turn a worker ends the job that it is at, if that is through, and then begins jobs
  until one has to wait or none is left (`carried_idle`, `carried_busy`).  A receiver hands jobs
  over and wakes the worker (`receiver_turn`).  Nobody else touches the jobs.

  DUTY.  So at every point of a run the jobs that are through, the one under way and those that wait
  are what the receiver has taken, in that order; and a worker that has jobs is at one of them or is
  woken (`Duty`).
-/
import TunnelSession.Proofs.Intake

namespace TunnelSession

/-- What a trigger asks of the connection; nothing if it asks for a page. -/
def Trigger.request? : Trigger → Option Request
  | .navigate _ => none
  | .quickConnect => some .quickConnect
  | .connect id => some (.connect id)
  | .disconnect => some .disconnect

/-- A worker begins a job, or a job comes to its result. -/
inductive Mark where
  | begins (job : Job)
  | ends (job : Job) (s : Settled)

/-- The marks of jobs that are through, one after the other, and of the one that is under way. -/
def Mark.inTurn (through : List (Job × Settled)) (current : Option Job) : List Mark :=
  through.flatMap (fun x => [.begins x.1, .ends x.1 x.2]) ++ current.toList.map .begins

/-- What a stretch of work on a job begins and ends. -/
def Leg.marks (l : Leg) (job : Job) : List Mark :=
  (if l.start.isNone then [.begins job] else []) ++
    match l.result with
    | .waiting _ => []
    | .done s => [.ends job s]

/-- The marks of the worker of a bridge. -/
def Record.marks (b : BridgeId) (x : Record) : List Mark :=
  match x.act, x.job with
  | .leg l, some job => if l.source = .bridge b then l.marks job else []
  | _, _ => []

/-- The marks of the worker of a bridge, in order. -/
def marksIn (b : BridgeId) (ρ : List Record) : List Mark := ρ.flatMap (Record.marks b)

namespace Mark

variable {through more : List (Job × Settled)} {current : Option Job} {job : Job} {s : Settled}

/-- Jobs that are through, and then more of them, are all through in turn. -/
theorem inTurn_append :
    inTurn through none ++ inTurn more current = inTurn (through ++ more) current := by
  simp [inTurn]

/-- The job under way comes to its result. -/
theorem inTurn_ends (marks : List Mark) : inTurn through (some job) ++ .ends job s :: marks =
    inTurn (through ++ [(job, s)]) none ++ marks := by
  simp [inTurn]

end Mark

theorem marksIn_append (b : BridgeId) (ρ σ : List Record) :
    marksIn b (ρ ++ σ) = marksIn b ρ ++ marksIn b σ := List.flatMap_append

theorem marks_leg (w : Client) (b : BridgeId) (start : Option Lifecycle)
    (r : Client × Progress Lifecycle Settled) (job : Job) (σ : List StateChange) :
    Record.marks b ⟨w.leg (.bridge b) start r, some job, σ⟩ =
      Leg.marks ⟨.bridge b, start, w.session, w.backend, r.1.session, r.1.backend, r.2⟩ job :=
  if_pos rfl

theorem marksIn_plain (b : BridgeId) (acts : List Act) : marksIn b (acts.map .plain) = [] := by
  refine List.flatMap_eq_nil_iff.2 fun x hx => ?_
  obtain ⟨act, -, rfl⟩ := List.mem_map.1 hx
  cases act <;> rfl

/-- Who works for others leaves no marks. -/
theorem marksIn_of_source {b : BridgeId} {ρ : List Record}
    (h : ∀ a ∈ ρ.map Record.act, a.source ≠ .bridge b) : marksIn b ρ = [] := by
  refine List.flatMap_eq_nil_iff.2 fun x hx => ?_
  have hs := h x.act (List.mem_map_of_mem hx)
  unfold Record.marks
  split
  · rename_i l _ hact _
    rw [hact] at hs
    exact if_neg hs
  · rfl

namespace Client

open TunnelSession.Core

variable {w w' : Client} {t u : TaskId} {b : BridgeId} {bridge : Bridge} {han acc : List Trigger}
  {rd : List String} {marks : List Mark} {jobs : List Job}

/-! ## Where the acts of a turn come from -/

theorem source_askActs {target : Target} {a : Act} (h : a ∈ w.askActs t target) :
    a.source = .call t := by
  rcases List.mem_cons.1 h with rfl | h
  · rfl
  · cases List.mem_singleton.1 h
    rfl

/-- When the client starts and connects by itself, the command that started it asks. -/
theorem source_startActs
    {r : Client × Progress (Call (List Server)) (Except BackendError (List Server))} {a : Act}
    (h : a ∈ startActs t r) : a.source = .call t := by
  unfold startActs at h
  split at h
  · cases h
  · dsimp only at h
    split at h
    · exact source_askActs h
    · cases h

/-- Whatever stage a command is at, it acts for itself. -/
theorem source_pointActs {p : Point} {a : Act} (h : a ∈ w.pointActs t p) : a.source = .call t := by
  unfold pointActs at h
  split at h
  · exact source_askActs h
  · exact source_askActs h
  · exact source_askActs h
  · rcases List.mem_cons.1 h with rfl | h
    · rfl
    · cases List.mem_singleton.1 h
      rfl
  · exact source_startActs h
  · exact source_startActs h
  · cases List.mem_singleton.1 h
    rfl
  · cases List.mem_singleton.1 h
    rfl
  · cases h

/-- The receiver of a bridge asks for disconnects of that bridge. -/
theorem source_receiverActs {a : Act} (h : a ∈ w.receiverActs b) : a.source = .bridge b := by
  unfold receiverActs at h
  split at h
  · cases h
  · split at h
    · cases h
    · obtain ⟨e, -, he⟩ := List.mem_flatMap.1 h
      cases e with
      | navigate => cases he
      | quickConnect | connect | disconnect =>
        cases List.mem_singleton.1 he
        rfl

/-- The worker of a bridge acts for that bridge, however many jobs it gets through. -/
theorem source_jobsActs {n : Nat} {a : Act} (h : a ∈ jobsActs t b n w) : a.source = .bridge b := by
  -- the induction is on the jobs that may be begun
  induction n generalizing w with
  | zero =>
    unfold jobsActs at h
    split at h <;> cases h
  | succ n ih =>
    unfold jobsActs at h
    split at h
    · cases h
    · split at h
      · rename_i heq _
        cases heq
        rcases List.mem_cons.1 h with rfl | h
        · rfl
        · split at h
          · cases h
          · exact ih h
      · cases h

/-- The acts of a worker in one turn all come from its bridge, those of the job it is at and those
of the jobs it goes on with. -/
theorem source_workerActs {current : Option (Job × Lifecycle)} {a : Act}
    (h : a ∈ w.workerActs t b current) : a.source = .bridge b := by
  unfold workerActs at h
  split at h
  · exact source_jobsActs h
  · rcases List.mem_cons.1 h with rfl | h
    · rfl
    · split at h
      · cases h
      · exact source_jobsActs h

/-- Only the receiver and the worker of a bridge act for it: of every other task the kind tells whom
it acts for. -/
theorem source_turnActs (hr : w.core.entry t ≠ some (.receiver b))
    (hk : ∀ current, w.core.entry t ≠ some (.worker b current)) :
    ∀ a ∈ w.turnActs t, a.source ≠ .bridge b := by
  intro a ha hs
  unfold turnActs at ha
  split at ha
  · rw [source_pointActs ha] at hs
    cases hs
  · rename_i c hc
    rw [source_receiverActs ha] at hs
    cases hs
    exact hr (entry_of_task? hc rfl)
  · rename_i c current hc
    rw [source_workerActs ha] at hs
    cases hs
    exact hk current (entry_of_task? hc rfl)
  · cases ha

/-! ## A turn of the worker -/

/-- How a turn of a worker ends: with the jobs that came to their results, the one that it is at, if
any, and those that are left. -/
structure Carried (t : TaskId) (b : BridgeId) (bridge : Bridge) (marks : List Mark) (w' : Client)
    (through : List (Job × Settled)) (current : Option Job) (left : List Job) : Prop where
  jobs : bridge.jobs = through.map Prod.fst ++ current.toList ++ left
  marks : marks = Mark.inTurn through current
  keeps : w'.bridge? b = some { bridge with jobs := left }
  busy : ∀ job, current = some job → ∃ l, w'.core.entry t = some (.worker b (some (job, l)))
  /-- Who is at no job has none left, and ends if none can come. -/
  idle : current = none → left = [] ∧
    w'.core.entry t = some (if bridge.hasReceiver then .worker b none else .ended .finished)

theorem entry_setTask (w : Client) {k : Task} (ht : t < w.core.size) (hk : k.seen? = some k) :
    (w.setTask t k).core.entry t = some k :=
  entry_of_task? ((task?_setTask w k t ht).trans (if_pos rfl)) hk

/-- A job that has to wait ends the turn. -/
theorem carried_waiting (w : Client) {job : Job} {l : Lifecycle} {marks : List Mark}
    (ht : t < w.core.size) (hb : w.bridge? b = some { bridge with jobs := jobs })
    (hj : bridge.jobs = job :: jobs) (hm : marks = [.begins job]) :
    Carried t b bridge marks (w.setTask t (.worker b (some (job, l)))) [] (some job) jobs := by
  refine ⟨hj, hm, hb, fun job' h => ?_, nofun⟩
  cases h
  exact ⟨l, entry_setTask w ht rfl⟩

/-- A worker without jobs waits for more, or ends if there is nobody left to hand it any. -/
theorem carried_nil {n : Nat} (ht : t < w.core.size) (hb : w.bridge? b = some bridge)
    (hj : bridge.jobs = []) :
    Carried t b bridge (marksIn b (jobsRecords t b n w)) (carryOut t b n w) [] none [] := by
  have hrecords : jobsRecords t b n w = [] := by
    unfold jobsRecords
    rw [hb]
    dsimp only
    rw [hj]
    cases n <;> rfl
  have hrun : carryOut t b n w =
      w.setTask t (if bridge.hasReceiver then .worker b none else .ended .finished) := by
    unfold carryOut
    rw [hb]
    dsimp only
    rw [hj]
    cases n <;> · dsimp only; split <;> rfl
  rw [hrecords, hrun]
  -- nothing begun, nothing under way, and nothing left
  refine ⟨hj, rfl, ?_, fun job hn => ?_, fun _ => ⟨rfl, entry_setTask w ht ?_⟩⟩
  · rw [← hj]
    exact hb
  · cases hn
  · split <;> rfl

/-- Work on a job leaves the bridges alone. -/
theorem bridges_beginJob (w : Client) (t : TaskId) (job : Job) (hp : w.core.backend.Prompt) :
    (w.beginJob t job).1.bridges = w.bridges :=
  (stretch_beginJob w t job hp).near.bridges

/-- Jobs are carried out until one has to wait or none is left. The induction is on the number of
jobs that the turn may take, which is not less than those that wait. -/
theorem carried_carryOut (n : Nat) (hs : (w.core.idle t b).Sound) (ht : t < w.core.size)
    (hb : w.bridge? b = some bridge) (hn : bridge.jobs.length ≤ n) :
    ∃ through current left, Carried t b bridge (marksIn b (jobsRecords t b n w))
      (carryOut t b n w) through current left := by
  induction n generalizing w bridge with
  | zero => exact ⟨_, _, _, carried_nil ht hb (List.length_eq_zero_iff.1 (Nat.le_zero.1 hn))⟩
  | succ n ih =>
    cases hj : bridge.jobs with
    | nil => exact ⟨_, _, _, carried_nil ht hb hj⟩
    | cons job rest =>
      -- the client when the job is taken
      generalize hv : w.setBridge b (fun r => { r with jobs := rest }) = v
      obtain ⟨hstep, hlt, hlook⟩ := step_beginJob (t := t) hs hb hj hv
      have hbridge : (v.beginJob t job).1.bridge? b = some { bridge with jobs := rest } := by
        have hp : v.core.backend.Prompt := by
          rw [← hv]
          exact hs.prompt
        show (v.beginJob t job).1.bridges[b]? = _
        rw [bridges_beginJob v t job hp, ← hv]
        show (w.bridges.modify b _)[b]? = _
        rw [List.getElem?_modify_eq, show w.bridges[b]? = some bridge from hb]
        rfl
      unfold jobsRecords carryOut
      rw [hb]
      dsimp only
      rw [hj]
      dsimp only
      rw [hv]
      rcases hvr : v.beginJob t job with ⟨x, l | s⟩
      · rw [hvr] at hbridge hlt
        refine ⟨[], some job, rest, carried_waiting x hlt hbridge hj ?_⟩
        exact (List.append_nil _).trans (marks_leg v b none _ job _)
      · rw [hvr] at hbridge hlt hlook hstep
        rw [show (x.setTask t (jobTask b job (.done s))).core = x.core.idle t b from
          core_setTask_idle hlt hlook] at hstep
        have hk := core_reportJob x job.request s
        have hbridge' :
            (x.reportJob job.request s).bridge? b = some { bridge with jobs := rest } := by
          show (x.reportJob job.request s).bridges[b]? = _
          rw [(connKept_reportJob x job.request s).bridges]
          exact hbridge
        have hrest := Nat.le_of_succ_le_succ (hj ▸ hn : (job :: rest).length ≤ n + 1)
        obtain ⟨through, current, left, hc⟩ := ih (w := x.reportJob job.request s)
          (by rw [hk]; exact hs.step hstep) (by rw [hk]; exact hlt) hbridge' hrest
        refine ⟨(job, s) :: through, current, left, ?_, ?_, hc.keeps, hc.busy, hc.idle⟩
        · rw [hj, show rest = _ from hc.jobs]
          rfl
        · show Record.marks b _ ++ marksIn b _ = _
          rw [marks_leg, hc.marks]
          rfl

/-- A worker that is at no job runs. -/
theorem carried_idle (hs : w.core.Sound) (ho : w.core.entry t = some (.worker b none))
    (hb : w.bridge? b = some bridge) :
    ∃ through current left, Carried t b bridge (marksIn b (w.workerRecords t b none))
      (w.runWorker t b none) through current left := by
  have hk : w.core.stage t = none := hs.stage_of_entry ho
  have hidle : w.core.idle t b = w.core := by rw [idle, write_self ho, put_self hk]
  have hcount : w.jobCount b = bridge.jobs.length := by
    unfold jobCount
    rw [hb]
    rfl
  exact carried_carryOut (w.jobCount b) (by rw [hidle]; exact hs) (hs.lt_size ho) hb
    (Nat.le_of_eq hcount.symm)

/-- A worker that is at a job runs: it is still at it, or its job is through and it goes on to the
next ones. -/
theorem carried_busy (hs : w.core.Sound) {job : Job} {l : Lifecycle}
    (ho : w.core.entry t = some (.worker b (some (job, l)))) (hb : w.bridge? b = some bridge) :
    (marksIn b (w.workerRecords t b (some (job, l))) = [] ∧
      (w.runWorker t b (some (job, l))).bridge? b = some bridge ∧
      ∃ l', (w.runWorker t b (some (job, l))).core.entry t = some (.worker b (some (job, l')))) ∨
    ∃ s marks through current left,
      marksIn b (w.workerRecords t b (some (job, l))) = .ends job s :: marks ∧
      Carried t b bridge marks (w.runWorker t b (some (job, l))) through current left := by
  obtain ⟨hstep, hlt, hlook⟩ := step_resumeJob hs ho
  have hk : w.core.stage t = some l := hs.stage_of_entry ho
  have hbridge : (w.resumeLifecycle t l).1.bridge? b = some bridge := by
    have hst := stretch_resumeLifecycle w t l (hs.stage_sound t l hk) hs.prompt
    show (w.resumeLifecycle t l).1.bridges[b]? = _
    rw [show (w.resumeLifecycle t l).1.bridges = w.bridges from hst.near.bridges]
    exact hb
  unfold workerRecords runWorker
  dsimp only
  -- the job waits on, or comes to its result, which the bridge reports
  rcases hv : w.resumeLifecycle t l with ⟨v, l' | s⟩
  · rw [hv] at hbridge hlt
    left
    exact ⟨(List.append_nil _).trans (marks_leg w b (some l) _ job _), hbridge, l',
      entry_setTask v hlt rfl⟩
  · rw [hv] at hstep hlt hlook hbridge
    right
    rw [show (v.setTask t (jobTask b job (.done s))).core = v.core.idle t b from
      core_setTask_idle hlt hlook] at hstep
    have hc := core_reportJob v job.request s
    have hbridge' : (v.reportJob job.request s).bridge? b = some bridge := by
      show (v.reportJob job.request s).bridges[b]? = _
      rw [(connKept_reportJob v job.request s).bridges]
      exact hbridge
    have hcount : v.jobCount b = bridge.jobs.length := by
      unfold jobCount
      rw [hbridge]
      rfl
    obtain ⟨through, current, left, hcarried⟩ :=
      carried_carryOut (w := v.reportJob job.request s) (v.jobCount b)
        (by rw [hc]; exact hs.step hstep) (by rw [hc]; exact hlt) hbridge'
        (Nat.le_of_eq hcount.symm)
    refine ⟨s, _, through, current, left, ?_, hcarried⟩
    show Record.marks b _ ++ marksIn b _ = _
    rw [marks_leg]
    rfl

/-! ## A turn of the receiver -/

/-- How jobs are handed over: behind the others, and the worker is woken if it is at none. -/
structure Hands (b : BridgeId) (u : TaskId) (jobs more : List Job) (w w' : Client) : Prop where
  crew : w'.core.crew b = some (u, jobs ++ more)
  entry : w'.core.entry = w.core.entry
  ready : ∀ t ∈ w.ready, t ∈ w'.ready
  woken : more ≠ [] → w.core.entry u = some (.worker b none) → u ∈ w'.ready

variable {more rest : List Job}

/-- What is handed over twice is handed over in order. -/
theorem Hands.trans {v : Client} (h : Hands b u jobs more w v)
    (h' : Hands b u (jobs ++ more) rest v w') : Hands b u jobs (more ++ rest) w w' where
  crew := by
    rw [← List.append_assoc]
    exact h'.crew
  entry := h'.entry.trans h.entry
  ready t ht := h'.ready t (h.ready t ht)
  woken hne ho := by
    cases more with
    | nil => exact h'.woken hne (by rw [h.entry]; exact ho)
    | cons job more => exact h'.ready u (h.woken (List.cons_ne_nil _ _) ho)

/-- No job is handed over. -/
theorem hands_nil (hc : w.core.crew b = some (u, jobs)) (hw : w'.core.crew b = w.core.crew b)
    (he : w'.core.entry = w.core.entry) (hr : ∀ t ∈ w.ready, t ∈ w'.ready) :
    Hands b u jobs [] w w' where
  crew := by rw [hw, hc, List.append_nil]
  entry := he
  ready := hr
  woken hne := absurd rfl hne

/-- A bridge changes without its jobs. -/
theorem crew_setBridge (w : Client) (c : BridgeId) {f : Bridge → Bridge}
    (hw : ∀ r, (f r).worker = r.worker) (hj : ∀ r, (f r).jobs = r.jobs) :
    (w.setBridge c f).core.crew = w.core.crew :=
  crew_sameJobs (sameJobs_modify hw hj c)

theorem ready_wakeWorker (w : Client) (bridge : Bridge) : w.ready <+: (w.wakeWorker bridge).ready :=
  (connKept_wakeWorker w bridge).ready

/-- A job is handed over: it is put behind the others, and the worker is woken if it is at none. -/
theorem hands_handOver (job : Job) (hc : w.core.crew b = some (bridge.worker, jobs)) :
    Hands b bridge.worker jobs [job] w (w.handOver b bridge job) where
  crew := by
    rw [core_handOver, crew_handOver, Function.update_self, hc]
    rfl
  entry := by
    rw [core_handOver]
    rfl
  ready t ht := (ready_wakeWorker (w.setBridge b _) bridge).subset ht
  woken _ ho := by
    have hk : (w.setBridge b fun r => { r with jobs := r.jobs ++ [job] }).task? bridge.worker =
      some (.worker b none) := task?_of_entry ho
    unfold handOver wakeWorker
    rw [hk]
    exact mem_ready_wake (w := w.setBridge b _) ho rfl

/-- A trigger is taken: a request becomes a job behind those that wait, and a page does not. The
worker is woken if it is at no job. -/
theorem hands_receive (e : Trigger) (hc : w.core.crew b = some (bridge.worker, jobs)) :
    ∃ more, more.map Job.request = e.request?.toList ∧
      Hands b bridge.worker jobs more w (w.receive b bridge e) := by
  have hsaid : Hands b bridge.worker jobs [] w (w.say (.triggered e)) :=
    hands_nil hc rfl rfl fun _ ht => ht
  cases e with
  | navigate path =>
    -- a page is put aside, and hands nobody a job
    refine ⟨[], rfl, ?_⟩
    unfold receive
    dsimp only
    split
    · refine hands_nil hc (congrFun ?_ b) rfl fun _ ht => ht
      exact crew_setBridge (w.say _) b (fun _ => rfl) fun _ => rfl
    · exact hands_nil hc rfl rfl fun _ ht => ht
  | quickConnect =>
    exact ⟨[⟨.quickConnect, w.epoch⟩], rfl, hsaid.trans (hands_handOver _ hsaid.crew)⟩
  | connect id =>
    exact ⟨[⟨.connect id, w.epoch⟩], rfl, hsaid.trans (hands_handOver _ hsaid.crew)⟩
  | disconnect =>
    -- the connects before it are cancelled on the spot, and then it is a job like the others
    have hvoid :
        Hands b bridge.worker jobs [] w (w.say (.triggered .disconnect)).cancelConnects := by
      refine hands_nil hc (by rw [core_cancelConnects]; rfl) (by rw [core_cancelConnects]; rfl) ?_
      obtain ⟨more, hm⟩ := cancelConnects_eq (w.say (.triggered .disconnect))
      rw [hm]
      exact fun _ ht => List.mem_append_left _ ht
    exact ⟨[⟨.disconnect, w.epoch⟩], rfl, hvoid.trans (hands_handOver _ hvoid.crew)⟩

/-- Triggers are taken, one after the other. -/
theorem hands_receiveAll (bridge : Bridge) (es : List Trigger)
    (hc : w.core.crew b = some (bridge.worker, jobs)) :
    ∃ more, more.map Job.request = es.filterMap Trigger.request? ∧
      Hands b bridge.worker jobs more w (es.foldl (fun w e => w.receive b bridge e) w) := by
  induction es generalizing w jobs with
  | nil => exact ⟨[], rfl, hands_nil hc rfl rfl fun _ ht => ht⟩
  | cons e es ih =>
    obtain ⟨more, hm, hh⟩ := hands_receive e hc
    obtain ⟨rest, hr, hh'⟩ := ih hh.crew
    refine ⟨more ++ rest, ?_, hh.trans hh'⟩
    rw [List.map_append, hm, hr]
    cases he : e.request? <;> simp [he]

/-- A receiver that ends leaves the jobs alone. -/
theorem endReceiver_keeps (w : Client) (t : TaskId) (b : BridgeId) (bridge : Bridge) :
    (w.endReceiver t b bridge).core.crew = w.core.crew ∧
      ∀ u ∈ w.ready, u ∈ (w.endReceiver t b bridge).ready := by
  unfold endReceiver
  dsimp only
  -- the client when the bridge is closed
  generalize hv : w.setBridge b _ = v
  have hcrew : v.core.crew = w.core.crew := by
    rw [← hv]
    exact crew_setBridge w b (fun _ => rfl) fun _ => rfl
  have hready : v.ready = w.ready := by
    rw [← hv]
    rfl
  constructor
  · rw [← hcrew, ← core_wakeWorker v bridge]
    rfl
  · intro u hu
    exact (ready_wakeWorker v bridge).subset (hready ▸ hu)

/-- What a turn of a receiver does for the worker: the requests among the triggers at hand become
jobs, in order, and a worker that was at none is woken for them. -/
theorem receiver_turn (t : TaskId) (hb : w.bridge? b = some bridge) :
    ∃ more, more.map Job.request = bridge.atHand.filterMap Trigger.request? ∧
      (w.runReceiver t b).core.crew b = some (bridge.worker, bridge.jobs ++ more) ∧
      (more ≠ [] → w.core.entry bridge.worker = some (.worker b none) →
        bridge.worker ∈ (w.runReceiver t b).ready) := by
  have hc : w.core.crew b = some (bridge.worker, bridge.jobs) := by
    unfold crew
    rw [show w.core.bridges[b]? = some bridge from hb]
    rfl
  unfold runReceiver Bridge.atHand
  rw [hb]
  dsimp only
  split
  · refine ⟨[], rfl, ?_, fun h => absurd rfl h⟩
    rw [(endReceiver_keeps w t b bridge).1, hc, List.append_nil]
  · -- the client when the queue is empty and nothing was taken yet
    generalize hv : w.setBridge b _ = v
    have hcv : v.core.crew b = some (bridge.worker, bridge.jobs) := by
      rw [← hc, ← hv]
      refine congrFun ?_ b
      exact crew_setBridge w b (fun _ => rfl) fun _ => rfl
    have he : v.core.entry = w.core.entry := by
      rw [← hv]
      rfl
    obtain ⟨more, hm, hh⟩ := hands_receiveAll bridge bridge.triggers.queue hcv
    have hwoken := hh.woken
    rw [he] at hwoken
    split
    · -- with a sender left it waits; without one it ends, once it has taken everything
      exact ⟨more, hm, hh.crew, hwoken⟩
    · obtain ⟨hcrew, hready⟩ := endReceiver_keeps
        ((bridge.triggers.queue.foldl (fun w e => w.receive b bridge e) v).say .triggersClosed)
        t b bridge
      exact ⟨more, hm, (congrFun hcrew b).trans hh.crew, fun hne ho => hready _ (hwoken hne ho)⟩

/-! ## What every event keeps -/

/-- Where the worker of a bridge stands: at a job, at none, or at its end. -/
inductive Stands (w : Client) (b : BridgeId) (u : TaskId) (jobs : List Job) : Option Job → Prop
  | busy {job : Job} {l : Lifecycle} (he : w.core.entry u = some (.worker b (some (job, l)))) :
    Stands w b u jobs (some job)
  /-- Who has jobs and is at none is woken. -/
  | idle (he : w.core.entry u = some (.worker b none)) (hr : jobs ≠ [] → u ∈ w.ready) :
    Stands w b u jobs none
  /-- Who has ended had no job left, and gets none. -/
  | gone {how : Ending} (he : w.core.entry u = some (.ended how)) (hj : jobs = [])
    (hd : ∀ t, w.core.entry t ≠ some (.receiver b)) : Stands w b u jobs none

/-- What is known of a bridge and its worker at every point of a run. -/
structure Duty (b : BridgeId) (taken : List Trigger) (marks : List Mark) (w : Client) : Prop where
  absent : w.core.crew b = none → taken = [] ∧ marks = []
  stands : ∀ u jobs, w.core.crew b = some (u, jobs) → ∃ through current,
    marks = Mark.inTurn through current ∧
    (through.map Prod.fst ++ current.toList ++ jobs).map Job.request =
      taken.filterMap Trigger.request? ∧ Stands w b u jobs current

/-- Nothing happens to the jobs. -/
theorem Duty.keep (h : Duty b han marks w) (hp : Posts b w w')
    (hc : w'.core.crew b = w.core.crew b)
    (hk : ∀ u current, w.core.entry u = some (.worker b current) →
      w'.core.entry u = some (.worker b current) ∧ (u ∈ w.ready → u ∈ w'.ready)) :
    Duty b han marks w' where
  absent hn := h.absent (hc.symm.trans hn)
  stands u jobs hu := by
    obtain ⟨through, current, hm, hj, hs⟩ := h.stands u jobs (hc.symm.trans hu)
    refine ⟨through, current, hm, hj, ?_⟩
    cases hs with
    | busy he => exact .busy (hk u _ he).1
    | idle he hr => exact .idle (hk u _ he).1 fun hne => (hk u _ he).2 (hr hne)
    | gone he hnone hd => exact .gone (hp.ended u _ he) hnone fun t ht => hd t (hp.back t ht)

/-- Changes from outside leave the jobs alone. -/
theorem Duty.outside {e : Event} (h : Duty b han marks w) (ho : Outer e w w')
    (hc : w'.core = w.core ∨ Outside w.core e w'.core)
    (he : e = .openBridge → b ≠ w.bridges.length) : Duty b han marks w' := by
  refine h.keep (posts_outside ho hc he) ?_ fun u current hu =>
    ⟨entry_of_task? (ho.task u _ rfl (task?_of_entry hu)) rfl, fun hr => ho.ready.subset hr⟩
  rcases hc with hc | hc
  · rw [hc]
  · exact hc.crew_eq he

/-- A turn of a task that is neither the receiver nor the worker of the bridge. -/
theorem Duty.turn {ρ : List Record} (h : Duty b han marks w) (hs : Spares t w w')
    (hc : Steps w.core (ρ.map Record.act) w'.core)
    (ha : ∀ a ∈ ρ.map Record.act, a.source ≠ .bridge b)
    (hr : w.core.entry t ≠ some (.receiver b))
    (hk : ∀ current, w.core.entry t ≠ some (.worker b current)) :
    Duty b han (marks ++ marksIn b ρ) w' := by
  rw [marksIn_of_source ha, List.append_nil]
  refine h.keep (posts_turn hs hc hr) (hc.crew_eq ha) fun u current hu => ?_
  have hne : u ≠ t := by
    rintro rfl
    exact hk current hu
  exact ⟨(hs.entry u hne).trans hu, hs.ready u hne⟩

/-- The crew of a bridge that is there: its worker, and the jobs that wait. -/
theorem crew_of_bridge? (hb : w.bridge? b = some bridge) :
    w.core.crew b = some (bridge.worker, bridge.jobs) := by
  unfold crew
  rw [show w.core.bridges[b]? = some bridge from hb]
  rfl

/-- The receiver of the bridge has its turn: it hands over what the triggers at hand ask for, which
makes the jobs longer at their end and moves none that was there. -/
theorem Duty.receive (h : Duty b han marks w) (hi : Intake b acc han rd w) (hw : w.Fit)
    (ht : w.core.entry t = some (.receiver b)) :
    Duty b (han ++ takes b w (.poll t)) marks (w.happen (.poll t)) := by
  obtain ⟨r, hr, -⟩ := hi.post t ht
  obtain ⟨bridge, hb, -⟩ := Option.map_eq_some_iff.1 hr
  obtain ⟨more, hm, hcrew, hwoken⟩ :=
    receiver_turn (w := { w with ready := w.ready.erase t }) t hb
  rw [← happen_receive ht] at hcrew hwoken
  obtain ⟨through, current, hmarks, hj, hs⟩ := h.stands _ _ (crew_of_bridge? hb)
  rw [takes_poll ht hb]
  refine ⟨fun hn => ?_, fun u jobs hu => ?_⟩
  · rw [hcrew] at hn
    cases hn
  · rw [hcrew] at hu
    cases hu
    refine ⟨through, current, hmarks, ?_, ?_⟩
    · rw [← List.append_assoc, List.map_append, hj, hm, List.filterMap_append]
    · have hspares := poll_spares hw t
      have hne : ∀ current, w.core.entry bridge.worker = some (.worker b current) →
          bridge.worker ≠ t := by
        intro current he heq
        rw [heq, ht] at he
        cases he
      -- the worker is at a job and stays there, or was at none and is woken, or has ended
      cases hs with
      | busy he => exact .busy ((hspares.entry _ (hne _ he)).trans he)
      | idle he hready =>
        refine .idle ((hspares.entry _ (hne _ he)).trans he) fun hjobs => ?_
        by_cases hmore : more = []
        · rw [hmore, List.append_nil] at hjobs
          exact hspares.ready _ (hne _ he) (hready hjobs)
        · exact hwoken hmore he
      | gone _ _ hd => exact absurd ht (hd t)

/-- The receiver of a bridge that takes no jobs any more has ended. -/
theorem Intake.no_receiver (hi : Intake b acc han rd w) (hb : w.bridge? b = some bridge)
    (hr : bridge.hasReceiver = false) (t : TaskId) : w.core.entry t ≠ some (.receiver b) := by
  intro ht
  have hf : w.front? b = some bridge.front := congrArg (Option.map Bridge.front) hb
  obtain ⟨r, hfr, rfl⟩ := hi.post t ht
  rw [hf] at hfr
  cases hfr
  obtain ⟨how, he⟩ := hi.ended _ hf hr
  rw [ht] at he
  cases he

/-- Where a worker stands when its turn is over: at the job that has to wait, at none, or at its
end. -/
theorem Carried.stands {through : List (Job × Settled)} {current : Option Job} {left : List Job}
    (h : Carried u b bridge marks w' through current left)
    (hd : bridge.hasReceiver = false → ∀ t, w'.core.entry t ≠ some (.receiver b)) :
    Stands w' b u left current := by
  cases hc : current with
  | some job =>
    obtain ⟨l, he⟩ := h.busy job hc
    exact .busy he
  | none =>
    -- without a job it waits for its receiver, unless that has ended, too
    obtain ⟨hleft, he⟩ := h.idle hc
    cases hr : bridge.hasReceiver with
    | true =>
      rw [hr] at he
      exact .idle he fun hne => absurd hleft hne
    | false =>
      rw [hr] at he
      exact .gone he hleft (hd hr)

/-- A worker goes on from where all jobs that it has begun are through. -/
theorem Carried.duty {through before : List (Job × Settled)} {current : Option Job}
    {left : List Job} (h : Carried bridge.worker b bridge marks w' through current left)
    (hj : (before.map Prod.fst ++ bridge.jobs).map Job.request = han.filterMap Trigger.request?)
    (hd : bridge.hasReceiver = false → ∀ t, w'.core.entry t ≠ some (.receiver b)) :
    Duty b han (Mark.inTurn before none ++ marks) w' := by
  have hcrew := crew_of_bridge? h.keeps
  refine ⟨fun hn => ?_, fun u jobs hu => ?_⟩
  · rw [hcrew] at hn
    cases hn
  · rw [hcrew] at hu
    cases hu
    refine ⟨before ++ through, current, ?_, ?_, h.stands hd⟩
    · rw [h.marks, Mark.inTurn_append]
    · rw [← hj, h.jobs, List.map_append (f := Prod.fst), List.append_assoc, List.append_assoc,
        List.append_assoc]

/-- The worker of the bridge has its turn: the jobs that are through come to their marks, and the
next ones are begun in order. -/
theorem Duty.work (h : Duty b han marks w) (hi : Intake b acc han rd w) (hf : w.core.Staffed)
    (hw : w.Fit) {current : Option (Job × Lifecycle)}
    (ht : w.core.entry t = some (.worker b current)) :
    Duty b han (marks ++ marksIn b (w.recordsOf (.poll t))) (w.happen (.poll t)) := by
  obtain ⟨jobs, hcrew⟩ := hf.owner t b current ht
  obtain ⟨bridge, hb, heq⟩ := Option.map_eq_some_iff.1 hcrew
  cases heq
  have hk : ({ w with ready := w.ready.erase bridge.worker } : Client).task? bridge.worker =
    some (.worker b current) := task?_of_entry ht
  -- its turn is a worker's, and so are the records of it
  have hrecords : w.recordsOf (.poll bridge.worker) =
      ({ w with ready := w.ready.erase bridge.worker } : Client).workerRecords bridge.worker b
        current := by
    show ({ w with ready := w.ready.erase bridge.worker } : Client).turnRecords bridge.worker = _
    unfold turnRecords
    rw [hk]
  have hrun : w.happen (.poll bridge.worker) =
      ({ w with ready := w.ready.erase bridge.worker } : Client).runWorker bridge.worker b
        current := by
    show ({ w with ready := w.ready.erase bridge.worker } : Client).run bridge.worker = _
    unfold run
    rw [hk]
  have hsteps := steps_run (w := { w with ready := w.ready.erase bridge.worker }) hw.sound
    bridge.worker
  -- a receiver that has ended hands it nothing more
  have hd : bridge.hasReceiver = false → ∀ t,
      (w.happen (.poll bridge.worker)).core.entry t ≠ some (.receiver b) := fun hr t he =>
    hi.no_receiver hb hr t (hsteps.receiver he)
  obtain ⟨through, current', rfl, hj, hs⟩ := h.stands _ _ hcrew
  rw [hrecords]
  rw [hrun] at hd ⊢
  cases hs with
  | @busy job l he =>
    rw [ht] at he
    cases he
    rcases carried_busy (w := { w with ready := w.ready.erase bridge.worker }) hw.sound ht hb with
      ⟨hm, hkeeps, l', he⟩ | ⟨s, more, through', current, left, hm, hc⟩
    · -- it is still at its job
      rw [hm, List.append_nil]
      have hcrew' := crew_of_bridge? hkeeps
      refine ⟨fun hn => ?_, fun u jobs hu => ?_⟩
      · rw [hcrew'] at hn
        cases hn
      · rw [hcrew'] at hu
        cases hu
        exact ⟨through, some job, rfl, hj, .busy he⟩
    · -- the job is through, and jobs that waited are carried out after it
      rw [hm, Mark.inTurn_ends]
      refine hc.duty ?_ hd
      rw [List.map_append (f := Prod.fst)]
      exact hj
  | idle he _ =>
    rw [ht] at he
    cases he
    -- at no job it takes what waits
    obtain ⟨through', current, left, hc⟩ :=
      carried_idle (w := { w with ready := w.ready.erase bridge.worker }) hw.sound ht hb
    refine hc.duty ?_ hd
    rw [← hj]
    simp
  | gone he _ _ =>
    rw [ht] at he
    cases he

/-- A turn: of the receiver, of the worker, or of a task that has nothing to do with the bridge and
leaves its jobs alone. -/
theorem Duty.poll (h : Duty b han marks w) (hi : Intake b acc han rd w) (hf : w.core.Staffed)
    (hw : w.Fit) (t : TaskId) :
    Duty b (han ++ takes b w (.poll t)) (marks ++ marksIn b (w.recordsOf (.poll t)))
      (w.happen (.poll t)) := by
  by_cases hr : w.core.entry t = some (.receiver b)
  · have hrecords : marksIn b (w.recordsOf (.poll t)) = [] := by
      show marksIn b (({ w with ready := w.ready.erase t } : Client).turnRecords t) = []
      unfold turnRecords
      rw [show ({ w with ready := w.ready.erase t } : Client).task? t = some (.receiver b) from
        task?_of_entry hr]
      exact marksIn_plain _ _
    rw [hrecords, List.append_nil]
    exact h.receive hi hw hr
  · rw [takes_poll_of_ne hr, List.append_nil]
    by_cases hk : ∃ current, w.core.entry t = some (.worker b current)
    · obtain ⟨current, hk⟩ := hk
      exact h.work hi hf hw hk
    · have hk : ∀ current, w.core.entry t ≠ some (.worker b current) := fun current hc =>
        hk ⟨current, hc⟩
      have hacts := recordsOf_map_act w (.poll t)
      refine h.turn (poll_spares hw t) ?_ ?_ hr hk
      · rw [hacts]
        exact steps_run (w := { w with ready := w.ready.erase t }) hw.sound t
      · rw [hacts]
        exact source_turnActs (w := { w with ready := w.ready.erase t }) hr hk

/-- A call runs at once. -/
theorem Duty.call (h : Duty b han marks w) (hw : w.Fit) (command : Command) :
    Duty b han (marks ++ marksIn b (w.recordsOf (.call command))) (w.happen (.call command)) := by
  obtain ⟨hout, hcore, hent, hparts⟩ := call_turnParts hw command
  have hr : (w.called command).core.entry w.tasks.length ≠ some (.receiver b) := by
    rw [hent]
    exact nofun
  have hk : ∀ current, (w.called command).core.entry w.tasks.length ≠ some (.worker b current) := by
    rw [hent]
    exact fun _ => nofun
  refine (h.outside hout (.inr hcore) nofun).turn hparts.spares hparts.steps ?_ hr hk
  rw [recordsOf_map_act]
  exact source_turnActs hr hk

/-- A bridge is opened. -/
theorem Duty.openBridge (h : Duty b han marks w) (hw : w.Fit) :
    Duty b han marks (w.happen .openBridge) := by
  -- the bridge is the new one, whose worker is at no job; or it was there before
  by_cases hb : b = w.bridges.length
  · have hnone : w.core.crew b = none := by
      rw [hb]
      exact crew_length
    obtain ⟨rfl, rfl⟩ := h.absent hnone
    obtain ⟨capacity, hc⟩ := core_activate w hw.sound
    have hcrew : w.activate.2.core.crew b = some (w.core.size, []) := by
      rw [hc, crew_openBridge rfl rfl, hb]
      exact Function.update_self _ _ _
    refine ⟨fun hn => ?_, fun u jobs hu => ?_⟩
    · rw [show (w.happen .openBridge).core.crew b = _ from hcrew] at hn
      cases hn
    · rw [show (w.happen .openBridge).core.crew b = _ from hcrew] at hu
      cases hu
      refine ⟨[], none, rfl, rfl, .idle ?_ fun hne => absurd rfl hne⟩
      show w.activate.2.core.entry w.core.size = _
      rw [hc, hb]
      exact entry_openBridge_worker
  · exact h.outside (outer_happen w trivial) (outside_happen hw.sound trivial) fun _ => hb

/-- What an event does to the jobs: only turns of the receiver and of the worker touch them. -/
theorem Duty.happen (h : Duty b han marks w) (hi : Intake b acc han rd w) (hf : w.core.Staffed)
    (hw : w.Fit) (e : Event) :
    Duty b (han ++ takes b w e) (marks ++ marksIn b (w.recordsOf e)) (w.happen e) := by
  have hquiet : ∀ {e : Event}, e.IsQuiet → Duty b han marks (w.happen e) →
      Duty b (han ++ takes b w e) (marks ++ marksIn b (w.recordsOf e)) (w.happen e) := by
    intro e he hd
    have hrecords : w.recordsOf e = [] := by cases e <;> first | rfl | cases he
    rw [takes_quiet he, hrecords, List.append_nil]
    exact (List.append_nil marks).symm ▸ hd
  cases e with
  | call command =>
    rw [show takes b w (.call command) = [] from rfl, List.append_nil]
    exact h.call hw command
  | poll t => exact h.poll hi hf hw t
  | openBridge => exact hquiet trivial (h.openBridge hw)
  | _ =>
    exact hquiet trivial
      (h.outside (outer_happen w trivial) (outside_happen hw.sound trivial) nofun)

end Client

end TunnelSession
