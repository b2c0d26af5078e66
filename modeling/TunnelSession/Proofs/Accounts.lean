/-
  The ledger of a core.

  RUNS.  In every run the ledger of the core is right about the trace (`Core.Accounts`), and a call
  whose request has a result is over, with that result as its reply (`Core.Replied`).
-/
import TunnelSession.Proofs.Ledger
import TunnelSession.Proofs.Sources

namespace TunnelSession

namespace Core

variable {past : List Act} {c c' : Core} {t : TaskId} {b : BridgeId}

/-- A stretch of work on the oldest request of a source. The request keeps its ticket, and its stage
does not go back; all that waits behind it waits on. -/
theorem ledger_stretch {s : Source} {start : Start} {p : Progress Lifecycle Settled} {task : Task}
    (hl : Ledger past c.epoch c.standing
      (Function.update c.pending s (start.ticket? :: (c.waiting s).map Job.ticket?)))
    (ho : c.standing s = start.stage?) (hs : Stretch t c start p c')
    (hw : (c'.write t task).waiting = c.waiting)
    (hu : (c'.write t task).standing = Function.update c.standing s p.stage?) :
    Ledger (past ++ [.leg (c.leg c' s start.stage? p)]) (c'.write t task).epoch
      (c'.write t task).standing (c'.write t task).pending := by
  have hwait : (c'.write t task).waiting = Function.update c.waiting s (c.waiting s) := by
    rw [hw, Function.update_eq_self]
  have hrank := hs.ticket_rank
  -- a request that waits again has the ticket that it had
  have hticket : p.stage?.toList.map Lifecycle.ticket? =
      p.stage?.toList.map fun _ => start.ticket? := by
    cases p with
    | waiting l =>
      show [l.ticket?] = [start.ticket?]
      rw [(hrank l rfl).1]
    | done => rfl
  -- and its stage does not go back
  have hadv : (c.leg c' s start.stage? p).Advances := by
    intro a b ha hb
    refine (hrank b hb).2 a ?_
    cases start with
    | resume l =>
      cases ha
      rfl
    | connect | disconnect => cases ha
  have h : Ledger (past ++ [.leg (c.leg c' s start.stage? p)]) c.epoch
      (Function.update c.standing s p.stage?)
      (Function.update (Function.update c.pending s
        (start.ticket? :: (c.waiting s).map Job.ticket?)) s
        ((p.stage?.toList.map fun _ => start.ticket?) ++ (c.waiting s).map Job.ticket?)) :=
    hl.leg (l := c.leg c' s start.stage? p) ho.symm (Function.update_self _ _ _) hadv
      fun n hn => hs.tries hn
  rw [Function.update_idem] at h
  rw [hu, pending_update hu hwait, hticket,
    show (c'.write t task).epoch = c.epoch from hs.near.epoch]
  exact h

/-! ## Runs -/

/-- A call whose request has a result is over, with that result as its reply. -/
def Replied (past : List Act) (c : Core) : Prop :=
  ∀ l t r, .leg l ∈ past → l.source = .call t → l.result = .done r →
    ∃ starts, c.entry t = some (callTask starts (.done r))

/-- The ledger is right about the trace, and who has a result has replied. -/
structure Accounts (past : List Act) (c : Core) : Prop where
  staffed : c.Staffed
  ledger : Ledger past c.epoch c.standing c.pending
  replied : c.Replied past

/-- A request that is made settles nothing. -/
theorem Replied.snoc (h : c.Replied past) {act : Act} (ha : ∀ l, act ≠ .leg l) :
    c.Replied (past ++ [act]) := by
  intro l t r hm
  rcases List.mem_append.1 hm with hm | hm
  · exact h l t r hm
  · exact absurd (List.mem_singleton.1 hm).symm (ha l)

/-- Nothing happens to the requests. -/
theorem Accounts.silent (h : Accounts past c) (hc : c'.Staffed) (he : c'.epoch = c.epoch)
    (hs : c'.standing = c.standing) (hw : c'.waiting = c.waiting)
    (hd : ∀ t how, c.entry t = some (.ended how) → c'.entry t = some (.ended how)) :
    Accounts past c' := by
  have hp : c'.pending = c.pending := by
    funext s
    unfold pending
    rw [hs, hw]
  refine ⟨hc, ?_, ?_⟩
  · rw [he, hs, hp]
    exact h.ledger
  · intro l t r hm hl hr
    obtain ⟨starts, ht⟩ := h.replied l t r hm hl hr
    exact ⟨starts, hd t _ ht⟩

/-- A task that has nothing under way, gets nothing and is no worker afterwards is written. -/
theorem Accounts.write (h : Accounts past c) {task : Task}
    (hk : (c.entry t).bind Task.call? = none) (hw : (c.entry t).bind Task.work? = none)
    (ho : ∀ how, c.entry t ≠ some (.ended how)) (hk' : task.call? = none)
    (hn : ∀ b current, task ≠ .worker b current) : Accounts past (c.write t task) := by
  refine h.silent (h.staffed.write fun b current he => absurd he (hn b current)) rfl ?_ rfl ?_
  · rw [standing_call hw (work?_of_ne hn), hk']
    exact Function.update_eq_self_iff.2 hk.symm
  · exact fun u how hu => entry_write_ended ho hu

/-- What leaves the connection alone is no business of the accounts. -/
theorem Accounts.aside (h : Accounts past c) (ha : Aside c c') : Accounts past c' := by
  have hent := ha.entry_eq
  have hcrew := ha.crew_eq
  refine h.silent ?_ ha.epoch_eq (standing_congr hcrew hent) (waiting_congr hcrew) ?_
  · refine h.staffed.congr (fun b => by rw [hcrew]) (Nat.le_of_eq ha.size_eq.symm) ?_
    intro t b current he
    rw [hent] at he
    exact ⟨current, he⟩
  · intro t how he
    rw [hent]
    exact he

/-- A stretch of work, of a call or of a worker. It writes the entry of one task, so the crews stay
and the replies of the others do, and the ledger has the work as one more leg. -/
theorem Accounts.stretch {s : Source} {start : Start} {p : Progress Lifecycle Settled}
    {old task : Task}
    (hc : c.Staffed) (hr : c.Replied past)
    (hl : Ledger past c.epoch c.standing
      (Function.update c.pending s (start.ticket? :: (c.waiting s).map Job.ticket?)))
    (ho : c.standing s = start.stage?) (hold : c.entry t = some old)
    (hne : ∀ how, old ≠ .ended how)
    (hs : Stretch t c start p c')
    (ht : ∀ b current, task = .worker b current → ∃ current', old = .worker b current')
    (hu : (c.write t task).standing = Function.update c.standing s p.stage?)
    (hk : ∀ u r, s = .call u → p = .done r → u = t ∧ ∃ starts, task = callTask starts p) :
    Accounts (past ++ [.leg (c.leg c' s start.stage? p)]) (c'.write t task) := by
  have hcrew : c'.crew = c.crew := by
    funext b
    unfold crew
    rw [hs.near.bridges]
  -- the work writes the entry of `t`, and no other
  have hent : (c'.write t task).entry = (c.write t task).entry := by
    show Function.update c'.entry t _ = Function.update c.entry t _
    rw [hs.near.entry]
  have hend : ∀ u how, c.entry u = some (.ended how) →
      (c'.write t task).entry u = some (.ended how) := by
    intro u how he
    rw [hent]
    refine entry_write_ended (fun how he' => ?_) he
    rw [hold] at he'
    exact hne how (Option.some.inj he')
  refine ⟨?_, ?_, ?_⟩
  · -- the staff: nobody becomes a worker who was none
    have hw : (c.write t task).Staffed := hc.write fun b current he => by
      obtain ⟨current', he'⟩ := ht b current he
      exact ⟨current', by rw [hold, he']⟩
    refine hw.congr (fun b => ?_) hs.near.size fun u b current he => ⟨current, ?_⟩
    · rw [show (c'.write t task).crew = c'.crew from rfl, hcrew]
      rfl
    · rw [← hent]
      exact he
  · have hstanding : (c'.write t task).standing = (c.write t task).standing :=
      standing_congr hcrew hent
    exact ledger_stretch hl ho hs (waiting_congr hcrew) (hstanding.trans hu)
  · -- the replies: those from before stay, and the new one is that of the work
    intro l u r hm hsrc hres
    rcases List.mem_append.1 hm with hm | hm
    · obtain ⟨starts, he⟩ := hr l u r hm hsrc hres
      exact ⟨starts, hend u _ he⟩
    · cases List.mem_singleton.1 hm
      obtain ⟨rfl, starts, hstarts⟩ := hk u r hsrc hres
      refine ⟨starts, ?_⟩
      rw [hent, show (c.write u task).entry u = some task from Function.update_self _ _ _, hstarts,
        show p = .done r from hres]

/-- A stretch of work of a call. -/
theorem Accounts.call {start : Start} {p : Progress Lifecycle Settled} {point : Point}
    (starts : Bool) (hc : c.Staffed) (hr : c.Replied past)
    (hl : Ledger past c.epoch c.standing
      (Function.update c.pending (.call t) [start.ticket?]))
    (hold : c.entry t = some (.command point)) (hk : (Task.command point).call? = start.stage?)
    (hs : Stretch t c start p c') :
    Accounts (past ++ [.leg (c.leg c' (.call t) start.stage? p)])
      (c'.write t (callTask starts p)) := by
  have hne : ∀ how, Task.command point ≠ .ended how := fun _ he => nomatch he
  refine Accounts.stretch hc hr hl ?_ hold hne hs ?_ ?_ ?_
  · show (c.entry t).bind Task.call? = _
    rw [hold]
    exact hk
  · intro b current he
    cases p <;> cases he
  · rw [standing_call (by rw [hold]; rfl) (callTask_work? _ _), callTask_call?]
  · intro u r hu _
    cases hu
    exact ⟨rfl, starts, rfl⟩

/-- A stretch of work of a worker. What was pending for its bridge is the job that it is at, and
behind that one the jobs that it has not taken yet. -/
theorem Accounts.worker {start : Start} {p : Progress Lifecycle Settled} {jobs : List Job}
    {current : Option (Job × Lifecycle)} (job : Job) (hc : c.Staffed) (hr : c.Replied past)
    (hl : Ledger past c.epoch c.standing
      (Function.update c.pending (.bridge b) (start.ticket? :: jobs.map Job.ticket?)))
    (hb : c.crew b = some (t, jobs)) (hold : c.entry t = some (.worker b current))
    (hk : (Task.worker b current).work? = start.stage?) (hs : Stretch t c start p c') :
    Accounts (past ++ [.leg (c.leg c' (.bridge b) start.stage? p)])
      (c'.write t (jobTask b job p)) := by
  have hwait : c.waiting (.bridge b) = jobs := by
    show ((c.crew b).map (·.2)).getD [] = jobs
    rw [hb]
    rfl
  have hne : ∀ how, Task.worker b current ≠ .ended how := fun _ he => nomatch he
  refine Accounts.stretch hc hr (by rw [hwait]; exact hl) ?_ hold hne hs ?_ ?_ ?_
  · show (c.crew b).bind (fun r => (c.entry r.1).bind Task.work?) = _
    rw [hb]
    show (c.entry t).bind Task.work? = _
    rw [hold]
    exact hk
  · intro b' current' he
    obtain ⟨current'', he'⟩ := jobTask_eq b job p
    rw [he'] at he
    cases he
    exact ⟨current, rfl⟩
  · rw [hc.standing_worker hb (by rw [hold]; rfl) (jobTask_call? _ _ _), jobTask_work?]
  · -- a worker has no reply
    intro u r hu _
    cases hu

/-- A job is handed over: it comes behind what the worker has under way and behind the jobs that
wait, where the ledger has its request already. -/
theorem Accounts.handOver {bridge : Bridge} {job : Job} (hc : c.Staffed) (hr : c.Replied past)
    (hl : Ledger past c.epoch c.standing
      (Function.update c.pending (.bridge b) (c.pending (.bridge b) ++ [job.ticket?])))
    (hb : c.bridges[b]? = some bridge) : Accounts past (c.handOver b job) := by
  have hcb : c.crew b = some (bridge.worker, bridge.jobs) := by
    unfold crew
    rw [hb]
    rfl
  have hcrew := crew_handOver c b job
  rw [hcb, Option.map_some] at hcrew
  have hstanding : (c.handOver b job).standing = c.standing := standing_jobs hcb hcrew rfl
  refine ⟨hc.withJobs hcb hcrew rfl rfl, ?_, hr⟩
  -- behind what the worker has under way comes the new job
  have hp : (c.handOver b job).pending =
      Function.update c.pending (.bridge b) (c.pending (.bridge b) ++ [job.ticket?]) := by
    have hu : (c.handOver b job).standing =
        Function.update c.standing (.bridge b) (c.standing (.bridge b)) := by
      rw [hstanding, Function.update_eq_self]
    have hw : c.waiting (.bridge b) = bridge.jobs := by
      show ((c.crew b).map (·.2)).getD [] = _
      rw [hcb]
      rfl
    rw [pending_update hu (waiting_jobs hcrew)]
    unfold pending
    rw [hw, List.map_append, List.append_assoc]
    rfl
  rw [hp, hstanding]
  exact hl

/-- A task without an entry ends. -/
theorem Accounts.retire (h : Accounts past c) (ho : c.entry t = none) :
    Accounts past { c.write t (.ended .finished) with
      looking := Function.update c.looking t none } := by
  have hw : Accounts past (c.write t (.ended .finished)) := by
    refine h.write ?_ ?_ ?_ rfl fun _ _ he => nomatch he
    · rw [ho]
      rfl
    · rw [ho]
      rfl
    · rw [ho]
      exact fun _ he => nomatch he
  exact hw.silent ⟨hw.staffed.owner, hw.staffed.distinct, hw.staffed.small⟩ rfl rfl rfl
    fun _ _ he => he

/-- A call goes on. -/
theorem Accounts.resume {starts : Bool} {l : Lifecycle} {p : Progress Lifecycle Settled}
    (h : Accounts past c) (ho : c.entry t = some (callTask starts (.waiting l)))
    (hst : Stretch t c (.resume l) p c') :
    Accounts (past ++ [.leg (c.leg c' (.call t) (some l) p)]) (c'.write t (callTask starts p)) := by
  have hk := callTask_call? starts (.waiting l)
  have hp : c.pending (.call t) = [l.ticket?] := by
    rw [pending_call ho, hk]
    rfl
  obtain ⟨point, hpoint⟩ : ∃ point, c.entry t = some (.command point) := ⟨_, ho⟩
  rw [hpoint] at ho
  refine Accounts.call starts h.staffed h.replied ?_ hpoint ?_ hst
  · rw [show [(Start.resume l).ticket?] = c.pending (.call t) from hp.symm,
      Function.update_eq_self]
    exact h.ledger
  · rw [Option.some.inj ho]
    exact hk

/-- A worker begins a job. The job is taken off the list and is what the worker has under way from
then on, so that nothing that is pending changes places. -/
theorem Accounts.begin {bridge : Bridge} {job : Job} {rest : List Job}
    {p : Progress Lifecycle Settled} (h : Accounts past c)
    (ho : c.entry t = some (.worker b none)) (hb : c.bridges[b]? = some bridge)
    (hj : bridge.jobs = job :: rest) (hst : Stretch t (c.takeJob b rest) job.start p c') :
    Accounts (past ++ [.leg (c.leg c' (.bridge b) none p)]) (c'.write t (jobTask b job p)) := by
  have hcb : c.crew b = some (t, job :: rest) := by
    obtain ⟨jobs, hcb⟩ := h.staffed.owner t b none ho
    rw [hcb]
    have hcb' := hcb
    unfold crew at hcb'
    rw [hb, Option.map_some] at hcb'
    cases hcb'
    rw [hj]
  have hcrew := crew_takeJob c b rest
  rw [hcb, Option.map_some] at hcrew
  have hstage := Job.stage?_start job
  -- the job is taken off the list, and is what the worker has under way from now on
  have hl : Ledger past (c.takeJob b rest).epoch (c.takeJob b rest).standing
      (Function.update (c.takeJob b rest).pending (.bridge b)
        (job.start.ticket? :: rest.map Job.ticket?)) := by
    have hstanding : (c.takeJob b rest).standing = c.standing := standing_jobs hcb hcrew rfl
    have hu : (c.takeJob b rest).standing =
        Function.update c.standing (.bridge b) (c.standing (.bridge b)) := by
      rw [hstanding, Function.update_eq_self]
    have hp : job.start.ticket? :: rest.map Job.ticket? = c.pending (.bridge b) := by
      rw [pending_bridge hcb ho, Job.ticket?_start]
      rfl
    rw [pending_update hu (waiting_jobs hcrew), Function.update_idem, hp, Function.update_eq_self,
      hstanding]
    exact h.ledger
  have hstep := Accounts.worker (c := c.takeJob b rest) job (h.staffed.withJobs hcb hcrew rfl rfl)
    h.replied hl (hcrew ▸ Function.update_self _ _ _) ho hstage.symm hst
  rw [hstage] at hstep
  exact hstep

/-- Every step keeps the accounts, with the acts of the step added to the past. A step without acts
writes a task that is at no request. -/
theorem Accounts.step {acts : List Act} (h : Accounts past c) (hs : Step c acts c') :
    Accounts (past ++ acts) c' := by
  cases hs with
  | aside ha =>
    rw [List.append_nil]
    exact h.aside ha
  | turn ho ht _ =>
    -- a turn that has nothing to do with requests
    rw [List.append_nil]
    refine h.write ?_ ?_ ?_ ht.call?.2 ht.work?.2
    · rw [ho]
      exact ht.call?.1
    · rw [ho]
      exact ht.work?.1
    · rw [ho]
      intro how he
      cases he
      cases ht
  | @retire t ho _ =>
    rw [List.append_nil]
    exact h.retire ho
  | @takeAsk b bridge request target hb hr =>
    -- a trigger is taken: the request is made now, and its job waits for the worker
    have hj : Job.ticket? ⟨request, c.epoch⟩ = some c.epoch := by
      unfold Job.ticket?
      dsimp only
      rw [hr]
      rfl
    refine Accounts.handOver h.staffed ?_ ?_ hb
    · exact h.replied.snoc fun _ => Act.ask_ne_leg
    · rw [hj]
      exact h.ledger.ask _ _
  | @takeLeave b bridge hb =>
    refine Accounts.handOver (c := { c with epoch := c.epoch + 1 }) h.staffed.later ?_ ?_ hb
    · exact h.replied.snoc fun _ => Act.leave_ne_leg
    · exact h.ledger.leave _
  | @ask t point target p c' ho ha hst =>
    -- two acts at once: the request is made, and then it is worked on
    rw [show [Act.ask (.call t) target, .leg (c.leg c' (.call t) none p)] =
      [.ask (.call t) target] ++ [.leg (c.leg c' (.call t) none p)] from rfl, ← List.append_assoc]
    have hk := call?_of_asks ha
    refine Accounts.call _ h.staffed ?_ ?_ ho ?_ hst
    · exact h.replied.snoc fun _ => Act.ask_ne_leg
    · have hl := h.ledger.ask (.call t) target
      rw [pending_call ho, hk] at hl
      exact hl
    · exact hk
  | @leave t p c' ho hst =>
    rw [show [Act.leave (.call t), .leg (c.leg c' (.call t) none p)] =
      [.leave (.call t)] ++ [.leg (c.leg c' (.call t) none p)] from rfl, ← List.append_assoc]
    refine Accounts.call (c := { c with epoch := c.epoch + 1 }) false h.staffed.later ?_ ?_ ho rfl
      hst
    · exact h.replied.snoc fun _ => Act.leave_ne_leg
    · have hl := h.ledger.leave (.call t)
      rw [pending_call ho] at hl
      exact hl
  | @resume t l p c' starts ho hst =>
    exact h.resume ho hst
  | @begin t b bridge job rest p c' ho hb hj hst =>
    exact h.begin ho hb hj hst
  | @carry t b job l p c' ho hst =>
    -- the worker goes on with what it has under way
    obtain ⟨jobs, hcb⟩ := h.staffed.owner t b _ ho
    refine Accounts.worker job h.staffed h.replied ?_ hcb ho rfl hst
    rw [show (Start.resume l).ticket? :: jobs.map Job.ticket? = c.pending (.bridge b) from
      (pending_bridge hcb ho).symm, Function.update_eq_self]
    exact h.ledger

/-! ## Changes from outside -/

theorem Accounts.grow (h : Accounts past c) (n : Nat) :
    Accounts past { c with size := c.size + n } := by
  refine h.silent ⟨h.staffed.owner, h.staffed.distinct, fun b t jobs hb => ?_⟩ rfl rfl rfl
    fun _ _ he => he
  exact Nat.lt_of_lt_of_le (h.staffed.small b t jobs hb) (Nat.le_add_right _ _)

/-- A command that is there has made no request yet. -/
theorem Accounts.spawnCall (h : Accounts past c) (hc : c.Sound) (command : Command) :
    Accounts past (c.spawnCall command) := by
  have he := (hc.small c.size (Nat.le_refl _)).1
  refine (h.grow 1).write ?_ ?_ ?_ rfl fun _ _ he => nomatch he
  · exact congrArg (Option.bind · Task.call?) he
  · exact congrArg (Option.bind · Task.work?) he
  · intro how hh
    rw [show Core.entry { c with size := c.size + 1 } c.size = c.entry c.size from rfl, he] at hh
    cases hh

/-- A bridge is there whose worker is a new task and was given nothing. -/
theorem Accounts.openBridge (h : Accounts past c) (hc : c.Sound) {bridge : Bridge}
    (hw : bridge.worker = c.size) (hj : bridge.jobs = []) :
    Accounts past (c.openBridge bridge) := by
  refine h.silent (h.staffed.openBridge hw hj) rfl (h.staffed.standing_openBridge hc hw hj) ?_ ?_
  · rw [waiting_jobs (crew_openBridge hw hj)]
    refine Function.update_eq_self_iff.2 ?_
    show [] = ((c.crew c.bridges.length).map (·.2)).getD []
    rw [crew_length]
    rfl
  · intro t how he
    rw [entry_openBridge (hc.lt_size he)]
    exact he

/-- Every change from outside keeps the accounts. -/
theorem Accounts.outside {e : Event} (h : Accounts past c) (hc : c.Sound) (ho : Outside c e c') :
    Accounts past c' := by
  cases ho with
  | call | go => exact h.spawnCall hc _
  | pass | fail | pin =>
    exact h.silent ⟨h.staffed.owner, h.staffed.distinct, h.staffed.small⟩ rfl rfl rfl
      fun _ _ he => he
  | startPolling => exact h.grow 1
  | stopPolling => exact h
  | openBridge hw hj => exact h.openBridge hc hw hj
  | bridge bs hb => exact h.aside (.bridge bs hb)

/-- Nothing was asked for, and there is no bridge. -/
theorem accounts_make (config : Config) (backend : Backend) :
    Accounts [] (Client.make config backend).core := by
  -- no source has anything under way
  have hs : (Client.make config backend).core.standing = fun _ => none := by
    funext s
    cases s <;> rfl
  have hp : (Client.make config backend).core.pending = fun _ => [] := by
    funext s
    cases s <;> rfl
  refine ⟨⟨?_, ?_, ?_⟩, ?_, ?_⟩
  · exact fun t b current he => nomatch he
  · exact fun b b' t jobs jobs' hb => nomatch hb
  · exact fun b t jobs hb => nomatch hb
  · rw [hs, hp]
    exact .nil
  · exact fun l t r hm => nomatch hm

end Core

namespace Client

/-- In every run the accounts are right about the trace. -/
theorem accounts_after (config : Config) {backend : Backend} (hb : backend.Prompt)
    (events : List Event) :
    Core.Accounts ((make config backend).trace events)
      ((make config backend).after events).core := by
  have h := invariant_after (I := Core.Accounts) (P := fun _ => True)
    (fun _ _ _ _ _ h hs => h.step hs) (fun _ _ _ _ _ hc h ho => h.outside hc ho)
    (sound_make config hb) [] (Core.accounts_make config backend) events fun _ _ => trivial
  exact h.2

end Client

end TunnelSession
