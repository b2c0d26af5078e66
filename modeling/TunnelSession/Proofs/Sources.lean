/-
  What the sources of requests have to do.

  SOURCES.  What a source has under way is where its call stands, or its worker (`Core.standing`);
  behind that come the jobs that the worker has not begun (`Core.waiting`).  Together they are the
  requests of the source that have no result yet (`Core.pending`).

  STAFF.  Every bridge has a worker of its own (`Core.Staffed`).  So a worker that is written
  changes what its own bridge has under way, and nothing else.
-/
import TunnelSession.Proofs.Requests
import TunnelSession.Proofs.Simulation

namespace TunnelSession

/-- What a call has under way. -/
def Task.call? : Task → Option Lifecycle
  | .command (.lifecycle l) => some l
  | .command (.starting l) => some l
  | _ => none

/-- What a worker has under way. -/
def Task.work? : Task → Option Lifecycle
  | .worker _ (some (_, l)) => some l
  | _ => none

/-- Where an act comes from. -/
def Act.source : Act → Source
  | .ask s _ | .leave s => s
  | .leg l => l.source

theorem callTask_call? (starts : Bool) (p : Progress Lifecycle Settled) :
    (callTask starts p).call? = p.stage? := by
  cases p <;> cases starts <;> rfl

theorem callTask_work? (starts : Bool) (p : Progress Lifecycle Settled) :
    (callTask starts p).work? = none := by
  cases p <;> rfl

theorem jobTask_call? (b : BridgeId) (job : Job) (p : Progress Lifecycle Settled) :
    (jobTask b job p).call? = none := by
  cases p <;> rfl

theorem jobTask_work? (b : BridgeId) (job : Job) (p : Progress Lifecycle Settled) :
    (jobTask b job p).work? = p.stage? := by
  cases p <;> rfl

theorem jobTask_eq (b : BridgeId) (job : Job) (p : Progress Lifecycle Settled) :
    ∃ current, jobTask b job p = .worker b current := by
  cases p
  · exact ⟨_, rfl⟩
  · exact ⟨_, rfl⟩

/-- A command that may ask has nothing under way. -/
theorem call?_of_asks {p : Point} {target : Target} (h : p.asks? = some target) :
    (Task.command p).call? = none := by
  cases p with
  | lifecycle | starting => cases h
  | _ => rfl

/-- A turn that has nothing to do with the connection is not that of a call that has a request under
way. -/
theorem Task.Turns.call? {old task : Task} (h : old.Turns task) :
    old.call? = none ∧ task.call? = none := by
  cases h with
  | @wait p p' h h' _ =>
    refine ⟨?_, ?_⟩
    · cases p <;> first | rfl | cases h
    · cases p' <;> first | rfl | cases h'
  | @reply p h r =>
    refine ⟨?_, rfl⟩
    cases p <;> first | rfl | cases h
  | receiver | worker => exact ⟨rfl, rfl⟩

theorem Task.Turns.work? {old task : Task} (h : old.Turns task) :
    old.work? = none ∧ ∀ b current, task ≠ .worker b current := by
  cases h <;>
  · refine ⟨rfl, ?_⟩
    intro b current he
    cases he

theorem work?_of_ne {task : Task} (h : ∀ b current, task ≠ .worker b current) :
    task.work? = none := by
  cases task with
  | worker b current => exact absurd rfl (h b current)
  | _ => rfl

namespace Core

/-- The worker of a bridge, and the jobs that it has not begun. -/
def crew (c : Core) (b : BridgeId) : Option (TaskId × List Job) :=
  (c.bridges[b]?).map fun r : Bridge => (r.worker, r.jobs)

/-- What a source has under way. -/
def standing (c : Core) : Source → Option Lifecycle
  | .call t => (c.entry t).bind Task.call?
  | .bridge b => (c.crew b).bind fun r => (c.entry r.1).bind Task.work?

/-- What a source has not begun. -/
def waiting (c : Core) : Source → List Job
  | .call _ => []
  | .bridge b => ((c.crew b).map (·.2)).getD []

/-- The tickets of the requests of a source that have no result yet. -/
def pending (c : Core) (s : Source) : List (Option Nat) :=
  (c.standing s).toList.map Lifecycle.ticket? ++ (c.waiting s).map Job.ticket?

variable {c c' : Core} {t : TaskId} {b : BridgeId}

theorem crew_sameJobs {bs : List Bridge} (h : SameJobs c.bridges bs) :
    crew { c with bridges := bs } = c.crew :=
  funext h

/-- A change of one bridge changes its crew only. -/
theorem crew_modify {f : Bridge → Bridge} {g : TaskId × List Job → TaskId × List Job}
    (hf : ∀ r : Bridge, ((f r).worker, (f r).jobs) = g (r.worker, r.jobs)) :
    crew { c with bridges := c.bridges.modify b f } =
      Function.update c.crew b ((c.crew b).map g) := by
  funext b'
  unfold crew
  dsimp only
  rw [List.getElem?_modify]
  by_cases hb : b' = b
  · subst hb
    rw [Function.update_self]
    cases c.bridges[b']? with
    | none => rfl
    | some r => simp [hf]
  · have hne : b ≠ b' := fun h => hb h.symm
    rw [Function.update_of_ne hb]
    cases c.bridges[b']? with
    | none => rfl
    | some r => simp [hne]

theorem crew_handOver (c : Core) (b : BridgeId) (job : Job) :
    (c.handOver b job).crew =
      Function.update c.crew b ((c.crew b).map fun r => (r.1, r.2 ++ [job])) :=
  crew_modify fun _ => rfl

theorem crew_takeJob (c : Core) (b : BridgeId) (rest : List Job) :
    (c.takeJob b rest).crew = Function.update c.crew b ((c.crew b).map fun r => (r.1, rest)) :=
  crew_modify fun _ => rfl

/-! ## What changes -/

/-- What the sources have under way is said by the crews and the entries. -/
theorem standing_congr (hc : c'.crew = c.crew) (he : c'.entry = c.entry) :
    c'.standing = c.standing := by
  funext s
  cases s with
  | call t =>
    unfold standing
    rw [he]
  | bridge b =>
    unfold standing
    rw [hc, he]

theorem waiting_congr (hc : c'.crew = c.crew) : c'.waiting = c.waiting := by
  funext s
  cases s with
  | call t => rfl
  | bridge b =>
    unfold waiting
    rw [hc]

/-- The account of one source changes. -/
theorem pending_update {s : Source} {o : Option Lifecycle} {jobs : List Job}
    (hs : c'.standing = Function.update c.standing s o)
    (hw : c'.waiting = Function.update c.waiting s jobs) :
    c'.pending = Function.update c.pending s
      (o.toList.map Lifecycle.ticket? ++ jobs.map Job.ticket?) := by
  funext s'
  unfold pending
  rw [hs, hw]
  by_cases h : s' = s
  · subst h
    rw [Function.update_self, Function.update_self, Function.update_self]
  · rw [Function.update_of_ne h, Function.update_of_ne h, Function.update_of_ne h]

/-- A call is written that is and was no worker: what its own source has under way is what is
written, and all others keep theirs. -/
theorem standing_call {task : Task} (hw : (c.entry t).bind Task.work? = none)
    (hw' : task.work? = none) :
    (c.write t task).standing = Function.update c.standing (.call t) task.call? := by
  funext s
  cases s with
  | call u =>
    -- the call itself, or another one
    by_cases hu : u = t
    · subst hu
      rw [Function.update_self]
      show (Function.update c.entry u (some task) u).bind Task.call? = _
      rw [Function.update_self]
      rfl
    · rw [Function.update_of_ne fun h => hu (Source.call.inj h)]
      show (Function.update c.entry t (some task) u).bind Task.call? = _
      rw [Function.update_of_ne hu]
      rfl
  | bridge b =>
    -- the task is nobody's worker, before or after
    have hne : Source.bridge b ≠ .call t := nofun
    rw [Function.update_of_ne hne]
    show (c.crew b).bind (fun r => (Function.update c.entry t (some task) r.1).bind Task.work?) = _
    unfold standing
    congr 1
    funext r
    by_cases hr : r.1 = t
    · rw [hr, Function.update_self]
      exact hw'.trans hw.symm
    · rw [Function.update_of_ne hr]

/-- Every bridge has a worker of its own. -/
structure Staffed (c : Core) : Prop where
  owner : ∀ t b current, c.entry t = some (.worker b current) → ∃ jobs, c.crew b = some (t, jobs)
  distinct : ∀ b b' t jobs jobs', c.crew b = some (t, jobs) → c.crew b' = some (t, jobs') → b = b'
  small : ∀ b t jobs, c.crew b = some (t, jobs) → t < c.size

/-- The worker of a bridge is written: what the bridge has under way is what is written, as no other
bridge has that worker. -/
theorem Staffed.standing_worker (h : c.Staffed) {jobs : List Job} {task : Task}
    (hb : c.crew b = some (t, jobs)) (hk : (c.entry t).bind Task.call? = none)
    (hk' : task.call? = none) :
    (c.write t task).standing = Function.update c.standing (.bridge b) task.work? := by
  funext s
  cases s with
  | call u =>
    have hne : Source.call u ≠ .bridge b := nofun
    rw [Function.update_of_ne hne]
    show (Function.update c.entry t (some task) u).bind Task.call? = _
    by_cases hu : u = t
    · subst hu
      rw [Function.update_self]
      exact hk'.trans hk.symm
    · rw [Function.update_of_ne hu]
      rfl
  | bridge b' =>
    show (c.crew b').bind (fun r => (Function.update c.entry t (some task) r.1).bind Task.work?) = _
    by_cases he : b' = b
    · subst he
      rw [Function.update_self, hb]
      show (Function.update c.entry t (some task) t).bind Task.work? = _
      rw [Function.update_self]
      rfl
    · rw [Function.update_of_ne fun h => he (Source.bridge.inj h)]
      show _ = (c.crew b').bind fun r => (c.entry r.1).bind Task.work?
      cases hb' : c.crew b' with
      | none => rfl
      | some r =>
        -- its worker is another one
        have hr : r.1 ≠ t := by
          rintro rfl
          exact he (h.distinct _ _ _ _ _ hb' hb)
        show (Function.update c.entry t (some task) r.1).bind Task.work? = _
        rw [Function.update_of_ne hr]
        rfl

/-- Bridges keep their workers, and no task becomes a worker: then every bridge has one worker of
its own still. -/
theorem Staffed.congr (h : c.Staffed) (hc : ∀ b, (c'.crew b).map Prod.fst = (c.crew b).map Prod.fst)
    (hn : c.size ≤ c'.size)
    (ho : ∀ t b current, c'.entry t = some (.worker b current) →
      ∃ current', c.entry t = some (.worker b current')) : c'.Staffed := by
  -- whose crew is there now had one before, with the same worker
  have hback : ∀ b t jobs, c'.crew b = some (t, jobs) → ∃ jobs', c.crew b = some (t, jobs') := by
    intro b t jobs hb
    have hm := hc b
    rw [hb] at hm
    obtain ⟨⟨u, jobs'⟩, hb', rfl⟩ := Option.map_eq_some_iff.1 hm.symm
    exact ⟨jobs', hb'⟩
  refine ⟨?_, ?_, ?_⟩
  · intro t b current he
    obtain ⟨current', he'⟩ := ho t b current he
    obtain ⟨jobs, hb⟩ := h.owner t b current' he'
    have hm := hc b
    rw [hb] at hm
    obtain ⟨⟨u, jobs'⟩, hb', rfl⟩ := Option.map_eq_some_iff.1 hm
    exact ⟨jobs', hb'⟩
  · intro b b' t jobs jobs' hb hb'
    obtain ⟨_, hc⟩ := hback b t jobs hb
    obtain ⟨_, hc'⟩ := hback b' t jobs' hb'
    exact h.distinct b b' t _ _ hc hc'
  · intro b t jobs hb
    obtain ⟨_, hc⟩ := hback b t jobs hb
    exact Nat.lt_of_lt_of_le (h.small b t _ hc) hn

/-- A task is written that was a worker of that bridge, or is none. -/
theorem Staffed.write (h : c.Staffed) {task : Task}
    (ht : ∀ b current, task = .worker b current →
      ∃ current', c.entry t = some (.worker b current')) :
    (c.write t task).Staffed := by
  refine h.congr (fun _ => rfl) (Nat.le_refl _) ?_
  intro u b current hu
  by_cases he : u = t
  · subst he
    rw [show (c.write u task).entry u = some task from Function.update_self _ _ _] at hu
    exact ht b current (Option.some.inj hu)
  · rw [show (c.write t task).entry u = c.entry u from Function.update_of_ne he _ _] at hu
    exact ⟨current, hu⟩

/-- A disconnect is counted. -/
theorem Staffed.later (h : c.Staffed) : Staffed { c with epoch := c.epoch + 1 } :=
  ⟨h.owner, h.distinct, h.small⟩

/-- A call has at most one request without a result. -/
theorem pending_call {task : Task} (ho : c.entry t = some task) :
    c.pending (.call t) = task.call?.toList.map Lifecycle.ticket? := by
  show ((c.entry t).bind Task.call?).toList.map _ ++ [] = _
  rw [ho, List.append_nil]
  rfl

section Jobs

variable {jobs jobs' : List Job}

/-- The jobs of a bridge change. -/
theorem Staffed.withJobs (h : c.Staffed) (hb : c.crew b = some (t, jobs))
    (hc : c'.crew = Function.update c.crew b (some (t, jobs'))) (he : c'.entry = c.entry)
    (hn : c'.size = c.size) : c'.Staffed := by
  refine h.congr (fun b' => ?_) (Nat.le_of_eq hn.symm) fun t b' current hw => ?_
  · rw [hc]
    by_cases hne : b' = b
    · subst hne
      rw [Function.update_self, hb]
      rfl
    · rw [Function.update_of_ne hne]
  · rw [he] at hw
    exact ⟨current, hw⟩

/-- Jobs that come or go are not what anybody has under way. -/
theorem standing_jobs (hb : c.crew b = some (t, jobs))
    (hc : c'.crew = Function.update c.crew b (some (t, jobs'))) (he : c'.entry = c.entry) :
    c'.standing = c.standing := by
  funext s
  cases s with
  | call u =>
    unfold standing
    rw [he]
  | bridge b' =>
    unfold standing
    dsimp only
    rw [hc, he]
    by_cases hne : b' = b
    · subst hne
      rw [Function.update_self, hb]
      rfl
    · rw [Function.update_of_ne hne]

/-- The jobs of a bridge are what waits for it, and nothing that waits elsewhere changes with
them. -/
theorem waiting_jobs (hc : c'.crew = Function.update c.crew b (some (t, jobs'))) :
    c'.waiting = Function.update c.waiting (.bridge b) jobs' := by
  funext s
  cases s with
  | call u =>
    have hne : Source.call u ≠ .bridge b := nofun
    rw [Function.update_of_ne hne]
    rfl
  | bridge b' =>
    show ((c'.crew b').map (·.2)).getD [] = _
    rw [hc]
    by_cases hne : b' = b
    · subst hne
      rw [Function.update_self, Function.update_self]
      rfl
    · rw [Function.update_of_ne hne, Function.update_of_ne fun h => hne (Source.bridge.inj h)]
      rfl

end Jobs

/-- The tickets of a bridge are those of its worker and of its jobs. -/
theorem pending_bridge {jobs : List Job} {task : Task} (hb : c.crew b = some (t, jobs))
    (ho : c.entry t = some task) :
    c.pending (.bridge b) = task.work?.toList.map Lifecycle.ticket? ++ jobs.map Job.ticket? := by
  show ((c.crew b).bind _).toList.map _ ++ (((c.crew b).map (·.2)).getD []).map _ = _
  rw [hb]
  show ((c.entry t).bind Task.work?).toList.map _ ++ _ = _
  rw [ho]
  rfl

/-! ## Bridges that are opened -/

/-- A new bridge has its own crew, and the others keep theirs. -/
theorem crew_append (bridge : Bridge) :
    crew { c with bridges := c.bridges ++ [bridge] } =
      Function.update c.crew c.bridges.length (some (bridge.worker, bridge.jobs)) := by
  funext b
  unfold crew
  dsimp only
  by_cases hb : b = c.bridges.length
  · subst hb
    simp
  · rw [Function.update_of_ne hb]
    rcases Nat.lt_or_gt_of_ne hb with hlt | hgt
    · rw [List.getElem?_append_left hlt]
    · rw [List.getElem?_eq_none (by simp; omega), List.getElem?_eq_none (Nat.le_of_lt hgt)]

section Open

variable {bridge : Bridge}

theorem entry_openBridge_worker :
    (c.openBridge bridge).entry c.size = some (.worker c.bridges.length none) := by
  show Function.update (Function.update c.entry c.size _) (c.size + 1) _ c.size = _
  rw [Function.update_of_ne (Nat.ne_of_lt (Nat.lt_succ_self _)), Function.update_self]

/-- The tasks are those from before, the worker, and one that does no work. -/
theorem entry_openBridge_cases {u : TaskId} {task : Task}
    (h : (c.openBridge bridge).entry u = some task) :
    c.entry u = some task ∨ (u = c.size ∧ task = .worker c.bridges.length none) ∨
      (u = c.size + 1 ∧ task = .receiver c.bridges.length) := by
  -- the receiver is written last, so it is looked for first
  by_cases hr : u = c.size + 1
  · subst hr
    rw [show (c.openBridge bridge).entry (c.size + 1) = some (.receiver c.bridges.length) from
      Function.update_self _ _ _] at h
    exact .inr (.inr ⟨rfl, (Option.some.inj h).symm⟩)
  · by_cases hw : u = c.size
    · subst hw
      rw [entry_openBridge_worker] at h
      exact .inr (.inl ⟨rfl, (Option.some.inj h).symm⟩)
    · refine .inl ?_
      rw [← h]
      show c.entry u = Function.update (Function.update c.entry c.size _) (c.size + 1) _ u
      rw [Function.update_of_ne hr, Function.update_of_ne hw]

/-- The new bridge comes after all others. -/
theorem crew_length : c.crew c.bridges.length = none := by
  unfold crew
  rw [List.getElem?_eq_none (Nat.le_refl _)]
  rfl

theorem crew_openBridge (hw : bridge.worker = c.size) (hj : bridge.jobs = []) :
    (c.openBridge bridge).crew = Function.update c.crew c.bridges.length (some (c.size, [])) := by
  rw [← hw, ← hj]
  exact crew_append bridge

/-- The new worker is the worker of the new bridge, and of no other: the workers of the others are
older tasks. -/
theorem Staffed.openBridge (h : c.Staffed) (hw : bridge.worker = c.size) (hj : bridge.jobs = []) :
    (c.openBridge bridge).Staffed := by
  have hcrew := crew_openBridge hw hj
  -- a bridge is the new one, or it was there and its worker is an old task
  have hcases : ∀ b t jobs, (c.openBridge bridge).crew b = some (t, jobs) →
      (b = c.bridges.length ∧ t = c.size) ∨ (c.crew b = some (t, jobs) ∧ t < c.size) := by
    intro b t jobs hb
    rw [hcrew] at hb
    by_cases hnew : b = c.bridges.length
    · rw [hnew, Function.update_self] at hb
      cases hb
      exact .inl ⟨hnew, rfl⟩
    · rw [Function.update_of_ne hnew] at hb
      exact .inr ⟨hb, h.small b t jobs hb⟩
  constructor
  · intro t b current he
    rcases entry_openBridge_cases he with hold | ⟨rfl, hnew⟩ | ⟨-, hnew⟩
    · obtain ⟨jobs, hb⟩ := h.owner t b current hold
      refine ⟨jobs, ?_⟩
      rw [hcrew, Function.update_of_ne, hb]
      rintro rfl
      rw [crew_length] at hb
      cases hb
    · cases hnew
      refine ⟨[], ?_⟩
      rw [hcrew, Function.update_self]
    · cases hnew
  · intro b b' t jobs jobs' hb hb'
    rcases hcases b t jobs hb with ⟨rfl, rfl⟩ | ⟨hb, hlt⟩
    · rcases hcases b' _ jobs' hb' with ⟨rfl, -⟩ | ⟨-, hlt⟩
      · rfl
      · exact absurd hlt (Nat.lt_irrefl _)
    · rcases hcases b' t jobs' hb' with ⟨-, rfl⟩ | ⟨hb', -⟩
      · exact absurd hlt (Nat.lt_irrefl _)
      · exact h.distinct b b' t jobs jobs' hb hb'
  · intro b t jobs hb
    show t < c.size + 2
    rcases hcases b t jobs hb with ⟨-, rfl⟩ | ⟨-, hlt⟩
    · exact Nat.lt_add_of_pos_right Nat.two_pos
    · exact Nat.lt_add_right 2 hlt

/-- A bridge that is opened changes the standing of no source: neither its worker nor its receiver
has anything under way. -/
theorem Staffed.standing_openBridge (h : c.Staffed) (hc : c.Sound) (hw : bridge.worker = c.size)
    (hj : bridge.jobs = []) : (c.openBridge bridge).standing = c.standing := by
  funext s
  cases s with
  | call t =>
    show ((c.openBridge bridge).entry t).bind Task.call? = (c.entry t).bind Task.call?
    by_cases hlt : t < c.size
    · rw [entry_openBridge hlt]
    · -- a new task: neither of the two is a call
      rw [(hc.small t (Nat.le_of_not_lt hlt)).1]
      cases he : (c.openBridge bridge).entry t with
      | none => rfl
      | some task =>
        rcases entry_openBridge_cases he with he | ⟨-, rfl⟩ | ⟨-, rfl⟩
        · exact absurd (hc.lt_size he) hlt
        · rfl
        · rfl
  | bridge b =>
    show ((c.openBridge bridge).crew b).bind _ = (c.crew b).bind _
    rw [crew_openBridge hw hj]
    -- the new bridge has nothing under way, and the others keep their workers
    by_cases hb : b = c.bridges.length
    · rw [hb, Function.update_self, crew_length]
      show ((c.openBridge bridge).entry c.size).bind Task.work? = none
      rw [entry_openBridge_worker]
      rfl
    · rw [Function.update_of_ne hb]
      cases hr : c.crew b with
      | none => rfl
      | some r =>
        show ((c.openBridge bridge).entry r.1).bind Task.work? = (c.entry r.1).bind Task.work?
        rw [entry_openBridge (h.small b r.1 r.2 hr)]

end Open

/-! ## Workers -/

theorem Aside.crew_eq (h : Aside c c') : c'.crew = c.crew := by
  cases h with
  | look h => cases h <;> rfl
  | bridge bs hb => exact crew_sameJobs hb
  | _ => rfl

/-- A step leaves the crews as they are, or it is for a bridge and changes the jobs of that one. -/
theorem Step.crew_cases {acts : List Act} (h : Step c acts c') :
    c'.crew = c.crew ∨ ∃ (b : BridgeId) (g : List Job → List Job),
      c'.crew = Function.update c.crew b ((c.crew b).map fun r => (r.1, g r.2)) ∧
      ∃ a ∈ acts, a.source = .bridge b := by
  -- crews are read off the bridges
  have hsame : ∀ d : Core, d.bridges = c.bridges → d.crew = c.crew := by
    intro d hd
    unfold crew
    rw [hd]
  cases h with
  | aside h => exact .inl h.crew_eq
  | turn | retire => exact .inl rfl
  | takeAsk => exact .inr ⟨_, (· ++ [_]), crew_handOver _ _ _, _, .head _, rfl⟩
  | takeLeave => exact .inr ⟨_, (· ++ [_]), crew_handOver _ _ _, _, .head _, rfl⟩
  | ask _ _ hs | leave _ hs | resume _ _ hs | carry _ hs => exact .inl (hsame _ hs.near.bridges)
  | @begin t b bridge job rest p c₁ _ _ _ hs =>
    -- the job is taken before the work on it, which leaves the bridges alone
    refine .inr ⟨b, fun _ => rest, ?_, _, .head _, rfl⟩
    rw [show (c₁.write t (jobTask b job p)).crew = (c.takeJob b rest).crew by
      unfold crew
      rw [show (c₁.write t (jobTask b job p)).bridges = _ from hs.near.bridges]]
    exact crew_takeJob c b rest

/-- A step that is not for a bridge leaves its crew alone. -/
theorem Step.crew_eq {acts : List Act} (h : Step c acts c')
    (hn : ∀ a ∈ acts, a.source ≠ .bridge b) : c'.crew b = c.crew b := by
  rcases h.crew_cases with hc | ⟨b', g, hc, a, ha, hs⟩
  · rw [hc]
  · rw [hc, Function.update_of_ne]
    rintro rfl
    exact hn a ha hs

theorem Steps.crew_eq {acts : List Act} (h : Steps c acts c')
    (hn : ∀ a ∈ acts, a.source ≠ .bridge b) : c'.crew b = c.crew b := by
  induction h with
  | refl => rfl
  | head h _ ih =>
    exact (ih fun a ha => hn a (List.mem_append_right _ ha)).trans
      (h.crew_eq fun a ha => hn a (List.mem_append_left _ ha))

/-- A bridge keeps its worker. -/
theorem Step.worker {acts : List Act} (h : Step c acts c') (b : BridgeId) :
    (c'.crew b).map Prod.fst = (c.crew b).map Prod.fst := by
  rcases h.crew_cases with hc | ⟨b', g, hc, -⟩
  · rw [hc]
  · rw [hc]
    by_cases hb : b = b'
    · subst hb
      rw [Function.update_self, Option.map_map]
      rfl
    · rw [Function.update_of_ne hb]

theorem Steps.worker {acts : List Act} (h : Steps c acts c') (b : BridgeId) :
    (c'.crew b).map Prod.fst = (c.crew b).map Prod.fst := by
  induction h with
  | refl => rfl
  | head h _ ih => exact ih.trans (h.worker b)

/-- A change from outside leaves the crews alone, but for that of a bridge that is opened. -/
theorem Outside.crew_eq {e : Event} (h : Outside c e c')
    (he : e = .openBridge → b ≠ c.bridges.length) : c'.crew b = c.crew b := by
  cases h with
  | openBridge hw hj => rw [crew_openBridge hw hj, Function.update_of_ne (he rfl)]
  | bridge bs h => rw [crew_sameJobs h]
  | _ => rfl

theorem Outside.worker {e : Event} (h : Outside c e c')
    (hb : (c.crew b).map Prod.fst = some t) : (c'.crew b).map Prod.fst = some t := by
  rw [h.crew_eq]
  · exact hb
  · rintro - rfl
    rw [crew_length] at hb
    cases hb

end Core

end TunnelSession
