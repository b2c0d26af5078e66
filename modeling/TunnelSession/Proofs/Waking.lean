/-
  Nobody waits who could go on.

  BLOCKED.  A request that waits cannot go on but for the clock: it is in line, or it is at the
  backend with a ticket that is valid (`Core.Blocked`).

  WOKEN.  Whatever would let it go on wakes it: the connection, when it is handed over, and a
  disconnect, if it wakes those who wait with a ticket.  So at every point between two polls a
  request is woken or blocked (`Alert`), and if no task can run all of them are blocked.
-/
import TunnelSession.Proofs.Graph

namespace TunnelSession

namespace Core

variable {t u : TaskId} {c c' : Core} {a b l : Lifecycle} {past : List Act}

/-- Can the request not go on, whatever the clock says? -/
def Blocked (c : Core) (t : TaskId) : Lifecycle → Prop
  | .queued _ ticket => ¬ ticket < c.epoch ∧ c.transition.holder ≠ some t
  | .dialing ticket _ | .sampling ticket _ _ => ¬ ticket < c.epoch
  | .leaving => c.transition.holder ≠ some t
  | .hangingUp _ => True

theorem Waits.blocked (h : c.Waits t l) : c.Blocked t l := by
  cases l with
  | queued => exact h
  | dialing | sampling => exact h.1
  | leaving => exact h
  | hangingUp => exact trivial

/-- Nobody is blocked with a void ticket. -/
theorem Blocked.valid (h : c.Blocked t l) {k : Nat} (hk : l.ticket? = some k) : ¬ k < c.epoch := by
  cases l with
  | queued =>
    cases hk
    exact h.1
  | dialing | sampling =>
    cases hk
    exact h
  | leaving | hangingUp => cases hk

/-- Who is blocked stays so until a disconnect makes its ticket void or it gets the connection. -/
theorem Blocked.congr (h : c.Blocked t l) (he : ∀ k, l.ticket? = some k → ¬ k < c'.epoch)
    (hh : c'.transition.holder = some t → c.transition.holder = some t) : c'.Blocked t l := by
  cases l with
  | queued => exact ⟨he _ rfl, fun hk => h.2 (hh hk)⟩
  | dialing | sampling => exact he _ rfl
  | leaving => exact fun hk => h (hh hk)
  | hangingUp => exact trivial

/-! ## Tickets -/

/-- A request keeps its ticket. -/
theorem Stretch.keeps_ticket {start : Start} {p : Progress Lifecycle Settled}
    (h : Stretch t c start p c') (ha : c.stage u = some a) (hb : c'.stage u = some b) :
    b.ticket? = a.ticket? := by
  by_cases hu : u = t
  · subst hu
    cases h with
    | refuse hs | connect hs | disconnect hs =>
      rw [hs] at ha
      cases ha
    | resume _ ht =>
      rw [ht.stage_self] at hb
      exact (ht.ticket_rank ha b (Client.waiting_of_stage? hb)).1
  · rw [h.near.stage u hu, ha] at hb
    cases hb
    rfl

/-- In any step, too: a ticket is given once, when the request is made. -/
theorem Step.keeps_ticket {acts : List Act} (h : Step c acts c') (ha : c.stage u = some a)
    (hb : c'.stage u = some b) : b.ticket? = a.ticket? := by
  have hsame : c'.stage = c.stage → b.ticket? = a.ticket? := by
    intro hs
    rw [hs, ha] at hb
    cases hb
    rfl
  cases h with
  | aside h => exact hsame h.stage_eq
  | turn | retire | takeAsk | takeLeave => exact hsame rfl
  | ask _ _ hs | leave _ hs | resume _ _ hs | begin _ _ _ hs | carry _ hs =>
    exact hs.keeps_ticket ha hb

/-- What a task is at is what its source has under way: a call is its own source, and a worker is
its bridge's. -/
theorem Staffed.exists_standing (h : c.Staffed) (hc : c.Sound) (hl : c.stage t = some l) :
    ∃ s, c.standing s = some l := by
  rw [hc.agree] at hl
  obtain ⟨task, he, hk⟩ := Option.bind_eq_some_iff.1 hl
  unfold Task.lifecycle? at hk
  split at hk
  · refine ⟨.call t, ?_⟩
    show (c.entry t).bind Task.call? = _
    rw [he]
    exact hk
  · refine ⟨.call t, ?_⟩
    show (c.entry t).bind Task.call? = _
    rw [he]
    exact hk
  · -- a worker is at work for its bridge
    rename_i b job l'
    obtain ⟨jobs, hb⟩ := h.owner t b _ he
    refine ⟨.bridge b, ?_⟩
    show (c.crew b).bind _ = _
    rw [hb]
    show (c.entry t).bind Task.work? = _
    rw [he]
    exact hk
  · cases hk

/-- A ticket is a number of disconnects. -/
theorem ticketsOf_le {s : Source} {k n : Nat} {τ : List Act} (h : some k ∈ ticketsOf s n τ) :
    k ≤ n + leavesIn τ := by
  -- the induction is on the acts; a request gets the number of disconnects so far
  induction τ generalizing n with
  | nil => cases h
  | cons act τ ih =>
    have hl : leavesIn (act :: τ) = leavesIn [act] + leavesIn τ := leavesIn_append [act] τ
    rcases List.mem_append.1 h with h | h
    · have hk : k = n := by
        cases act with
        | ask s' =>
          simp only [Act.tickets] at h
          split at h <;> simp_all
        | leave s' =>
          simp only [Act.tickets] at h
          split at h <;> simp_all
        | leg => cases h
      omega
    · have := ih h
      omega

/-- No request has a ticket of later. -/
theorem Accounts.ticket_le (h : Accounts past c) (hc : c.Sound) (hl : c.stage t = some l) {k : Nat}
    (hk : l.ticket? = some k) : k ≤ c.epoch := by
  obtain ⟨s, hs⟩ := h.staffed.exists_standing hc hl
  obtain ⟨settled, heq, -⟩ := h.ledger.pending s
  have hp : c.pending s = some k :: (c.waiting s).map Job.ticket? := by
    unfold pending
    rw [hs]
    show l.ticket? :: _ = _
    rw [hk]
    rfl
  rw [hp] at heq
  have hle := ticketsOf_le (s := s) (n := 0) (τ := past) (k := k) (by rw [heq]; simp)
  rw [h.ledger.leaves]
  omega

end Core

namespace Client

open TunnelSession.Core

variable {w w' v v' : Client} {t u : TaskId} {past ρ : List Record} {σ : List StateChange}
  {l : Lifecycle}

/-- The request is woken or blocked, and a disconnect will wake it if its ticket is valid. -/
structure Alert (w : Client) (u : TaskId) (l : Lifecycle) : Prop where
  woken : u ∈ w.ready ∨ w.core.Blocked u l
  dated : ∀ k, l.ticket? = some k → k ≤ w.epoch
  listed : ∀ k, l.ticket? = some k → u ∈ w.cancellable ∨ k < w.epoch

/-- Others are woken, and none gets the connection without: then who was alert stays alert. -/
theorem Alert.mono (h : Alert w u l) (hr : u ∈ w.ready → u ∈ w'.ready) (he : w'.epoch = w.epoch)
    (hc : u ∈ w.cancellable → u ∈ w'.cancellable)
    (hh : w'.transition.holder = some u → w.transition.holder = some u ∨ u ∈ w'.ready) :
    Alert w' u l where
  woken := by
    rcases h.woken with hw | hb
    · exact .inl (hr hw)
    · by_cases hu : u ∈ w'.ready
      · exact .inl hu
      · right
        refine hb.congr (fun k hk => ?_) fun hk => (hh hk).resolve_right hu
        show ¬ k < w'.epoch
        rw [he]
        exact hb.valid hk
  dated k hk := by
    rw [he]
    exact h.dated k hk
  listed k hk := by
    rw [he]
    exact (h.listed k hk).imp_left hc

/-- Who is at work on a request has not ended. -/
theorem hasEnded_of_stage (h : w.stage u = some l) : w.hasEnded u = false := by
  obtain ⟨task, ht, hl⟩ := Option.bind_eq_some_iff.1 h
  unfold hasEnded
  rw [ht]
  cases task with
  | ended => cases hl
  | command | poller | receiver | worker => rfl

/-- Who is handed the connection is woken. -/
theorem Alert.release (h : Alert w u l) (hu : w.stage u = some l) :
    Alert w.releaseTransition u l := by
  have hwake : w.transition.release.holder = some u → u ∈ w.releaseTransition.ready := fun hh =>
    mem_ready_wakeAll (w := { w with transition := w.transition.release })
      (Option.mem_toList.2 hh) (hasEnded_of_stage hu)
  obtain ⟨more, hr⟩ := releaseTransition_eq w
  rw [hr] at hwake ⊢
  exact h.mono (List.mem_append_left _) rfl id fun hh => .inr (hwake hh)

/-- No task leaves another one waiting that could go on. Who gives the connection back wakes the
next in line, and a disconnect wakes all that it cancels. -/
theorem Alert.connEffect (h : Alert w u l) (hs : ConnEffect t w σ w') (hne : u ≠ t)
    (hu : w.stage u = some l) : Alert w' u l := by
  cases hs with
  | connKept hl =>
    refine h.mono (fun hr => hl.ready.subset hr) hl.epoch (fun hc => hl.cancellable ▸ hc)
      fun hh => ?_
    exact .inl (by rw [← hl.transition]; exact hh)
  | request =>
    refine h.mono id rfl id fun hh => .inl ?_
    rw [show ({ w with transition := w.transition.request t } : Client).transition =
      w.transition.request t from rfl, Lock.request] at hh
    split at hh
    · exact absurd (Option.some.inj hh).symm hne
    · exact hh
  | enlist => exact h.mono id rfl (List.mem_append_left _) .inl
  | delist =>
    refine h.mono id rfl (fun hc => List.mem_filter.2 ⟨hc, ?_⟩) .inl
    exact bne_iff_ne.2 hne
  | @depart s f =>
    obtain ⟨more, hup⟩ := update_eq w f
    obtain ⟨rest, log, hstop⟩ := stopPolling_eq (w.update f)
    rw [hstop, hup]
    exact h.mono (fun hr => List.mem_append_left _ (List.mem_append_left _ hr)) rfl id .inl
  | @settle s f =>
    obtain ⟨more, hup⟩ := update_eq w f
    rw [hup]
    exact h.mono (List.mem_append_left _) rfl id .inl
  | polls =>
    obtain ⟨more, log, hstart⟩ := startPolling_eq w w.config.telemetryInterval.toNat
    rw [hstart]
    exact h.mono (List.mem_append_left _) rfl id .inl
  | release => exact h.release hu
  | withdraw =>
    unfold withdrawTransition
    split
    · exact h.release hu
    · exact h.mono id rfl id .inl
  | cancel =>
    have hwake : u ∈ w.cancellable → u ∈ w.cancelConnects.ready := fun hc =>
      mem_ready_wakeAll (w := { w with epoch := w.epoch + 1, cancellable := [] }) hc
        (hasEnded_of_stage hu)
    obtain ⟨more, hc⟩ := cancelConnects_eq w
    rw [hc] at hwake ⊢
    have hready : u ∈ w.ready → u ∈ w.ready ++ more := List.mem_append_left _
    refine ⟨?_, fun k hk => Nat.le_succ_of_le (h.dated k hk), fun k hk => .inr ?_⟩
    · cases hk : l.ticket? with
      | some k =>
        -- its ticket becomes void, or is so already
        rcases h.listed k hk with hin | hlt
        · exact .inl (hwake hin)
        · exact .inl (hready (h.woken.resolve_right fun hb => hb.valid hk hlt))
      | none =>
        refine h.woken.imp hready fun hb => hb.congr (fun k hk' => ?_) id
        rw [hk] at hk'
        cases hk'
    · exact Nat.lt_succ_of_le (h.dated k hk)

theorem Alert.connEffects (h : Alert w u l) (hs : ConnEffects t w σ w') (hne : u ≠ t)
    (hu : w.stage u = some l) : Alert w' u l := by
  induction hs with
  | refl => exact h
  | head hs _ ih => exact ih (h.connEffect hs hne hu) ((hs.kept.stage u).trans hu)

/-- All requests are woken or blocked. -/
def AllAlert (w : Client) : Prop := ∀ u l, w.stage u = some l → Alert w u l

/-- A request that goes through a part of a turn keeps its ticket. -/
theorem TurnPart.keeps_ticket (hb : TurnPart t v ρ v') {a b : Lifecycle} (ha : v.stage u = some a)
    (hs : v'.stage u = some b) : b.ticket? = a.ticket? := by
  by_cases hu : u = t
  · subst hu
    rcases hb.coreStep with ⟨-, hnone, -⟩ | hstep
    · rw [hnone] at ha
      cases ha
    · exact hstep.keeps_ticket ha hs
  · rw [hb.stage_of_ne hu, ha] at hs
    cases hs
    rfl

/-- A part of a turn leaves every request woken or blocked. The task that had the turn waits for
what it lacks; for the others it goes effect by effect. -/
theorem AllAlert.turnPart {acts : List Act} (h : AllAlert v) (ha : Accounts acts v'.core)
    (hc : v'.core.Sound) (hb : TurnPart t v ρ v') : AllAlert v' := by
  intro u l hl
  -- the task that had the turn waits now, and is enlisted with its ticket; the others are as they
  -- were
  by_cases hu : u = t
  · subst hu
    refine ⟨.inr (hb.waits l hl).blocked, fun k hk => ha.ticket_le hc hl hk, fun k hk => ?_⟩
    left
    refine hb.enlisted l k hl hk fun hne => ?_
    -- it had the ticket before, and would have gone if that was void
    obtain ⟨a, hs⟩ := Option.ne_none_iff_exists'.1 hne
    have hka : a.ticket? = some k := (hb.keeps_ticket hs hl).symm.trans hk
    refine ((h u a hs).listed k hka).resolve_right fun hlt => ?_
    rw [hb.drops a k hs hka hlt] at hl
    cases hl
  · rw [hb.stage_of_ne hu] at hl
    have hold := h u l hl
    obtain ⟨w, w', ready, bridges, k, k', rfl, rfl, -, -, -, -, hr, hs⟩ := hb.connEffects
    have hstage : ({ w with ready := ready, bridges := bridges } : Client).stage u = some l :=
      (stage_setTask_of_ne w k hu).symm.trans hl
    have hready : u ∈ w.ready → u ∈ ready := by
      rcases hr with rfl | rfl
      · exact id
      · exact (List.mem_erase_of_ne hu).2
    have hbefore : Alert { w with ready := ready, bridges := bridges } u l :=
      hold.mono hready rfl id .inl
    exact (hbefore.connEffects hs hu hstage).mono id rfl id .inl

/-- A turn of a poller lets nobody miss a wake, as it hands nothing over. -/
theorem AllAlert.watch (h : AllAlert v) (hw : Watch t v v') : AllAlert v' := by
  obtain ⟨p, w, k, ht, hl, rfl, hk, -⟩ := hw.turn
  intro u l hu
  have hne : u ≠ t := by
    rintro rfl
    have hk' := stage_setTask_self hu
    cases k with
    | poller | ended => cases hk'
    | command | receiver | worker => cases hk
  rw [stage_setTask_of_ne w k hne] at hu
  have hstage : v.stage u = some l := by
    rw [← hu]
    unfold Client.stage
    rw [task?, task?, hl.tasks]
  refine (h u l hstage).mono (fun hr => hl.ready.subset ((List.mem_erase_of_ne hne).2 hr)) hl.epoch
    (fun hin => ?_) fun hh => .inl ?_
  · show u ∈ w.cancellable
    rw [hl.cancellable]
    exact hin
  · rw [show v.transition = w.transition from hl.transition.symm]
    exact hh

/-- Nothing from outside makes a request able to go on without waking it. -/
theorem AllAlert.outer {e : Event} (h : AllAlert v) (ho : Outer e v v')
    (hc : v'.core = v.core ∨ Outside v.core e v'.core) : AllAlert v' := by
  intro u l hu
  have hstage : v.stage u = some l := by
    rw [← hu]
    rcases hc with hc | hc
    · exact (congrFun (congrArg Core.stage hc) u).symm
    · exact (congrFun hc.sameLink.stage u).symm
  refine (h u l hstage).mono (fun hr => ho.ready.subset hr) ho.epoch
    (fun hin => ho.cancellable ▸ hin) fun hh => .inl ?_
  rw [← ho.transition]
  exact hh

/-- What is known of a client at every point of a run. -/
structure Attentive (past : List Act) (w : Client) : Prop where
  fit : w.Fit
  accounts : Accounts past w.core
  alert : AllAlert w

/-- At every point of every run, every request is woken or blocked, so that none is left behind with
nobody to wake it. -/
theorem Attentive.after {acts : List Act} (h : Attentive acts w) (events : List Event) :
    Attentive (acts ++ w.trace events) (w.after events) := by
  have hrun := records_after
    (I := fun ρ v => Accounts (acts ++ ρ.map Record.act) v.core ∧ AllAlert v)
    (P := fun _ => True) ?_ ?_ ?_ h.fit []
    ⟨by rw [List.map_nil, List.append_nil]; exact h.accounts, h.alert⟩ events fun _ _ => trivial
  · rw [← records_map_act]
    exact ⟨hrun.1, hrun.2.1, hrun.2.2⟩
  · -- a part of a turn, with the accounts of the acts so far
    intro past t v ρ v' hv ⟨ha, h⟩ hb
    have ha' : Accounts (acts ++ (past ++ ρ).map Record.act) v'.core := by
      rw [List.map_append, ← List.append_assoc]
      exact invariant_steps (I := Accounts) (fun _ _ _ _ _ hi hs => hi.step hs) hv.sound ha hb.steps
    exact ⟨ha', h.turnPart ha' (hv.sound.steps hb.steps) hb⟩
  · -- a turn of a poller, which leaves no acts
    intro past t v v' hv ⟨ha, h⟩ hw
    have ha' := invariant_steps (I := Accounts) (fun _ _ _ _ _ hi hs => hi.step hs) hv.sound ha
      hw.steps
    rw [List.append_nil] at ha'
    exact ⟨ha', h.watch hw⟩
  · -- what happens from outside
    intro past e v v' _ hv ⟨ha, h⟩ ho hc
    refine ⟨?_, h.outer ho hc⟩
    rcases hc with hc | hc
    · rw [hc]
      exact ha
    · exact ha.outside hv.sound hc

theorem attentive_fresh (config : Config) (servers : List Server) (latency : Nat)
    (version : String) : Attentive [] (fresh config servers latency version) :=
  ⟨fit_make config servers latency version, accounts_make config _, fun _ _ hu => nomatch hu⟩

end Client

end TunnelSession
