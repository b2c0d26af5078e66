/-
  A client whose backend answers at once.

  INSTANT.  Without latency a call is through when it starts.  So nobody is in line, nobody sleeps
  in a call, and only pollers are woken: by a publication, or because a look of theirs is due
  (`Client.Instant`).

  BRIEF.  A stretch of work leaves the bridges and every task but pollers as they are, and starts a
  bounded number of tasks (`Client.Brief`).

  OUTLOOK.  A request that finds the connection free is through in its first turn
  (`Client.Settles`).  A connect leads the tunnel to the server that the backend chose; if the
  backend refuses, the tunnel and the server stay as they were, and only the state says that
  something failed.  A disconnect takes the tunnel down.
-/
import TunnelSession.Proofs.Book
import TunnelSession.Proofs.ConnectionEffects

namespace TunnelSession

variable {α : Type}

/-- A poller between two looks, of which the next one may be due. -/
structure Poller.Waits (p : Poller) : Prop where
  period : p.period ≠ 0
  call : p.call = none

/-- What the requests so far have come to: whom the tunnel leads to, and whether the last request
failed. -/
structure Outlook where
  server : Option Server
  failed : Bool
  deriving DecidableEq

namespace Outlook

/-- Nobody is connected, and nothing failed. -/
def down : Outlook := ⟨none, false⟩

/-- The state of the session. -/
def state (o : Outlook) : ConnectionState :=
  if o.failed then .error else if o.server.isSome then .connected else .disconnected

/-- The backend reached a server, or refused. -/
def answered (o : Outlook) : Except BackendError Server → Outlook
  | .ok server => ⟨some server, false⟩
  | .error _ => ⟨o.server, true⟩

/-- A request was carried out. -/
def obey (servers : List Server) (o : Outlook) : Request → Outlook
  | .quickConnect => o.answered (Ask.quickConnect.reach servers)
  | .connect id => o.answered ((Ask.connect id).reach servers)
  | .disconnect => down

end Outlook

namespace Backend

variable {b : Backend} {now : Nat}

/-- A request leaves what was scripted, the servers and the latency. -/
theorem perform_frame (b : Backend) (now : Nat) (ask : Ask α) :
    (b.perform now ask).2.holds = b.holds ∧ (b.perform now ask).2.failures = b.failures ∧
      (b.perform now ask).2.servers = b.servers ∧ (b.perform now ask).2.latency = b.latency := by
  cases ask <;> unfold perform <;> dsimp only <;> (try split) <;> exact ⟨rfl, rfl, rfl, rfl⟩

theorem answer_eq_perform (h : b.failures = .const []) (ask : Ask α) :
    b.answer now ask = b.perform now ask := by
  unfold answer
  rw [h, Operation.Table.get_const]

end Backend

namespace Client

variable {w w' w₁ v : Client} {t u : TaskId} {n m : Nat} {o : Outlook}

/-- Is the task a poller? -/
def Polls (w : Client) (t : TaskId) : Prop := ∃ p, w.task? t = some (.poller p)

/-- How many tasks have not ended. -/
def live (w : Client) : Nat := w.tasks.countP fun t => !t.isEnded

/-- The task is a poller, or it has ended. -/
def PollsOrEnded (w : Client) (t : TaskId) : Prop :=
  w.Polls t ∨ ∃ how, w.task? t = some (.ended how)

/-- Nothing takes time, and only pollers wait for a time. -/
structure Instant (w : Client) : Prop where
  latency : w.backend.latency = 0
  prompt : w.backend.Prompt
  able : w.backend.failures = .const []
  period : w.config.telemetryInterval.toNat ≠ 0
  /-- A look changes no state, so it publishes nothing. -/
  published : w.published = w.session.state
  waits : ∀ t p, w.task? t = some (.poller p) → p.Waits
  timed : ∀ x ∈ w.timers, w.PollsOrEnded x.2
  /-- Nobody waits with a ticket. -/
  alone : w.cancellable = []
  line : w.transition.line = []
  nodup : w.ready.Nodup
  roused : ∀ t ∈ w.ready, w.Polls t

/-- Work that takes no time; at most `n` more tasks run after it. -/
structure Brief (n : Nat) (w w' : Client) : Prop where
  instant : w.Instant → w'.Instant
  servers : w'.backend.servers = w.backend.servers
  bridges : w'.bridges = w.bridges
  entry : ∀ t k, w.core.entry t = some k → w'.core.entry t = some k
  live : w'.live ≤ w.live + n

/-- The tunnel leads to a server, and the session says so. -/
structure Leads (w : Client) (s : Option Server) : Prop where
  server : w.session.server = s
  tunnel : w.backend.connectedServer = s.map (·.id)

/-- The connection is as the requests left it. -/
structure Displays (w : Client) (o : Outlook) : Prop extends w.Leads o.server where
  state : w.session.state = o.state

/-- Brief work that leaves the connection as it is. -/
structure Harmless (n : Nat) (w w' : Client) : Prop extends Brief n w w' where
  displays : ∀ o, w.Displays o → w'.Displays o

theorem Brief.refl (w : Client) : Brief 0 w w := ⟨id, rfl, rfl, fun _ _ => id, Nat.le_refl _⟩

/-- What two stretches of work start adds up. -/
theorem Brief.trans (h : Brief n w w₁) (h' : Brief m w₁ w') : Brief (n + m) w w' where
  instant hw := h'.instant (h.instant hw)
  servers := h'.servers.trans h.servers
  bridges := h'.bridges.trans h.bridges
  entry t k hk := h'.entry t k (h.entry t k hk)
  live := by
    have hsum := Nat.le_trans h'.live (Nat.add_le_add_right h.live m)
    rwa [Nat.add_assoc] at hsum

/-- No task is started after the work. -/
theorem Brief.andThen (h : Brief n w w₁) (h' : Brief 0 w₁ w') : Brief n w w' := h.trans h'

/-- No task is started before the work. -/
theorem Brief.before (h : Brief n w₁ w') (h' : Brief 0 w w₁) : Brief n w w' := by
  rw [← Nat.zero_add n]
  exact h'.trans h

/-- A task more might have been started. -/
theorem Brief.more (h : Brief n w w') : Brief (n + 1) w w' :=
  { h with live := Nat.le_succ_of_le h.live }

/-- Whom the tunnel leads to depends on the server and on the tunnel only. -/
theorem Leads.congr {s : Option Server} (h : w.Leads s)
    (hserver : v.session.server = w.session.server)
    (ht : v.backend.connectedServer = w.backend.connectedServer) : v.Leads s :=
  ⟨hserver.trans h.server, ht.trans h.tunnel⟩

/-- What the connection displays depends on the session and on the tunnel only. -/
theorem Displays.congr (h : w.Displays o) (hs : v.session = w.session)
    (ht : v.backend.connectedServer = w.backend.connectedServer) : v.Displays o where
  toLeads := h.toLeads.congr (congrArg Session.server hs) ht
  state := (congrArg Session.state hs).trans h.state

/-- Brief work that leaves state, server and tunnel displays what was displayed. -/
theorem Brief.harmless (h : Brief n w w') (hs : w'.session.state = w.session.state)
    (hserver : w'.session.server = w.session.server)
    (ht : w'.backend.connectedServer = w.backend.connectedServer) : Harmless n w w' :=
  ⟨h, fun _ ho => ⟨ho.toLeads.congr hserver ht, hs.trans ho.state⟩⟩

theorem Harmless.refl (w : Client) : Harmless 0 w w := ⟨.refl w, fun _ => id⟩

theorem Harmless.trans (h : Harmless n w w₁) (h' : Harmless m w₁ w') : Harmless (n + m) w w' :=
  ⟨h.toBrief.trans h'.toBrief, fun o ho => h'.displays o (h.displays o ho)⟩

/-! ## Waking -/

/-- Who is ready was ready before, or was woken now and has not ended. -/
theorem mem_ready_of_wakeAll {ts : List TaskId} (h : u ∈ (w.wakeAll ts).ready) :
    u ∈ w.ready ∨ u ∈ ts ∧ w.hasEnded u = false := by
  unfold wakeAll at h
  induction ts generalizing w with
  | nil => exact .inl h
  | cons t ts ih =>
    -- waking a task leaves the tasks as they are, so the others have ended or not as before
    have hsame : (w.wake t).hasEnded u = w.hasEnded u := by
      obtain ⟨more, hw⟩ := wake_eq w t
      rw [hw]
      rfl
    rcases ih h with h | ⟨hin, hend⟩
    · unfold wake at h
      split at h
      · exact .inl h
      · rename_i hno
        rcases List.mem_append.1 h with h | h
        · exact .inl h
        · rw [List.mem_singleton.1 h]
          exact .inr ⟨List.mem_cons_self, Bool.eq_false_iff.2 fun he => hno (by rw [he]; rfl)⟩
    · exact .inr ⟨List.mem_cons_of_mem _ hin, hsame ▸ hend⟩

/-- Nobody is ready twice. -/
theorem nodup_wakeAll (ts : List TaskId) (h : w.ready.Nodup) : (w.wakeAll ts).ready.Nodup := by
  unfold wakeAll
  -- who is ready already is not woken again
  induction ts generalizing w with
  | nil => exact h
  | cons t ts ih =>
    refine ih ?_
    unfold wake
    split
    · exact h
    · rename_i hno
      have hnew : t ∉ w.ready := fun hin => hno (by simp [hin])
      exact List.nodup_append.2 ⟨h, by simp, fun a ha b hb hab => hnew (by
        rw [List.mem_singleton.1 hb] at hab
        rwa [← hab])⟩

/-- Pollers are woken; to wake a task that has ended does nothing. -/
theorem brief_wakeAll (w : Client) (ts : List TaskId) (h : ∀ t ∈ ts, w.PollsOrEnded t) :
    Brief 0 w (w.wakeAll ts) := by
  have hin : ∀ u, u ∈ (w.wakeAll ts).ready → u ∈ w.ready ∨ w.Polls u := by
    intro u hu
    refine (mem_ready_of_wakeAll hu).imp_right fun ⟨hts, hend⟩ => ?_
    refine (h u hts).resolve_right fun ⟨how, htask⟩ => ?_
    unfold hasEnded at hend
    rw [htask] at hend
    cases hend
  have hnodup : w.ready.Nodup → (w.wakeAll ts).ready.Nodup := nodup_wakeAll ts
  obtain ⟨more, heq⟩ := wakeAll_eq w ts
  rw [heq] at hin hnodup ⊢
  exact ⟨fun hw => ⟨hw.latency, hw.prompt, hw.able, hw.period, hw.published, hw.waits, hw.timed,
    hw.alone, hw.line, hnodup hw.nodup, fun t ht => (hin t ht).elim (hw.roused t) id⟩, rfl, rfl,
    fun _ _ => id, Nat.le_refl _⟩

/-- A change of what pollers do not see, except for the publication of the state. -/
theorem brief_with (w : Client) (session : Session) (published : ConnectionState) (version : Nat)
    (killSwitch : KillSwitch) {transition : Lock} (epoch : Nat) (poller : Option TaskId)
    (log : List Notice) (hp : w.published = w.session.state → published = session.state)
    (hl : w.transition.line = [] → transition.line = []) :
    Brief 0 w { w with
      session := session
      published := published
      version := version
      killSwitch := killSwitch
      transition := transition
      epoch := epoch
      poller := poller
      log := log } :=
  ⟨fun h => ⟨h.latency, h.prompt, h.able, h.period, hp h.published, h.waits, h.timed, h.alone,
    hl h.line, h.nodup, h.roused⟩, rfl, rfl, fun _ _ => id, Nat.le_refl _⟩

/-- Something is written to the log. -/
theorem harmless_log (w : Client) (log : List Notice) : Harmless 0 w { w with log := log } :=
  (brief_with w _ _ _ _ _ _ _ id id).harmless rfl rfl rfl

theorem brief_say (w : Client) (x : Notice) : Brief 0 w (w.say x) :=
  brief_with w _ _ _ _ _ _ _ id id

theorem brief_raiseTunnel (w : Client) : Brief 0 w w.raiseTunnel :=
  brief_with w _ _ _ _ _ _ _ id id

theorem brief_lowerTunnel (w : Client) : Brief 0 w w.lowerTunnel :=
  brief_with w _ _ _ _ _ _ _ id id

/-- Only pollers look at publications. -/
theorem polls_of_mem_watchers (h : t ∈ w.watchers) : w.Polls t := by
  obtain ⟨⟨k, i⟩, hk, rfl⟩ := List.mem_map.1 h
  obtain ⟨hin, hw⟩ := List.mem_filter.1 hk
  have hget : w.task? i = some k := List.mem_zipIdx_iff_getElem?.1 hin
  cases k with
  | poller p => exact ⟨p, hget⟩
  | command | receiver | worker | ended => cases hw

/-- The session changes.  If its state does, it is published, which wakes pollers. -/
theorem brief_update (w : Client) (f : Session → Session) : Brief 0 w (w.update f) := by
  unfold update
  dsimp only
  split
  · rename_i hsame
    exact brief_with w _ _ _ _ _ _ _ (fun _ => hsame.symm) id
  · exact (brief_with w _ _ _ _ _ _ _ (fun _ => rfl) id).andThen
      (brief_wakeAll _ _ fun _ ht => .inl (polls_of_mem_watchers ht))

/-! ## The connection -/

/-- Nobody is in line. -/
theorem Instant.releaseTransition (h : w.Instant) :
    w.releaseTransition = { w with transition := .free } := by
  have hl : w.transition.release = .free := by
    unfold Lock.release
    rw [h.line]
    rfl
  unfold Client.releaseTransition
  dsimp only
  rw [hl]
  rfl

theorem Instant.brief_releaseTransition (h : w.Instant) : Brief 0 w w.releaseTransition := by
  rw [h.releaseTransition]
  exact brief_with w _ _ _ _ _ _ _ id fun _ => rfl

/-- Nobody waits with a ticket. -/
theorem Instant.cancelConnects (h : w.Instant) :
    w.cancelConnects = { w with epoch := w.epoch + 1 } := by
  unfold Client.cancelConnects
  rw [h.alone]
  show ({ w with epoch := w.epoch + 1, cancellable := [] } : Client) = _
  rw [← h.alone]

/-! ## Tasks -/

theorem not_polls_of_entry {k : Task} (h : w.core.entry t = some k) : ¬ w.Polls t := by
  rintro ⟨p, hp⟩
  have hnone : w.core.entry t = none := congrArg (·.bind Task.seen?) hp
  rw [hnone] at h
  cases h

/-- To write a task that was there leaves no more of them alive. -/
theorem live_set {k : Task} (k' : Task) (h : w.task? t = some k)
    (hk : k.isEnded = true → k'.isEnded = true) :
    (w.setTask t k').live ≤ w.live := by
  obtain ⟨ht, rfl⟩ := List.getElem?_eq_some_iff.1 h
  show (w.tasks.set t k').countP _ ≤ w.tasks.countP _
  rw [List.countP_set ht]
  cases hend : w.tasks[t].isEnded with
  | true =>
    rw [hk hend]
    exact Nat.sub_le _ _
  | false =>
    -- one task less or the same, according to what is written
    have hpos : 0 < w.tasks.countP fun t => !t.isEnded :=
      List.countP_pos_iff.2 ⟨_, List.getElem_mem ht, by rw [hend]; rfl⟩
    have hone : (if (!k'.isEnded) = true then 1 else 0) ≤ 1 := by split <;> decide
    refine Nat.le_trans (Nat.add_le_add_left hone _) (Nat.le_of_eq ?_)
    exact Nat.sub_add_cancel hpos

theorem live_spawn (w : Client) (k : Task) : (w.spawn k).2.live ≤ w.live + 1 := by
  show (w.tasks ++ [k]).countP _ ≤ w.tasks.countP _ + 1
  rw [List.countP_append]
  exact Nat.add_le_add_left List.countP_le_length _

/-- A task that is written where a poller was: a poller again, or the end of one that no turn is
left for. -/
theorem brief_setPoller {p : Poller} {k : Task} (hp : w.task? t = some (.poller p))
    (hk : (∃ q, k = .poller q ∧ (p.Waits → q.Waits)) ∨ (∃ how, k = .ended how) ∧ t ∉ w.ready) :
    Brief 0 w (w.setTask t k) := by
  have hlt : t < w.tasks.length := (List.getElem?_eq_some_iff.1 hp).1
  have htask : ∀ u, (w.setTask t k).task? u = if u = t then some k else w.task? u :=
    fun u => task?_setTask w _ u hlt
  refine ⟨fun h => ?_, rfl, rfl, fun u task hu => ?_, live_set k hp nofun⟩
  · refine ⟨h.latency, h.prompt, h.able, h.period, h.published, fun u q hq => ?_, fun x hx => ?_,
      h.alone, h.line, h.nodup, fun u hu => ?_⟩
    · -- the poller that is written waits if it did before
      rw [htask] at hq
      split at hq
      · cases hq
        obtain ⟨q, hq, hwaits⟩ | ⟨⟨how, hend⟩, -⟩ := hk
        · cases hq
          exact hwaits (h.waits t p hp)
        · cases hend
      · exact h.waits u q hq
    · -- a timer of its own is left behind at most by a poller that has ended
      unfold PollsOrEnded Polls
      rw [htask]
      split
      · exact (hk.imp (fun ⟨q, hq, _⟩ => ⟨q, congrArg some hq⟩)
          fun ⟨⟨how, hend⟩, _⟩ => ⟨how, congrArg some hend⟩)
      · exact h.timed x hx
    · obtain ⟨q, hq⟩ := h.roused u hu
      unfold Polls
      rw [htask]
      split
      · rename_i hut
        obtain ⟨q, hq, -⟩ | ⟨-, hno⟩ := hk
        · exact ⟨q, congrArg some hq⟩
        · exact absurd (hut ▸ hu) hno
      · exact ⟨q, hq⟩
  · have hut : u ≠ t := fun he => not_polls_of_entry (he ▸ hu) ⟨p, hp⟩
    show ((w.setTask t k).task? u).bind Task.seen? = some task
    rw [htask, if_neg hut]
    exact hu

/-- A new task, which waits if it is a poller: nobody else changes, and one more is alive. -/
theorem brief_spawn (w : Client) {k : Task} (hk : ∀ p, k = .poller p → p.Waits) :
    Brief 1 w (w.spawn k).2 := by
  have htask : ∀ u, (w.spawn k).2.task? u = if u = w.tasks.length then some k else w.task? u :=
    task?_spawn w _
  have hold : ∀ {u task}, w.task? u = some task → u ≠ w.tasks.length := fun h =>
    Nat.ne_of_lt (List.getElem?_eq_some_iff.1 h).1
  refine ⟨fun h => ?_, rfl, rfl, fun u task hu => ?_, live_spawn w k⟩
  · refine ⟨h.latency, h.prompt, h.able, h.period, h.published, fun u q hq => ?_, fun x hx => ?_,
      h.alone, h.line, h.nodup, fun u hu => ?_⟩
    · rw [htask] at hq
      split at hq
      · exact hk q (Option.some.inj hq)
      · exact h.waits u q hq
    · obtain ⟨q, hq⟩ | ⟨how, hq⟩ := h.timed x hx
      · exact .inl ⟨q, by rw [htask, if_neg (hold hq)]; exact hq⟩
      · exact .inr ⟨how, by rw [htask, if_neg (hold hq)]; exact hq⟩
    · obtain ⟨q, hq⟩ := h.roused u hu
      exact ⟨q, by rw [htask, if_neg (hold hq)]; exact hq⟩
  · show ((w.spawn k).2.task? u).bind Task.seen? = some task
    rw [htask, if_neg (hold (task?_of_entry hu))]
    exact hu

/-! ## Pollers that are started and stopped -/

/-- A poller is woken. -/
theorem brief_wake (h : w.Polls t) : Brief 0 w (w.wake t) :=
  brief_wakeAll w [t] fun _ hu => List.mem_singleton.1 hu ▸ .inl h

theorem brief_poller (w : Client) (poller : Option TaskId) :
    Brief 0 w { w with poller := poller } :=
  brief_with w _ _ _ _ _ _ _ id id

/-- A poller is told to stop. -/
theorem brief_cancelPoller (w : Client) (t : TaskId) : Brief 0 w (w.cancelPoller t) := by
  unfold cancelPoller
  split
  · rename_i p hp
    have hself : (w.setTask t (.poller { p with cancelled := true })).Polls t :=
      ⟨_, by rw [task?_setTask w _ t (List.getElem?_eq_some_iff.1 hp).1, if_pos rfl]⟩
    have hset : Brief 0 w (w.setTask t (.poller { p with cancelled := true })) :=
      brief_setPoller hp (.inl ⟨_, rfl, fun h => ⟨h.period, h.call⟩⟩)
    exact hset.andThen (brief_wake hself)
  · exact .refl w

theorem brief_stopPolling (w : Client) : Brief 0 w w.stopPolling := by
  unfold stopPolling
  split
  · exact ((brief_poller w none).andThen (brief_cancelPoller _ _)).andThen (brief_say _ _)
  · exact .refl w

/-- A poller is started: one task more, which waits for its first look. -/
theorem brief_startPolling (w : Client) {period : Nat} (hp : period ≠ 0) :
    Brief 1 w (w.startPolling period) := by
  have hnew : Brief 1 w (w.spawn (.poller ⟨false, w.version, period, w.now + period, none⟩)).2 :=
    brief_spawn w fun p he => by
      cases he
      exact ⟨hp, rfl⟩
  have hself : (w.spawn (.poller ⟨false, w.version, period, w.now + period, none⟩)).2.Polls
      w.tasks.length := ⟨_, by rw [task?_spawn, if_pos rfl]⟩
  have hkept := (hnew.andThen (brief_wake hself)).andThen (brief_poller _ (some w.tasks.length))
  unfold startPolling
  dsimp only
  cases w.poller with
  | none => exact hkept.andThen (brief_say _ _)
  | some old => exact (hkept.andThen (brief_cancelPoller _ old)).andThen (brief_say _ _)

/-! ## Calls -/

/-- A call is through when it starts. -/
theorem Instant.startCall (h : w.Instant) (t : TaskId) (ask : Ask α) :
    w.startCall t ask =
      ({ w with
          backend := ((w.backend.count ask.operation).perform w.now ask).2
          log := .called ask.operation :: w.log },
        .done ((w.backend.count ask.operation).perform w.now ask).1) := by
  unfold Client.startCall
  dsimp only
  rw [h.prompt.hold, h.prompt.dropHold]
  show ite (w.backend.latency = 0) _ _ = _
  rw [if_pos h.latency]
  unfold answerCall
  dsimp only
  rw [if_pos rfl, ← Backend.answer_eq_perform (b := w.backend.count ask.operation) h.able]
  rfl

/-- A call that is answered at once takes no time. -/
theorem brief_startCall (w : Client) (ask : Ask α) (log : List Notice) :
    Brief 0 w { w with
      backend := ((w.backend.count ask.operation).perform w.now ask).2
      log := log } := by
  obtain ⟨hholds, hfailures, hservers, hlatency⟩ :=
    (w.backend.count ask.operation).perform_frame w.now ask
  exact ⟨fun h => ⟨hlatency.trans h.latency, hholds.trans h.prompt, hfailures.trans h.able,
    h.period, h.published, h.waits, h.timed, h.alone, h.line, h.nodup, h.roused⟩, hservers, rfl,
    fun _ _ => id, Nat.le_refl _⟩

/-- A call that has nothing to do with the connection. -/
theorem Instant.harmless_startCall (h : w.Instant) (ask : Ask α) (log : List Notice)
    (ha : ask.operation.isLifecycle = false) :
    Harmless 0 w { w with
      backend := ((w.backend.count ask.operation).perform w.now ask).2
      log := log } := by
  refine (brief_startCall w ask log).harmless rfl rfl ?_
  rw [← Backend.answer_eq_perform (b := w.backend.count ask.operation) h.able]
  exact Backend.connectedServer_answer _ _ ha

/-- An answer to a look is kept, or not.  The state stays, so nobody is woken. -/
theorem commitStats_eq (hp : w.published = w.session.state) (a : Except BackendError Stats) :
    ∃ stats log, (w.commitStats a).1 = { w with
      session := { w.session with stats := stats }
      log := log } := by
  unfold commitStats
  split
  · rename_i stats
    split
    · refine ⟨some stats, w.log, ?_⟩
      unfold update
      exact if_pos hp.symm
    · exact ⟨w.session.stats, w.log, rfl⟩
  · exact ⟨w.session.stats, _, rfl⟩

theorem harmless_stats (w : Client) (stats : Option Stats) (log : List Notice) :
    Harmless 0 w { w with
      session := { w.session with stats := stats }
      log := log } :=
  (brief_with w { w.session with stats := stats } w.published w.version w.killSwitch w.epoch
    w.poller log id id).harmless rfl rfl rfl

/-- A look is over at once.  It changes the statistics and the counters of the tunnel. -/
theorem Instant.fetchStats (h : w.Instant) (t : TaskId) :
    ∃ stats backend log kept, w.fetchStats t = ({ w with
        session := { w.session with stats := stats }
        backend := backend
        log := log }, .done kept) ∧
      Harmless 0 w { w with
        session := { w.session with stats := stats }
        backend := backend
        log := log } := by
  unfold Client.fetchStats
  -- while the connection is up the backend is asked; otherwise nothing happens
  split
  · have hcall := h.harmless_startCall .stats (.called .getStats :: w.log) rfl
    rw [h.startCall]
    obtain ⟨stats, log, heq⟩ := commitStats_eq (w := { w with
      backend := ((w.backend.count .getStats).perform w.now .stats).2
      log := .called .getStats :: w.log }) h.published
      ((w.backend.count .getStats).perform w.now .stats).1
    exact ⟨stats, _, log, _, Prod.ext heq rfl, hcall.trans (harmless_stats _ stats log)⟩
  · exact ⟨w.session.stats, w.backend, w.log, false, rfl, .refl w⟩

/-! ## Requests -/

variable {σ ρ : Type}

/-- A request is through, and leaves the connection free. -/
structure Settles (w : Client) (o : Outlook) (r : Client × Progress σ ρ) : Prop where
  brief : Brief 1 w r.1
  free : r.1.transition = .free
  displays : r.1.Displays o
  through : ∃ x, r.2 = .done x

theorem Settles.behind {r : Client × Progress σ ρ} (h : Settles w₁ o r) (hb : Brief 0 w w₁) :
    Settles w o r :=
  { h with brief := h.brief.before hb }

/-- The connection is given back. -/
theorem Instant.settles_release (h : w.Instant) (hb : Brief 1 w v) (hs : v.Displays o)
    (s : Settled) :
    Settles w o ((v.releaseTransition, .done s) : Client × Progress Lifecycle Settled) := by
  have hv := hb.instant h
  refine ⟨hb.andThen hv.brief_releaseTransition, ?_, ?_, s, rfl⟩
  · rw [hv.releaseTransition]
  · rw [hv.releaseTransition]
    exact hs.congr rfl rfl

/-- The first look is over: a poller is started, and the connection is free. -/
theorem Instant.settles_sampled (h : w.Instant) (hs : w.Displays o) (server : Server) :
    Settles w o (w.sampled server) := by
  have hcore := core_startPolling w w.config.telemetryInterval.toNat
  refine h.settles_release (brief_startPolling w h.period) ?_ _
  exact ⟨hs.toLeads.congr (congrArg (·.session.server) hcore)
    (congrArg (·.backend.connectedServer) hcore),
    (congrArg (·.session.state) hcore).trans hs.state⟩

/-- The tunnel is made: the session says so at once, and the first look is over in the same turn, as
there is no latency. -/
theorem Instant.settles_tunnelMade (h : w.Instant) {server : Server}
    (hup : w.backend.connectedServer = some server.id) (t : TaskId) (ticket : Nat) :
    Settles w ⟨some server, false⟩ (w.tunnelMade t ticket server) := by
  unfold tunnelMade
  dsimp only
  generalize hv : ((w.update fun s => { s with
    state := .connected
    recents := s.recents.push server.id
    server := some server }).raiseTunnel.say (.connected server)) = v
  have hb : Brief 0 w v := by
    rw [← hv]
    exact ((brief_update w _).andThen (brief_raiseTunnel _)).andThen (brief_say _ _)
  have hcore : v.core = ({ w.core with killSwitch := w.core.killSwitch.tunnelRaised }).edit
      fun s => { s with
        state := .connected
        recents := s.recents.push server.id
        server := some server } := by
    rw [← hv, core_say, core_raiseTunnel, core_update]
    rfl
  have hs : v.Displays ⟨some server, false⟩ :=
    ⟨⟨congrArg (·.session.server) hcore, (congrArg (·.backend.connectedServer) hcore).trans hup⟩,
      congrArg (·.session.state) hcore⟩
  obtain ⟨stats, backend, log, kept, hf, hu⟩ := (hb.instant h).fetchStats t
  rw [hf]
  have huw := hb.andThen hu.toBrief
  exact ((huw.instant h).settles_sampled (hu.displays _ hs) server).behind huw

theorem Instant.settles_connectRefused {s : Option Server} (h : w.Instant) (hl : w.Leads s)
    (e : BackendError) : Settles w ⟨s, true⟩ (w.connectRefused e) := by
  have hcore := core_update (w.say (.connectFailed e)) fun s => { s with state := .error }
  refine h.settles_release ((brief_say w _).andThen (brief_update _ _)).more ?_ _
  exact ⟨hl.congr (congrArg (·.session.server) hcore) (congrArg (·.backend.connectedServer) hcore),
    congrArg (·.session.state) hcore⟩

/-- A connect leads to the server that the backend reaches, or to a failure that leaves the
tunnel. -/
theorem Instant.settles_dial (h : w.Instant) (hl : w.Leads o.server) {ask : Ask Server}
    (hask : ask.IsDial) (t : TaskId) (ticket : Nat) (state : ConnectionState) :
    Settles w (o.answered (ask.reach w.backend.servers)) (w.dial t ticket state ask) := by
  unfold dial
  dsimp only
  generalize hv : ((w.update fun s => { s with
    state := state
    stats := none }).stopPolling.lowerTunnel) = v
  have hb : Brief 0 w v := by
    rw [← hv]
    exact ((brief_update w _).andThen (brief_stopPolling _)).andThen (brief_lowerTunnel _)
  have hcore : v.core = ({ w.core with killSwitch := w.core.killSwitch.tunnelLowered }).edit
      fun s => { s with
        state := state
        stats := none } := by
    rw [← hv, core_lowerTunnel, core_stopPolling, core_update]
    rfl
  have hlv : v.Leads o.server :=
    hl.congr (congrArg (·.session.server) hcore) (congrArg (·.backend.connectedServer) hcore)
  have hcall := hb.andThen (brief_startCall v ask (.called ask.operation :: v.log))
  rw [(hb.instant h).startCall, ← hb.servers]
  -- the backend has a server for it, or none
  rcases (v.backend.count ask.operation).perform_dial v.now hask with
    ⟨server, hr, hp⟩ | ⟨e, hr, hp⟩
  · rw [show ask.reach v.backend.servers = .ok server from hr]
    rw [hp] at hcall ⊢
    exact ((hcall.instant h).settles_tunnelMade rfl t ticket).behind hcall
  · rw [show ask.reach v.backend.servers = .error e from hr]
    rw [hp] at hcall ⊢
    exact ((hcall.instant h).settles_connectRefused ⟨hlv.server, hlv.tunnel⟩ e).behind hcall

/-- Whoever asks for the connection when nobody has it holds it. -/
theorem brief_request (w : Client) (t : TaskId) (hfree : w.transition = .free) :
    Brief 0 w { w with transition := w.transition.request t } := by
  rw [hfree]
  exact brief_with w _ _ _ _ _ _ _ id fun _ => rfl

theorem isHeldBy_request (hfree : w.transition = .free) (t : TaskId) :
    (w.transition.request t).isHeldBy t = true := by
  rw [hfree]
  exact beq_self_eq_true (some t)

/-- A connect with a ticket that counts finds the connection free. -/
theorem Instant.settles_requestConnect (h : w.Instant) (hl : w.Leads o.server)
    (hfree : w.transition = .free) (t : TaskId) (target : Target) {ask : Ask Server} {x : Notice}
    (hask : ask.IsDial)
    (hd : ∀ v : Client,
      v.beginConnect t w.epoch target = (v.say x).dial t w.epoch .connecting ask) :
    Settles w (o.answered (ask.reach w.backend.servers)) (w.requestConnect t target w.epoch) := by
  have hvalid : ¬ w.isVoid w.epoch = true := fun hv => Nat.lt_irrefl _ (of_decide_eq_true hv)
  have hb := (brief_request w t hfree).andThen (brief_say _ x)
  unfold requestConnect
  dsimp only
  rw [if_neg hvalid, if_pos (isHeldBy_request hfree t), hd]
  exact ((hb.instant h).settles_dial (o := o) ⟨hl.server, hl.tunnel⟩ hask t _ _).behind hb

/-- The tunnel is down, and so the session says. -/
theorem Instant.settles_hungUp (h : w.Instant) (hdown : w.backend.connectedServer = none) :
    Settles w .down (w.hungUp (.ok ())) := by
  have hcore := core_update w fun s => { s with
    state := .disconnected
    server := none
    stats := none }
  refine h.settles_release ((brief_update w _).andThen (brief_say _ _)).more ?_ _
  exact ⟨⟨congrArg (·.session.server) hcore,
    (congrArg (·.backend.connectedServer) hcore).trans hdown⟩, congrArg (·.session.state) hcore⟩

/-- A disconnect takes the tunnel down. -/
theorem Instant.settles_beginDisconnect (h : w.Instant) (t : TaskId) :
    Settles w .down (w.beginDisconnect t) := by
  unfold beginDisconnect
  dsimp only
  generalize hv : (((w.say .disconnecting).update fun s => { s with
    state := .disconnecting
    stats := none }).stopPolling.lowerTunnel) = v
  have hb : Brief 0 w v := by
    rw [← hv]
    exact (((brief_say w _).andThen (brief_update _ _)).andThen (brief_stopPolling _)).andThen
      (brief_lowerTunnel _)
  have hcall := hb.andThen (brief_startCall v .disconnect (.called .disconnect :: v.log))
  rw [(hb.instant h).startCall]
  exact ((hcall.instant h).settles_hungUp rfl).behind hcall

/-- A disconnect that finds the connection free is through in its first turn. -/
theorem Instant.settles_queueDisconnect (h : w.Instant) (hfree : w.transition = .free)
    (t : TaskId) : Settles w .down (w.queueDisconnect t) := by
  have hb := brief_request w t hfree
  unfold queueDisconnect
  dsimp only
  rw [if_pos (isHeldBy_request hfree t)]
  exact ((hb.instant h).settles_beginDisconnect t).behind hb

/-- A job whose ticket counts is carried out at once. -/
theorem Instant.settles_beginJob (h : w.Instant) (hs : w.Displays o) (hfree : w.transition = .free)
    (t : TaskId) {job : Job} (hj : job.request = .disconnect ∨ job.ticket = w.epoch) :
    Settles w (o.obey w.backend.servers job.request) (w.beginJob t job) := by
  obtain ⟨request, ticket⟩ := job
  cases request with
  | quickConnect =>
    obtain rfl : ticket = w.epoch := hj.resolve_left nofun
    exact h.settles_requestConnect hs.toLeads hfree t .best (.inr rfl) fun _ => rfl
  | connect id =>
    obtain rfl : ticket = w.epoch := hj.resolve_left nofun
    exact h.settles_requestConnect hs.toLeads hfree t (.server id) (.inl ⟨id, rfl⟩) fun _ => rfl
  | disconnect => exact h.settles_queueDisconnect hfree t

end Client

end TunnelSession
