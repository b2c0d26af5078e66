/-
  Commands to a client that rests.

  DRAINING.  Within an instant only pollers are woken.  In its turn a poller makes the looks that
  are due, which wakes nobody, and the client has more turns than tasks; so after every turn that it
  is given nobody is ready (`Instant.settle`).

  COMMANDS.  A client rests if nobody is ready and the connection is free.  A command that such a
  client is given is through at once, and the client rests again (`Rested.perform`).  It rests as
  well after any time that passes, in which pollers look (`Rested.sleep`).
-/
import Mathlib.Data.List.Perm.Subperm
import TunnelSession.Proofs.Instants
import TunnelSession.Proofs.Jobs

namespace TunnelSession

namespace Client

variable {w w' v : Client} {t u : TaskId} {n m : Nat} {o : Outlook} {rest : List TaskId}

/-! ## Draining -/

theorem arm_eq (w : Client) (due : Nat) (t : TaskId) :
    ∃ timers, w.arm due t = { w with timers := timers } := by
  unfold arm
  split
  · exact ⟨w.timers, rfl⟩
  · exact ⟨_, rfl⟩

/-- A client after turns of pollers: nobody was woken, and the connection and the settings are as
they were. -/
structure Drains (ready : List TaskId) (w w' : Client) : Prop extends Harmless 0 w w' where
  ready : w'.ready = ready
  transition : w'.transition = w.transition
  settings : w'.session.settings = w.session.settings

theorem Drains.refl (hr : w.ready = rest) : Drains rest w w := ⟨.refl w, hr, rfl, rfl⟩

theorem Drains.trans {more : List TaskId} (h : Drains rest w v) (h' : Drains more v w') :
    Drains more w w' :=
  ⟨h.toHarmless.trans h'.toHarmless, h'.ready, h'.transition.trans h.transition,
    h'.settings.trans h.settings⟩

/-- A poller may set a timer. -/
theorem harmless_arm (w : Client) (due : Nat) (ht : w.Polls t) : Harmless 0 w (w.arm due t) := by
  unfold arm
  split
  · exact .refl w
  · refine Brief.harmless ⟨fun h => ?_, rfl, rfl, fun _ _ => id, Nat.le_refl _⟩ rfl rfl rfl
    refine ⟨h.latency, h.prompt, h.able, h.period, h.published, h.waits, fun x hx => ?_, h.alone,
      h.line, h.nodup, h.roused⟩
    rcases List.mem_append.1 hx with hx | hx
    · exact h.timed x hx
    · rw [List.mem_singleton.1 hx]
      exact .inl ht

/-- Timers are taken back, and the clock moves. -/
theorem harmless_timers (w : Client) (now : Nat) {timers : List (Nat × TaskId)}
    (h : timers ⊆ w.timers) : Harmless 0 w { w with
      now := now
      timers := timers } :=
  Brief.harmless ⟨fun hw => ⟨hw.latency, hw.prompt, hw.able, hw.period, hw.published, hw.waits,
    fun x hx => hw.timed x (h hx), hw.alone, hw.line, hw.nodup, hw.roused⟩, rfl, rfl,
    fun _ _ => id, Nat.le_refl _⟩ rfl rfl rfl

/-- The record of a poller is written at the end of its turn. -/
theorem Drains.setPoller {p : Poller} {k : Task} (h : Drains rest w v)
    (hp : v.task? t = some (.poller p)) (hn : t ∉ rest)
    (hk : (∃ q, k = .poller q ∧ q.Waits) ∨ ∃ how, k = .ended how) :
    Drains rest w (v.setTask t k) := by
  have hset : Brief 0 v (v.setTask t k) := brief_setPoller hp
    (hk.imp (fun ⟨q, hq, hwaits⟩ => ⟨q, hq, fun _ => hwaits⟩) fun hend => ⟨hend, h.ready.symm ▸ hn⟩)
  exact ⟨h.toHarmless.trans (hset.harmless rfl rfl rfl), h.ready, h.transition, h.settings⟩

/-- A poller ends. -/
theorem drains_endPoller {p : Poller} (ht : w.task? t = some (.poller p)) (hn : t ∉ w.ready) :
    Drains w.ready w (((w.disarm t).say .pollingEnded).setTask t (.ended .finished)) := by
  have hquiet : Drains w.ready w ((w.disarm t).say .pollingEnded) :=
    ⟨(harmless_timers w w.now (List.filter_subset_self _)).trans (harmless_log _ _), rfl, rfl, rfl⟩
  exact hquiet.setPoller ht hn (.inr ⟨_, rfl⟩)

/-- A poller waits on. -/
theorem drains_armPoller {p : Poller} (q : Poller) (ht : w.task? t = some (.poller p))
    (hn : t ∉ w.ready) (hq : q.Waits) (due : Nat) :
    Drains w.ready w ((w.arm due t).setTask t (.poller q)) := by
  have harm := harmless_arm w due ⟨p, ht⟩
  obtain ⟨timers, heq⟩ := arm_eq w due t
  rw [heq] at harm ⊢
  have hquiet : Drains w.ready w { w with timers := timers } := ⟨harm, rfl, rfl, rfl⟩
  exact hquiet.setPoller ht hn (.inl ⟨_, rfl, hq⟩)

/-- Between two looks a poller ends, waits, or looks, and a look is over at once.  The induction is
on the looks that are due; `old` is the record of the task, which no look writes. -/
theorem Instant.pollerTurn {old p : Poller} (h : w.Instant) (hp : p.Waits)
    (ht : w.task? t = some (.poller old)) (hn : t ∉ w.ready) (looks : Nat) :
    Drains w.ready w (pollerTurn t looks p w) := by
  induction looks generalizing w p with
  | zero =>
    -- no look is left to this turn
    unfold Client.pollerTurn
    split
    · exact drains_endPoller ht hn
    · exact drains_armPoller { p with seen := w.version } ht hn ⟨hp.period, hp.call⟩ p.due
  | succ looks ih =>
    unfold Client.pollerTurn
    split
    · exact drains_endPoller ht hn
    · dsimp only
      split
      · exact drains_armPoller { p with seen := w.version } ht hn ⟨hp.period, hp.call⟩ p.due
      · obtain ⟨stats, backend, log, kept, hf, hlook⟩ := h.fetchStats t
        rw [hf]
        dsimp only
        -- the client after the look, which is over at once
        generalize hv : reportLook _ kept = v
        have hdrain : Drains w.ready w v ∧ v.task? t = some (.poller old) := by
          rw [← hv]
          unfold reportLook
          split
          · exact ⟨⟨hlook.trans (harmless_log _ _), rfl, rfl, rfl⟩, ht⟩
          · exact ⟨⟨hlook, rfl, rfl, rfl⟩, ht⟩
        obtain ⟨hdrain, htv⟩ := hdrain
        have hgoes := ih (hdrain.instant h) (p := { p with
          seen := w.version
          due := nextLook p.due p.period w.now
          call := none }) ⟨hp.period, rfl⟩ htv (hdrain.ready.symm ▸ hn)
        rw [hdrain.ready] at hgoes
        exact hdrain.trans hgoes

/-- A poller has its turn. -/
theorem Instant.run_poller {p : Poller} (h : w.Instant) (ht : w.task? t = some (.poller p))
    (hn : t ∉ w.ready) : Drains w.ready w (w.run t) := by
  have hp := h.waits t p ht
  unfold Client.run
  rw [ht]
  dsimp only
  unfold runPoller
  rw [if_neg hp.period]
  split
  · exact drains_endPoller ht hn
  · rw [hp.call]
    exact h.pollerTurn hp ht hn _

/-- Whoever is ready is a poller, and has its turn. -/
theorem Instant.turn (h : w.Instant) (hr : w.ready = t :: rest) : Drains rest w w.turn := by
  obtain ⟨p, hp⟩ := h.roused t (hr ▸ List.mem_cons_self)
  have hnodup : (t :: rest).Nodup := hr ▸ h.nodup
  have hdrop : Harmless 0 w { w with ready := rest } :=
    Brief.harmless ⟨fun h => ⟨h.latency, h.prompt, h.able, h.period, h.published, h.waits, h.timed,
      h.alone, h.line, hnodup.of_cons, fun u hu => h.roused u (hr ▸ List.mem_cons_of_mem t hu)⟩,
      rfl, rfl, fun _ _ => id, Nat.le_refl _⟩ rfl rfl rfl
  have hstart : Drains rest w { w with ready := rest } := ⟨hdrop, rfl, rfl, rfl⟩
  unfold Client.turn
  rw [hr]
  exact hstart.trans ((hdrop.instant h).run_poller hp (List.nodup_cons.1 hnodup).1)

/-- Turns until nobody is ready. -/
theorem Instant.drain (h : w.Instant) (hn : w.ready.length ≤ n) :
    Drains [] w (settleWith n w) := by
  induction n generalizing w with
  | zero => exact .refl (List.length_eq_zero_iff.1 (Nat.le_zero.1 hn))
  | succ n ih =>
    unfold settleWith
    cases hr : w.ready with
    | nil => exact .refl hr
    | cons t rest =>
      have hturn := h.turn hr
      rw [hr] at hn
      exact hturn.trans (ih (hturn.instant h) (hturn.ready.symm ▸ Nat.le_of_succ_le_succ hn))

/-- No more tasks are ready than have not ended. -/
theorem Instant.length_ready_le (h : w.Instant) : w.ready.length ≤ w.live := by
  have hsub : w.ready ⊆ (w.tasks.zipIdx.filter fun t => !t.1.isEnded).map (·.2) := by
    intro t ht
    obtain ⟨p, hp⟩ := h.roused t ht
    exact List.mem_map.2 ⟨(.poller p, t),
      List.mem_filter.2 ⟨List.mem_zipIdx_iff_getElem?.2 hp, rfl⟩, rfl⟩
  have hlen : ((w.tasks.zipIdx.filter fun t => !t.1.isEnded).map (·.2)).length = w.live := by
    rw [live, ← List.zipIdx_map_fst 0 w.tasks, List.countP_map, List.countP_eq_length_filter,
      List.length_map, List.zipIdx_map_fst]
    rfl
  rw [← hlen]
  exact (h.nodup.subperm hsub).length_le

theorem live_le_load (w : Client) : w.live ≤ w.load := by
  unfold live load
  rw [List.countP_eq_length_filter]
  exact Nat.le_add_right _ _

theorem Instant.settle (h : w.Instant) : Drains [] w w.settle := by
  refine h.drain ?_
  have hlive := h.length_ready_le
  have hload := live_le_load w
  unfold budget
  omega

/-! ## Commands -/

/-- Nobody is ready, and nobody has the connection. -/
structure Rested (w : Client) : Prop where
  instant : w.Instant
  ready : w.ready = []
  free : w.transition = .free

/-- A client that rests again; few tasks more run. -/
structure RestsAgain (w : Client) (o : Outlook) (w' : Client) : Prop where
  brief : Brief 2 w w'
  rested : w'.Rested
  displays : w'.Displays o

theorem Rested.log (h : w.Rested) (log : List Notice) : Rested { w with log := log } :=
  ⟨(harmless_log w log).instant h.instant, h.ready, h.free⟩

theorem Rested.say (h : w.Rested) (x : Notice) : (w.say x).Rested := h.log _

theorem RestsAgain.log (h : RestsAgain w o w') (log : List Notice) :
    RestsAgain w o { w' with log := log } :=
  ⟨h.brief.andThen (harmless_log w' log).toBrief, h.rested.log log,
    (harmless_log w' log).displays o h.displays⟩

theorem Drains.rested (h : Drains [] w w') (hw : w.Instant) (hfree : w.transition = .free) :
    w'.Rested :=
  ⟨h.instant hw, h.ready, h.transition.trans hfree⟩

theorem lt_size_of_entry {k : Task} (h : w.core.entry t = some k) : t < w.core.size :=
  (List.getElem?_eq_some_iff.1 (task?_of_entry h)).1

/-- A task ends that is no poller: the pollers are as they were. -/
theorem Instant.setTask (h : w.Instant) {old : Task} (ho : w.core.entry t = some old)
    (how : Ending) : (w.setTask t (.ended how)).Instant := by
  have htask : ∀ u, (w.setTask t (.ended how)).task? u =
      if u = t then some (.ended how) else w.task? u :=
    fun u => task?_setTask w _ u (lt_size_of_entry ho)
  refine ⟨h.latency, h.prompt, h.able, h.period, h.published, fun u p hp => ?_, fun x hx => ?_,
    h.alone, h.line, h.nodup, fun u hu => ?_⟩
  · rw [htask] at hp
    split at hp
    · cases hp
    · exact h.waits u p hp
  · unfold PollsOrEnded Polls
    rw [htask]
    split
    · exact .inr ⟨how, rfl⟩
    · exact h.timed x hx
  · obtain ⟨p, hp⟩ := h.roused u hu
    have hut : u ≠ t := fun he => not_polls_of_entry ho ⟨p, he ▸ hp⟩
    exact ⟨p, by rw [htask, if_neg hut]; exact hp⟩

/-- The task of a command has ended. -/
theorem Brief.finish {p : Point} {how : Ending} (h : Brief n (w.spawn (.command p)).2 v) :
    Brief (n + 1) w (v.setTask w.tasks.length (.ended how)) := by
  have hspawn : Brief 1 w (w.spawn (.command p)).2 := brief_spawn w nofun
  have hself : v.core.entry w.tasks.length = some (.command p) := by
    refine h.entry _ _ (entry_of_task? ?_ rfl)
    rw [task?_spawn, if_pos rfl]
  refine ⟨fun hw => ((h.instant (hspawn.instant hw)).setTask hself how),
    h.servers.trans hspawn.servers, h.bridges.trans hspawn.bridges, fun u k hu => ?_, ?_⟩
  · have hne : u ≠ w.tasks.length := Nat.ne_of_lt (lt_size_of_entry hu)
    rw [entry_setTask_of_ne v _ hne]
    exact h.entry u k (hspawn.entry u k hu)
  · have hend := live_set (.ended how) (task?_of_entry hself) nofun
    have hlive := Nat.le_trans h.live (Nat.add_le_add_right hspawn.live n)
    omega

theorem runUntil_of_stop (stop : Client → Bool) (h : stop w.settle = true) :
    runUntil stop w = w.settle := by
  unfold runUntil runUntilWith
  exact if_pos h

/-- A command that is through in its first turn: what is ready then are pollers, whose turns change
nothing of what it came to. -/
theorem Rested.perform (h : w.Rested) (c : Command)
    (hc : Settles (w.spawn (.command (.fresh c))).2 o
      ((w.spawn (.command (.fresh c))).2.begin w.tasks.length c)) :
    ∃ reply v, w.perform c = (some reply, v) ∧ RestsAgain w o v ∧
      v.session.settings =
        ((w.spawn (.command (.fresh c))).2.begin w.tasks.length c).1.session.settings := by
  have hfresh : (w.spawn (.command (.fresh c))).2.core.entry w.tasks.length =
      some (.command (.fresh c)) :=
    entry_of_task? (by rw [task?_spawn, if_pos rfl]) rfl
  obtain ⟨hb, hfree, hs, reply, hr⟩ := hc
  generalize hx : ((w.spawn (.command (.fresh c))).2.run w.tasks.length) = x
  have hrun : x = ((w.spawn (.command (.fresh c))).2.begin w.tasks.length c).1.setTask
      w.tasks.length (.ended (.replied reply)) := by
    rw [← hx]
    unfold run
    rw [task?_of_entry hfresh]
    dsimp only
    unfold runCommand runPoint
    dsimp only
    generalize (w.spawn (.command (.fresh c))).2.begin w.tasks.length c = r at hr
    obtain ⟨v, p⟩ := r
    cases hr
    rfl
  have hbx : Brief 2 w x := hrun ▸ hb.finish
  have hsettle := (hbx.instant h.instant).settle
  -- the pollers leave the task of the command as it ended
  have hended : x.settle.task? w.tasks.length = some (.ended (.replied reply)) := by
    refine task?_of_entry (hsettle.entry _ _ ?_)
    rw [hrun]
    exact entry_setTask _ (lt_size_of_entry (hb.entry _ _ hfresh)) rfl
  have hstop : x.settle.hasEnded w.tasks.length = true := by
    unfold hasEnded
    rw [hended]
    rfl
  refine ⟨reply, x.settle, ?_, ⟨hbx.andThen hsettle.toBrief,
    hsettle.rested (hbx.instant h.instant) ?_, hsettle.displays o ?_⟩, ?_⟩
  · unfold Client.perform
    rw [show w.spawn (.command (.fresh c)) =
      (w.tasks.length, (w.spawn (.command (.fresh c))).2) from rfl]
    dsimp only
    rw [hx, runUntil_of_stop (·.hasEnded w.tasks.length) hstop, hended]
  · rw [hrun]
    exact hfree
  · rw [hrun]
    exact hs.congr rfl rfl
  · rw [hsettle.settings, hrun]
    rfl

theorem Displays.spawn (h : w.Displays o) (k : Task) : (w.spawn k).2.Displays o :=
  h.congr rfl rfl

/-- A look at the client. -/
theorem Rested.perform_status (h : w.Rested) (hs : w.Displays o) :
    ∃ reply v, w.perform .status = (some reply, v) ∧ RestsAgain w o v := by
  obtain ⟨reply, v, hv, he, -⟩ := h.perform .status (o := o)
    ⟨(Brief.refl _).more, h.free, hs.spawn _, _, rfl⟩
  exact ⟨reply, v, hv, he⟩

/-- The version is asked for, which leaves the settings as they are. -/
theorem Rested.perform_version (h : w.Rested) (hs : w.Displays o) :
    ∃ reply v, w.perform .version = (some reply, v) ∧ RestsAgain w o v ∧
      v.session.settings = w.session.settings := by
  have hi := (brief_spawn w (k := .command (.fresh .version)) nofun).instant h.instant
  have hcall := hi.harmless_startCall .version (.called .getVersion :: w.log) rfl
  have hbegin : (w.spawn (.command (.fresh .version))).2.begin w.tasks.length .version =
      asVersion ((w.spawn (.command (.fresh .version))).2.startCall w.tasks.length .version) := rfl
  rw [hi.startCall] at hbegin
  obtain ⟨reply, v, hv, he, hsettings⟩ := h.perform .version (o := o) (by
    rw [hbegin]
    exact ⟨hcall.toBrief.more, h.free, hcall.displays _ (hs.spawn _), _, rfl⟩)
  rw [hbegin] at hsettings
  exact ⟨reply, v, hv, he, hsettings⟩

theorem Settles.asLifecycle {r : Client × Progress Lifecycle Settled} (h : Settles w o r) :
    Settles w o (asLifecycle r) := by
  obtain ⟨v, p⟩ := r
  obtain ⟨hb, hfree, hs, s, rfl⟩ := h
  exact ⟨hb, hfree, hs, _, rfl⟩

theorem Settles.asStart {r : Client × Progress Lifecycle Settled} (h : Settles w o r) :
    Settles w o (asStart r) := by
  obtain ⟨v, p⟩ := r
  obtain ⟨hb, hfree, hs, s, rfl⟩ := h
  exact ⟨hb, hfree, hs, _, rfl⟩

/-- A disconnect takes the tunnel down. -/
theorem Rested.perform_disconnect (h : w.Rested) :
    ∃ reply v, w.perform .disconnect = (some reply, v) ∧ RestsAgain w .down v := by
  have hi := (brief_spawn w (k := .command (.fresh .disconnect)) nofun).instant h.instant
  have hvoid := hi.cancelConnects
  have hx : Brief 0 (w.spawn (.command (.fresh .disconnect))).2
      (w.spawn (.command (.fresh .disconnect))).2.cancelConnects := by
    rw [hvoid]
    exact brief_with _ _ _ _ _ _ _ _ id id
  have hfree : (w.spawn (.command (.fresh .disconnect))).2.cancelConnects.transition = .free := by
    rw [hvoid]
    exact h.free
  obtain ⟨reply, v, hv, he, -⟩ := h.perform .disconnect
    (((hx.instant hi).settles_queueDisconnect hfree w.tasks.length).behind hx).asLifecycle
  exact ⟨reply, v, hv, he⟩

/-- The catalog is no part of what the connection displays. -/
theorem harmless_commitCatalog (w : Client) (a : Except BackendError (List Server)) :
    Harmless 0 w (w.commitCatalog a).1 := by
  unfold commitCatalog
  split
  · rename_i servers
    have hcore := core_update w fun s => { s with catalog := servers }
    exact ((brief_update w _).andThen (brief_say _ _)).harmless (congrArg (·.session.state) hcore)
      (congrArg (·.session.server) hcore) (congrArg (·.backend.connectedServer) hcore)
  · exact (brief_say w _).harmless rfl rfl rfl

/-- The catalog is none of the business of those who wait, nor of the settings. -/
theorem commitCatalog_keeps (w : Client) (a : Except BackendError (List Server)) :
    (w.commitCatalog a).1.transition = w.transition ∧
      (w.commitCatalog a).1.session.settings = w.session.settings := by
  unfold commitCatalog
  split
  · rename_i servers
    have hcore := core_update w fun s => { s with catalog := servers }
    exact ⟨congrArg Core.transition hcore, congrArg (·.session.settings) hcore⟩
  · exact ⟨rfl, rfl⟩

/-- What a start comes to that finds the settings and the servers. -/
def afterStart (w : Client) (o : Outlook) : Outlook :=
  if w.session.settings.autoConnect then o.obey w.backend.servers .quickConnect else o

/-- The catalog is there, and a connect is made if the settings say so. -/
theorem Instant.settles_continueStart (h : w.Instant) (hs : w.Displays o)
    (hfree : w.transition = .free) (t : TaskId) :
    Settles w (w.afterStart o) (w.continueStart t) := by
  unfold continueStart afterStart
  split
  · have hsay := brief_say w .autoConnecting
    exact (((hsay.instant h).settles_requestConnect (o := o)
      ⟨hs.server, hs.tunnel⟩ hfree t .best (.inr rfl) fun _ => rfl).behind hsay).asStart
  · exact ⟨(Brief.refl w).more, hfree, hs, _, rfl⟩

/-- A start is through at once: the servers come, and the connect that the settings may ask for is
through as well. -/
theorem Instant.settles_start (h : w.Instant) (hs : w.Displays o) (hfree : w.transition = .free)
    (t : TaskId) : Settles w (w.afterStart o) (w.begin t .start) := by
  show Settles w _ (asLoad t true (w.startCall t .servers))
  obtain ⟨x, hx, hcall, hfree, hsession⟩ : ∃ x,
      w.startCall t .servers = (x, .done (.ok w.backend.servers)) ∧ Harmless 0 w x ∧
        x.transition = .free ∧ x.session = w.session :=
    ⟨_, h.startCall t .servers, h.harmless_startCall .servers _ rfl, hfree, rfl⟩
  rw [hx]
  have hcatalog := hcall.trans (harmless_commitCatalog x (.ok w.backend.servers))
  obtain ⟨htransition, hsettings⟩ := commitCatalog_keeps x (.ok w.backend.servers)
  have hafter : (x.commitCatalog (.ok w.backend.servers)).1.afterStart o = w.afterStart o := by
    unfold afterStart
    rw [hsettings, hsession, hcatalog.servers]
  rw [← hafter]
  exact ((hcatalog.instant h).settles_continueStart (hcatalog.displays _ hs)
    (htransition.trans hfree) t).behind hcatalog.toBrief

/-- A start connects if the settings say so. -/
theorem Rested.perform_start (h : w.Rested) (hs : w.Displays o) :
    ∃ reply v, w.perform .start = (some reply, v) ∧ RestsAgain w (w.afterStart o) v := by
  have hi := (brief_spawn w (k := .command (.fresh .start)) nofun).instant h.instant
  obtain ⟨reply, v, hv, he, -⟩ :=
    h.perform .start (hi.settles_start (hs.spawn _) h.free w.tasks.length)
  exact ⟨reply, v, hv, he⟩

/-! ## Time -/

/-- The clock moves, and the pollers are woken whose looks are due. -/
theorem Instant.harmless_tickTo (h : w.Instant) (now : Nat) : Harmless 0 w (w.tickTo now) := by
  have hclock : Harmless 0 w { w with
      now := now
      timers := w.timers.filter fun t => !decide (t.1 ≤ now) } :=
    harmless_timers w now (List.filter_subset_self _)
  unfold Client.tickTo
  dsimp only
  have hwake := brief_wakeAll { w with
      now := now
      timers := w.timers.filter fun t => !decide (t.1 ≤ now) }
    ((w.timers.filter (·.1 ≤ now)).map (·.2)) fun t ht => by
      obtain ⟨x, hx, rfl⟩ := List.mem_map.1 ht
      exact h.timed x (List.mem_of_mem_filter hx)
  obtain ⟨more, heq⟩ := wakeAll_eq { w with
      now := now
      timers := w.timers.filter fun t => !decide (t.1 ≤ now) }
    ((w.timers.filter (·.1 ≤ now)).map (·.2))
  rw [heq] at hwake ⊢
  exact hclock.trans (hwake.harmless rfl rfl rfl)

/-- At a tick pollers look, and then the client rests again. -/
theorem Rested.tick (h : w.Rested) (now : Nat) :
    Harmless 0 w (w.tickTo now).settle ∧ (w.tickTo now).settle.Rested := by
  have htick := h.instant.harmless_tickTo now
  have hi := htick.instant h.instant
  have hfree : (w.tickTo now).transition = .free := by
    obtain ⟨more, heq⟩ := tickTo_eq w now
    rw [heq]
    exact h.free
  exact ⟨htick.trans hi.settle.toHarmless, hi.settle.rested hi hfree⟩

/-- The clock moves with nothing due. -/
theorem Rested.wait (h : w.Rested) (now : Nat) :
    Harmless 0 w { w with now := now } ∧ Rested { w with now := now } :=
  have hclock := harmless_timers w now (List.Subset.refl w.timers)
  ⟨hclock, hclock.instant h.instant, h.ready, h.free⟩

/-- Time passes tick by tick. -/
theorem Rested.runTo (h : w.Rested) (ticks time : Nat) :
    Harmless 0 w (runTo ticks time w) ∧ (runTo ticks time w).Rested := by
  induction ticks generalizing w with
  | zero => exact ⟨.refl w, h⟩
  | succ ticks ih =>
    unfold Client.runTo
    split
    · split
      · obtain ⟨htick, hrested⟩ := h.tick _
        obtain ⟨hgoes, hlast⟩ := ih hrested
        exact ⟨htick.trans hgoes, hlast⟩
      · exact h.wait time
    · exact h.wait time

/-- A client that rests does so after any time, and the connection is as it was. -/
theorem Rested.sleep (h : w.Rested) (hs : w.Displays o) (ms : Nat) :
    RestsAgain w o (w.sleep ms) := by
  have hsettle := h.instant.settle
  obtain ⟨hpass, hrested⟩ :=
    (hsettle.rested h.instant h.free).runTo (ms + 1) (w.now + ms)
  obtain ⟨hclock, hlast⟩ := hrested.wait (w.now + ms)
  have hall := (hsettle.toHarmless.trans hpass).trans hclock
  exact ⟨hall.toBrief.more.more, hlast, hall.displays o hs⟩

end Client

end TunnelSession
