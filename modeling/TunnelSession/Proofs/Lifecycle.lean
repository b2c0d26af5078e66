/-
  Connects and disconnects move as `Core.Move` says.

  Each function of `Client.Lifecycle` is a stretch of moves: `stretch_requestConnect`,
  `stretch_queueDisconnect` and `stretch_resumeLifecycle` are the statements, one lemma for each
  function below them leads there.  Nothing else in the theory opens these functions.
-/
import Mathlib.Logic.Relation
import TunnelSession.Proofs.Calls

namespace TunnelSession

/-- The stage of a request that got so far. -/
def Progress.stage? : Progress Lifecycle Settled → Option Lifecycle
  | .waiting l => some l
  | .done _ => none

namespace Core

/-- Some looks at the statistics. -/
abbrev Looks : Core → Core → Prop := Relation.ReflTransGen Look

/-- A look at the statistics has nothing to do with the stage of any request. -/
theorem Look.put {c c' : Core} (h : Look c c') (t : TaskId) (l : Option Lifecycle) :
    Look (c.put t l) (c'.put t l) := by
  cases h with
  | counted => exact .counted
  | answered => exact .answered
  | kept stats h => exact .kept stats h

theorem Look.stage_eq {c c' : Core} (h : Look c c') : c'.stage = c.stage := by
  cases h <;> rfl

/-- While a request looks at the statistics, no time passes and nobody asks for a disconnect. -/
theorem Looks.now_epoch {c c' : Core} (h : Looks c c') : c'.now = c.now ∧ c'.epoch = c.epoch := by
  induction h with
  | refl => exact ⟨rfl, rfl⟩
  | tail _ h ih => cases h <;> exact ih

/-- Looks are moves of a request that waits for its first statistics. -/
theorem Travel.of_looks {t : TaskId} {c c₁ c' : Core} {p : Progress Lifecycle Settled}
    {ticket : Nat} {server : Server} {call : Call Stats} (h : Looks c c₁)
    (ht : Travel t (c₁.put t (some (.sampling ticket server call))) p c') :
    Travel t (c.put t (some (.sampling ticket server call))) p c' := by
  induction h using Relation.ReflTransGen.head_induction_on with
  | refl => exact ht
  | head h _ ih => exact .move (.look (put_stage_self _ _ _) (h.put t _)) ih

/-- A request waits at a stage that was just written. -/
theorem Travel.stay_put {t : TaskId} {c : Core} {l : Lifecycle} (hw : c.Waits t l) :
    Travel t (c.put t (some l)) (.waiting l) (c.put t (some l)) := by
  refine .stay (put_stage_self _ _ _) ?_
  cases l <;> exact hw

end Core

namespace Client

open TunnelSession.Core

/-- A request went from a core to where `r` got. -/
def Lands (t : TaskId) (c : Core) (r : Client × Progress Lifecycle Settled) : Prop :=
  Travel t c r.2 (r.1.core.put t r.2.stage?)

/-! ## Statistics -/

/-- Keeping an answer is a look, or nothing. -/
theorem looks_commitStats (w : Client) (a : Except BackendError Stats) :
    Looks w.core (w.commitStats a).1.core := by
  unfold commitStats
  split
  · split
    · rename_i stats h
      rw [core_update]
      refine .single (.kept stats ?_)
      show w.session.state = .connected
      simpa [ConnectionState.isConnected] using h
    · exact .refl
  · exact .refl

/-- Starting a look is a look; if it waits, it waits for the statistics, and for no longer than a
latency. -/
theorem looks_fetchStats (w : Client) (t : TaskId) (hw : w.backend.Prompt) :
    Looks w.core (w.fetchStats t).1.core ∧
      ∀ call, (w.fetchStats t).2 = .waiting call →
        call = .running .stats w.core.due 0 ∧ w.core.now < w.core.due := by
  unfold fetchStats
  split
  · rcases startCall_cases w t .stats hw with ⟨w', h, hlt, hc⟩ | ⟨w', a, b, h, -, ha, hc⟩
    · -- the look waits: so far it was only counted
      rw [h]
      refine ⟨?_, ?_⟩
      · show Looks w.core w'.core
        rw [hc]
        exact .single .counted
      · intro call hcall
        cases hcall
        exact ⟨rfl, hlt⟩
    · -- the look is answered at once, and its answer is kept or not
      rw [h]
      refine ⟨?_, fun call hcall => nomatch hcall⟩
      have h1 : Look w.core _ := .counted
      have h2 := Look.answered (c := { w.core with backend := w.core.backend.count .getStats })
      have hb : ((w.core.backend.count .getStats).answer w.core.now .stats).2 = b := by
        rw [show Operation.getStats = Ask.stats.operation from rfl, ha]
      dsimp only at h2
      rw [hb] at h2
      refine .trans (.tail (.single h1) h2) ?_
      rw [← hc]
      exact looks_commitStats w' a
  · -- without a tunnel there is no look
    exact ⟨.refl, fun call hcall => nomatch hcall⟩

/-- Going on with a look is a look; if it waits, it waits as before. -/
theorem looks_resumeStats (w : Client) (t : TaskId) {call : Call Stats} (hk : call.Runs .stats) :
    Looks w.core (w.resumeStats t call).1.core ∧
      ∀ call', (w.resumeStats t call).2 = .waiting call' →
        call' = call ∧ w.core.now < call.due := by
  unfold resumeStats
  rcases resumeCall_cases w t hk with ⟨w', h, hlt, hc⟩ | ⟨w', a, b, h, -, ha, hc⟩
  · -- the latency is not over
    rw [h]
    refine ⟨?_, ?_⟩
    · show Looks w.core w'.core
      rw [hc]
    · intro call' hcall
      cases hcall
      exact ⟨rfl, hlt⟩
  · -- the answer has come
    rw [h]
    refine ⟨?_, fun call' hcall => nomatch hcall⟩
    have hl := Look.answered (c := w.core)
    rw [ha] at hl
    refine .trans (.single hl) ?_
    rw [← hc]
    exact looks_commitStats w' a

/-! ## Connecting -/

section Connecting

variable {w w' : Client} {t : TaskId} {ticket : Nat} {server : Server}

/-- A connect whose tunnel is made gives the connection back. -/
theorem lands_finishConnect (w : Client) (call : Call Stats) :
    Lands t (w.core.put t (some (.sampling ticket server call))) (w.finishConnect server) := by
  have h := Settle.arrive (c := w.core.put t (some (.sampling ticket server call))) 0
    (put_stage_self _ _ _)
  refine .settle ?_
  simpa [finishConnect, Progress.stage?, exit, put] using h

/-- The first statistics are there: the connect starts the poller and is through. -/
theorem lands_sampled (w : Client) (call : Call Stats) :
    Lands t (w.core.put t (some (.sampling ticket server call))) (w.sampled server) := by
  have h := Settle.arrive (c := w.core.put t (some (.sampling ticket server call))) 1
    (put_stage_self _ _ _)
  refine .settle ?_
  simpa [sampled, finishConnect, Progress.stage?, exit, put] using h

/-- The backend made a tunnel: the connect takes it and looks at the statistics, which is the last
call it waits for. -/
theorem lands_tunnelMade {ask : Ask Server} {due : Nat} {b : Backend}
    (hd : due ≤ w.core.now) (hv : ¬ ticket < w.core.epoch)
    (ha : w.core.backend.answer w.core.now ask = (.ok server, b))
    (hw : w'.core = { w.core with backend := b }) (hb : b.Prompt) :
    Lands t (w.core.put t (some (.dialing ticket (.running ask due 0))))
      (w'.tunnelMade t ticket server) := by
  unfold tunnelMade
  dsimp only
  -- the client when the session knows the tunnel and nothing was looked at yet
  generalize hu : ((w'.update _).raiseTunnel.say (.connected server)) = u
  have hc : u.core = { w.core with
      killSwitch := w.core.killSwitch.tunnelRaised
      backend := b }.edit (·.arrive server) := by
    rw [← hu, core_say, core_raiseTunnel, core_update, hw]
    rfl
  have hm : Move t (w.core.put t (some (.dialing ticket (.running ask due 0))))
      (u.core.put t (some (.sampling ticket server (.running .stats w.core.due 0)))) := by
    have h := Move.connect (c := w.core.put t (some (.dialing ticket (.running ask due 0))))
      (put_stage_self _ _ _) hd hv ha
    rw [hc]
    simpa [put, edit, Core.due] using h
  have hp : u.core.backend.Prompt := by
    rw [hc]
    exact hb
  obtain ⟨hl, hk⟩ := looks_fetchStats u t hp
  rcases hr : u.fetchStats t with ⟨u', call | kept⟩
  · rw [hr] at hl hk
    have hdue : u.core.due = w.core.due := by
      obtain ⟨-, -, hlat, -⟩ := Backend.answer_frame w.core.backend w.core.now ask
      rw [ha] at hlat
      rw [hc]
      exact congrArg (w.core.now + ·) hlat
    obtain ⟨rfl, hlt⟩ := hk call rfl
    obtain ⟨hnow, hepoch⟩ := hl.now_epoch
    have hv' : ¬ ticket < u'.core.epoch := by
      rw [show u'.core.epoch = u.core.epoch from hepoch, hc]
      exact hv
    rw [← hdue] at hm
    exact .move hm (.of_looks hl (.stay_put ⟨hv', Nat.lt_of_le_of_lt (Nat.le_of_eq hnow) hlt⟩))
  · rw [hr] at hl
    exact .move hm (.of_looks hl (lands_sampled u' _))

/-- The backend refused a tunnel. -/
theorem lands_connectRefused {ask : Ask Server} {due : Nat} {e : BackendError} {b : Backend}
    (hd : due ≤ w.core.now) (hv : ¬ ticket < w.core.epoch)
    (ha : w.core.backend.answer w.core.now ask = (.error e, b))
    (hw : w'.core = { w.core with backend := b }) :
    Lands t (w.core.put t (some (.dialing ticket (.running ask due 0)))) (w'.connectRefused e) := by
  have h := Settle.refuse (c := w.core.put t (some (.dialing ticket (.running ask due 0))))
    (put_stage_self _ _ _) hd hv ha
  refine .settle ?_
  simpa [connectRefused, Progress.stage?, exit, put, edit, hw, Session.fault] using h

/-- The backend answered a connect whose ticket is valid: there is a tunnel now, or an error. -/
theorem lands_dialed {ask : Ask Server} {due : Nat} {a : Except BackendError Server} {b : Backend}
    (hd : due ≤ w.core.now) (hv : ¬ ticket < w.core.epoch)
    (ha : w.core.backend.answer w.core.now ask = (a, b))
    (hw : w'.core = { w.core with backend := b }) (hp : w.core.backend.Prompt) :
    Lands t (w.core.put t (some (.dialing ticket (.running ask due 0))))
      (w'.dialed t ticket a) := by
  cases a with
  | ok server =>
    refine lands_tunnelMade hd hv ha hw ?_
    have hb := hp.answer w.core.now ask
    rwa [ha] at hb
  | error e => exact lands_connectRefused hd hv ha hw

/-- A connect that holds the connection dials. The old connection is left behind before the backend
is called, so that this is one move from the line. -/
theorem lands_dial {target : Target} {state : ConnectionState} {ask : Ask Server}
    (hv : ¬ ticket < w.core.epoch) (hh : w.core.transition.holder = some t)
    (ha : w.core.session.aim target = some (state, ask)) (hp : w.core.backend.Prompt) :
    Lands t (w.core.put t (some (.queued target ticket))) (w.dial t ticket state ask) := by
  unfold dial
  dsimp only
  -- the client when the old connection is left behind and the backend was not called yet
  generalize hu : (w.update _).stopPolling.lowerTunnel = u
  have hc : u.core = { w.core with
      killSwitch := w.core.killSwitch.tunnelLowered }.edit (·.depart state) := by
    rw [← hu, core_lowerTunnel, core_stopPolling, core_update]
    rfl
  have hm : Move t (w.core.put t (some (.queued target ticket)))
      ({ u.core with backend := u.core.backend.count ask.operation }.put t
        (some (.dialing ticket (.running ask u.core.due 0)))) := by
    have h := Move.dial (c := w.core.put t (some (.queued target ticket)))
      (put_stage_self _ _ _) hv hh ha
    rw [hc]
    simpa [put, edit, Core.due] using h
  have hup : u.core.backend.Prompt := by
    rw [hc]
    exact hp
  have huv : ¬ ticket < u.core.epoch := by
    rw [hc]
    exact hv
  rcases startCall_cases u t ask hup with ⟨u', hr, hlt, hu'⟩ | ⟨u', a, b, hr, hd, hb, hu'⟩
  · rw [hr]
    refine .move hm ?_
    rw [← hu']
    refine .stay_put ?_
    rw [hu']
    exact ⟨huv, hlt⟩
  · rw [hr]
    exact .move hm (lands_dialed
      (w := { u with backend := u.backend.count ask.operation }) hd huv hb hu' (hup.count _))

/-- A connect that holds the connection begins. -/
theorem lands_beginConnect {target : Target} (hv : ¬ ticket < w.core.epoch)
    (hh : w.core.transition.holder = some t) (hp : w.core.backend.Prompt) :
    Lands t (w.core.put t (some (.queued target ticket))) (w.beginConnect t ticket target) := by
  cases target with
  | server id => exact lands_dial (w := w.say (.connecting id)) hv hh rfl hp
  | best => exact lands_dial (w := w.say .quickConnecting) hv hh rfl hp
  | last =>
    -- a reconnect goes where the last connect went, if there was one
    unfold beginConnect
    cases hs : w.session.server with
    | some server =>
      refine lands_dial (w := w.say (.connecting server.id)) hv hh ?_ hp
      show w.session.server.map _ = _
      rw [hs]
      rfl
    | none =>
      have h := Settle.noServer (c := w.core.put t (some (.queued .last ticket)))
        (put_stage_self _ _ _) hv hh hs
      refine .settle ?_
      simpa [Progress.stage?, exit, put, noServer] using h

/-- A connect in line whose ticket is void leaves the line. -/
theorem lands_dropConnect {target : Target} (hv : ticket < w.core.epoch) :
    Lands t (w.core.put t (some (.queued target ticket))) (w.dropConnect t) := by
  have h := Settle.drop (c := w.core.put t (some (.queued target ticket)))
    (put_stage_self _ _ _) hv
  refine .settle ?_
  simpa [dropConnect, Progress.stage?, put] using h

end Connecting

/-! ## Disconnecting -/

section Disconnecting

variable {w w' : Client} {t : TaskId}

/-- The backend answered a disconnect. -/
theorem lands_hungUp {due : Nat} {a : Except BackendError Unit} {b : Backend}
    (hd : due ≤ w.core.now) (ha : w.core.backend.answer w.core.now .disconnect = (a, b))
    (hw : w'.core = { w.core with backend := b }) :
    Lands t (w.core.put t (some (.hangingUp (.running .disconnect due 0)))) (w'.hungUp a) := by
  cases a with
  | ok _ =>
    have h := Settle.close (c := w.core.put t (some (.hangingUp (.running .disconnect due 0))))
      (put_stage_self _ _ _) hd ha
    refine .settle ?_
    simpa [hungUp, Progress.stage?, exit, put, edit, hw, Session.close] using h
  | error e =>
    have h := Settle.fail (c := w.core.put t (some (.hangingUp (.running .disconnect due 0))))
      (put_stage_self _ _ _) hd ha
    refine .settle ?_
    simpa [hungUp, Progress.stage?, exit, put, edit, hw, Session.fault] using h

/-- A disconnect that holds the connection hangs up, with the old connection left behind before the
backend is called. -/
theorem lands_beginDisconnect (hh : w.core.transition.holder = some t)
    (hp : w.core.backend.Prompt) :
    Lands t (w.core.put t (some .leaving)) (w.beginDisconnect t) := by
  unfold beginDisconnect
  dsimp only
  -- the client when the old connection is left behind and the backend was not called yet
  generalize hu : ((w.say _).update _).stopPolling.lowerTunnel = u
  have hc : u.core = { w.core with
      killSwitch := w.core.killSwitch.tunnelLowered }.edit (·.depart .disconnecting) := by
    rw [← hu, core_lowerTunnel, core_stopPolling, core_update, core_say]
    rfl
  have hm : Move t (w.core.put t (some .leaving))
      ({ u.core with backend := u.core.backend.count .disconnect }.put t
        (some (.hangingUp (.running .disconnect u.core.due 0)))) := by
    have h := Move.hangUp (c := w.core.put t (some .leaving)) (put_stage_self _ _ _) hh
    rw [hc]
    simpa [put, edit, Core.due] using h
  have hup : u.core.backend.Prompt := by
    rw [hc]
    exact hp
  rcases startCall_cases u t .disconnect hup with ⟨u', hr, hlt, hu'⟩ | ⟨u', a, b, hr, hd, hb, hu'⟩
  · rw [hr]
    refine .move hm ?_
    rw [show Operation.disconnect = Ask.disconnect.operation from rfl, ← hu']
    refine .stay_put ?_
    rw [hu']
    exact hlt
  · rw [hr]
    exact .move hm (lands_hungUp (w := { u with backend := u.backend.count .disconnect }) hd hb hu')

end Disconnecting

/-! ## Asking, and going on -/

section Asking

variable {w : Client} {t : TaskId}

theorem isHeldBy_iff {l : Lock} : l.isHeldBy t = true ↔ l.holder = some t := by
  simp [Lock.isHeldBy]

/-- A task that asks for the connection holds it, or stands in line. -/
theorem enter_core (w : Client) (t : TaskId) (l : Lifecycle) :
    (w.core.put t none).enter t l =
      ({ w with transition := w.transition.request t } : Client).core.put t (some l) :=
  put_put ({ w with transition := w.transition.request t } : Client).core t none (some l)

/-- Asking for a connect is a stretch of work. -/
theorem stretch_requestConnect (w : Client) (t : TaskId) (target : Target) (ticket : Nat)
    (hp : w.core.backend.Prompt) :
    Stretch t (w.core.put t none) (.connect target ticket)
      (w.requestConnect t target ticket).2
      ((w.requestConnect t target ticket).1.core.put t
        (w.requestConnect t target ticket).2.stage?) := by
  unfold requestConnect
  split
  · -- the ticket is void already: the connect takes no place in line
    rename_i hv
    exact .refuse (put_stage_self _ _ _) (of_decide_eq_true hv)
  · rename_i hv
    have hv' : ¬ ticket < w.core.epoch := fun h => hv (decide_eq_true h)
    refine .connect (put_stage_self _ _ _) hv' ?_
    rw [enter_core w t]
    dsimp only
    split
    · -- nobody else has the connection, so the connect dials in the same turn
      rename_i hh
      exact lands_beginConnect hv' (isHeldBy_iff.1 hh) hp
    · -- somebody has it: the connect waits in line
      rename_i hh
      exact .stay_put ⟨hv', fun h => hh (isHeldBy_iff.2 h)⟩

/-- Asking for a disconnect that cancels nothing is a stretch of work. -/
theorem stretch_queueDisconnect (w : Client) (t : TaskId) (hp : w.core.backend.Prompt) :
    Stretch t (w.core.put t none) .disconnect (w.queueDisconnect t).2
      ((w.queueDisconnect t).1.core.put t (w.queueDisconnect t).2.stage?) := by
  unfold queueDisconnect
  refine .disconnect (put_stage_self _ _ _) ?_
  rw [enter_core w t]
  dsimp only
  split
  · rename_i hh
    exact lands_beginDisconnect (isHeldBy_iff.1 hh) hp
  · rename_i hh
    exact .stay_put fun h => hh (isHeldBy_iff.2 h)

/-- A connect waits for the connection: its ticket is looked at first. -/
theorem travel_queued {target : Target} {ticket : Nat} (hp : w.core.backend.Prompt) :
    Travel t (w.core.put t (some (.queued target ticket)))
      (w.resumeLifecycle t (.queued target ticket)).2
      ((w.resumeLifecycle t (.queued target ticket)).1.core.put t
        (w.resumeLifecycle t (.queued target ticket)).2.stage?) := by
  unfold resumeLifecycle
  dsimp only
  split
  · rename_i hv
    exact lands_dropConnect (w := w.delist t) (of_decide_eq_true hv)
  · rename_i hv
    have hv' : ¬ ticket < w.core.epoch := fun h => hv (decide_eq_true h)
    split
    · rename_i hh
      exact lands_beginConnect (w := w.delist t) hv' (isHeldBy_iff.1 hh) hp
    · rename_i hh
      exact .stay_put ⟨hv', fun h => hh (isHeldBy_iff.2 h)⟩

/-- A connect waits for the backend: a void ticket ends it before the answer does. -/
theorem travel_dialing {ticket : Nat} {call : Call Server}
    (hl : (Lifecycle.dialing ticket call).Sound) (hp : w.core.backend.Prompt) :
    Travel t (w.core.put t (some (.dialing ticket call)))
      (w.resumeLifecycle t (.dialing ticket call)).2
      ((w.resumeLifecycle t (.dialing ticket call)).1.core.put t
        (w.resumeLifecycle t (.dialing ticket call)).2.stage?) := by
  obtain ⟨ask, -, hk⟩ := hl
  unfold resumeLifecycle
  dsimp only
  split
  · -- a disconnect came meanwhile, and the answer does not count
    rename_i hv
    have h := Settle.abort (c := w.core.put t (some (.dialing ticket call)))
      (put_stage_self _ _ _) (of_decide_eq_true hv)
    refine .settle ?_
    simpa [Progress.stage?, exit, put] using h
  · rename_i hv
    have hv' : ¬ ticket < w.core.epoch := fun h => hv (decide_eq_true h)
    rcases resumeCall_cases w t hk with ⟨w', hr, hlt, hw⟩ | ⟨w', a, b, hr, hd, ha, hw⟩
    · -- the latency is not over
      rw [hr]
      show Travel t _ _ (w'.core.put t _)
      rw [hw]
      exact .stay_put ⟨hv', hlt⟩
    · obtain ⟨due, rfl⟩ := hk
      rw [hr]
      refine lands_dialed hd hv' ha ?_ hp
      exact hw

/-- A connect looks at its first statistics: it is through, whatever they are, and a void ticket
spares it the wait. -/
theorem travel_sampling {ticket : Nat} {server : Server} {call : Call Stats}
    (hl : (Lifecycle.sampling ticket server call).Sound) :
    Travel t (w.core.put t (some (.sampling ticket server call)))
      (w.resumeLifecycle t (.sampling ticket server call)).2
      ((w.resumeLifecycle t (.sampling ticket server call)).1.core.put t
        (w.resumeLifecycle t (.sampling ticket server call)).2.stage?) := by
  unfold resumeLifecycle
  dsimp only
  split
  · -- a void ticket: the connect does not wait for the statistics
    exact lands_finishConnect ((w.delist t).disarm t) call
  · rename_i hv
    have hv' : ¬ ticket < w.core.epoch := fun h => hv (decide_eq_true h)
    obtain ⟨hlook, hk⟩ := looks_resumeStats w t hl
    rcases hr : w.resumeStats t call with ⟨w', call' | kept⟩
    · -- the look takes longer, and the ticket is as valid as before
      rw [hr] at hlook hk
      obtain ⟨rfl, hlt⟩ := hk call' rfl
      obtain ⟨hnow, hepoch⟩ := hlook.now_epoch
      have hv'' : ¬ ticket < w'.core.epoch := by
        rw [show w'.core.epoch = w.core.epoch from hepoch]
        exact hv'
      exact .of_looks hlook (.stay_put ⟨hv'', Nat.lt_of_le_of_lt (Nat.le_of_eq hnow) hlt⟩)
    · rw [hr] at hlook
      exact .of_looks hlook (lands_sampled (w'.delist t) call)

/-- A disconnect waits for the connection. -/
theorem travel_leaving (hp : w.core.backend.Prompt) :
    Travel t (w.core.put t (some .leaving)) (w.resumeLifecycle t .leaving).2
      ((w.resumeLifecycle t .leaving).1.core.put t (w.resumeLifecycle t .leaving).2.stage?) := by
  unfold resumeLifecycle
  dsimp only
  split
  · rename_i hh
    exact lands_beginDisconnect (isHeldBy_iff.1 hh) hp
  · rename_i hh
    exact .stay_put fun h => hh (isHeldBy_iff.2 h)

/-- A disconnect waits for the backend. -/
theorem travel_hangingUp {call : Call Unit} (hl : (Lifecycle.hangingUp call).Sound) :
    Travel t (w.core.put t (some (.hangingUp call))) (w.resumeLifecycle t (.hangingUp call)).2
      ((w.resumeLifecycle t (.hangingUp call)).1.core.put t
        (w.resumeLifecycle t (.hangingUp call)).2.stage?) := by
  unfold resumeLifecycle
  dsimp only
  rcases resumeCall_cases w t hl with ⟨w', hr, hlt, hw⟩ | ⟨w', a, b, hr, hd, ha, hw⟩
  · rw [hr]
    show Travel t _ _ (w'.core.put t _)
    rw [hw]
    exact .stay_put hlt
  · obtain ⟨due, rfl⟩ := hl
    rw [hr]
    exact lands_hungUp hd ha hw

/-- Going on with a connect or a disconnect is a stretch of work. -/
theorem stretch_resumeLifecycle (w : Client) (t : TaskId) (l : Lifecycle) (hl : l.Sound)
    (hp : w.core.backend.Prompt) :
    Stretch t (w.core.put t (some l)) (.resume l) (w.resumeLifecycle t l).2
      ((w.resumeLifecycle t l).1.core.put t (w.resumeLifecycle t l).2.stage?) := by
  refine .resume (put_stage_self _ _ _) ?_
  cases l with
  | queued => exact travel_queued hp
  | dialing => exact travel_dialing hl hp
  | sampling => exact travel_sampling hl
  | leaving => exact travel_leaving hp
  | hangingUp => exact travel_hangingUp hl

end Asking

end Client

end TunnelSession
