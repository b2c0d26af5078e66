/-
  Every turn is made of exchanges.

  FUNCTIONS.  One lemma for each function of the client that calls the backend, with the deals of
  `Deals` on the one side and the scene it leaves on the other.  A connect or a disconnect that
  begins leaves the old connection behind first, so its answer does not find the connection up; one
  that goes on relies on the mirror (`Core.Mirrors.between`).

  TURNS.  `talk_run` puts them together, and `talk_happen` adds the events from outside.
-/
import TunnelSession.Proofs.Scene

namespace TunnelSession

variable {α : Type} {writer : Bool}

namespace Client

open Scene

variable {w : Client} {t : TaskId}

/-! ## Scenes that stay as they are -/

/-- A task is written. -/
theorem scene_setTask_write (w : Client) (task : Task) (ht : t < w.core.size) :
    (w.setTask t task).core.scene =
      { w.core.scene with changing := Function.update w.core.scene.changing t task.change? } := by
  have hk : task.change? = task.seen?.bind Task.change? := by cases task <;> rfl
  rw [core_setTask w task ht, hk, ← Core.changing_update]
  rfl

/-- A task that makes no change of the settings is written over one that made none. -/
theorem scene_setTask (w : Client) {task : Task} (h : w.core.scene.changing t = none)
    (hk : task.change? = none) : (w.setTask t task).core.scene = w.core.scene := by
  rcases Nat.lt_or_ge t w.tasks.length with ht | ht
  · rw [scene_setTask_write w task ht, hk, ← h, Function.update_eq_self]
  · have hw : w.setTask t task = w := by
      unfold setTask
      rw [List.set_eq_of_length_le ht]
    rw [hw]

/-- Keeping the statistics is taking in the answer. -/
theorem scene_commitStats (w : Client) (a : Except BackendError Stats) :
    (w.commitStats a).1.core.scene = w.core.scene.commit .stats a := by
  cases a with
  | error e => rfl
  | ok found =>
    unfold commitStats commit Ask.commit
    dsimp only
    rw [show w.core.scene.session = w.session from rfl]
    split
    · rw [core_update]
      rfl
    · rfl

/-- Keeping the servers is taking in the answer. -/
theorem scene_commitCatalog (w : Client) (a : Except BackendError (List Server)) :
    (w.commitCatalog a).1.core.scene = w.core.scene.commit .servers a := by
  cases a with
  | error e => rfl
  | ok servers =>
    show ((w.update _).say _).core.scene = _
    rw [core_say, core_update]
    rfl

theorem scene_sampled (w : Client) (server : Server) :
    (w.sampled server).1.core.scene = w.core.scene := by
  unfold sampled finishConnect
  dsimp only
  rw [core_releaseTransition, core_startPolling]
  rfl

/-! ## Statistics -/

/-- A look at the statistics is a call and its answer, or nothing without a connection. -/
theorem talk_fetchStats (w : Client) (t : TaskId) (hp : w.core.backend.Prompt) :
    Talk writer w.core.scene (w.fetchDeals t) (w.fetchStats t).1.core.scene := by
  unfold fetchStats fetchDeals
  split
  · have h : Answers writer _ _ _ _ := answers_startCall w t .stats hp nofun nofun
    rcases hr : w.startCall t .stats with ⟨w', call | a⟩
    · rw [hr] at h
      exact h
    · rw [hr] at h
      show Talk writer _ _ (w'.commitStats a).1.core.scene
      rw [scene_commitStats]
      exact h
  · exact .refl _

/-- A look that goes on waits, or is answered. -/
theorem talk_resumeStats (w : Client) (t : TaskId) {call : Call Stats} (hk : call.Runs .stats) :
    Talk writer w.core.scene (w.resumeDeals t call) (w.resumeStats t call).1.core.scene := by
  unfold resumeStats
  have h : Answers writer _ _ _ _ := answers_resumeCall w t hk nofun nofun
  rcases hr : w.resumeCall t call with ⟨w', call' | a⟩
  · rw [hr] at h
    exact h
  · rw [hr] at h
    show Talk writer _ _ (w'.commitStats a).1.core.scene
    rw [scene_commitStats]
    exact h

/-! ## Connects and disconnects -/

/-- The backend answered a connect. Taking the answer in is part of the exchange that ends with it,
and with a tunnel the first look is the next exchange. -/
theorem talk_dialed (w : Client) (t : TaskId) (ticket : Nat) {ask : Ask Server} (hd : ask.IsDial)
    (a : Except BackendError Server) (hp : w.core.backend.Prompt) :
    Talk writer (w.core.scene.commit ask a) (w.dialedDeals t a)
      (w.dialed t ticket a).1.core.scene := by
  cases a with
  | error e =>
    have hc : (w.dialed t ticket (.error e)).1.core.scene = w.core.scene.commit ask (.error e) := by
      show (((w.say _).update _).releaseTransition).core.scene = _
      rw [core_releaseTransition, core_update]
      rcases hd with ⟨id, rfl⟩ | rfl <;> rfl
    rw [hc]
    exact .refl _
  | ok server =>
    unfold dialed tunnelMade dialedDeals
    dsimp only
    -- the client when the session knows the tunnel and nothing was looked at yet
    generalize hu : ((w.update _).raiseTunnel.say (.connected server)) = u
    have hc : u.core.scene = w.core.scene.commit ask (.ok server) := by
      rw [← hu, core_say, core_raiseTunnel, core_update]
      rcases hd with ⟨id, rfl⟩ | rfl <;> rfl
    have hup : u.core.scene.backend.Prompt := by
      rw [hc]
      exact hp
    have h : Talk writer _ _ _ := talk_fetchStats u t hup
    rw [hc] at h
    rcases hr : u.fetchStats t with ⟨u', call | kept⟩
    · rw [hr] at h
      exact h
    · rw [hr] at h
      show Talk writer _ _ (u'.sampled server).1.core.scene
      rw [scene_sampled]
      exact h

/-- The old connection is left behind, and the backend is called: of the first the scene has the
session only. -/
theorem talk_dial (w : Client) (t : TaskId) (ticket : Nat) {state : ConnectionState}
    {ask : Ask Server} (hd : ask.IsDial) (hs : state ≠ .connected)
    (hp : w.core.backend.Prompt) :
    Talk writer w.core.scene (w.dialDeals t state ask)
      (w.dial t ticket state ask).1.core.scene := by
  unfold dial dialDeals
  dsimp only
  -- the client when the old connection is left behind and the backend was not called yet
  generalize hu : (w.update _).stopPolling.lowerTunnel = u
  have hc : u.core.scene = { w.core.scene with session := w.core.session.depart state } := by
    rw [← hu, core_lowerTunnel, core_stopPolling, core_update]
    rfl
  have hx : Talk writer w.core.scene [] u.core.scene := by
    rw [hc]
    exact (Exchange.depart state hs).single
  have hup : u.core.backend.Prompt := hx.prompt hp
  have hw : ask.operation.isWrite = true → writer = true := by
    rw [hd.isWrite_eq]
    exact fun hk => absurd hk Bool.false_ne_true
  have hst : u.core.session.state ≠ .connected := by
    rw [show u.core.session = _ from congrArg Scene.session hc]
    exact hs
  have h := answers_startCall u t ask hup (fun _ => hst) hw
  rcases hr : u.startCall t ask with ⟨u', call | a⟩
  · rw [hr] at h
    exact hx.trans (h.trans (.refl _))
  · rw [hr] at h
    exact hx.trans (h.trans (talk_dialed u' t ticket hd a (h.prompt hup)))

/-- A connect holds the connection. -/
theorem talk_beginConnect (w : Client) (t : TaskId) (ticket : Nat) (target : Target)
    (hp : w.core.backend.Prompt) :
    Talk writer w.core.scene (w.connectDeals t target)
      (w.beginConnect t ticket target).1.core.scene := by
  cases target with
  | server id => exact talk_dial (w.say (.connecting id)) t ticket (.inl ⟨id, rfl⟩) nofun hp
  | best => exact talk_dial (w.say .quickConnecting) t ticket (.inr rfl) nofun hp
  | last =>
    unfold beginConnect connectDeals
    cases w.session.server with
    | some server =>
      exact talk_dial (w.say (.connecting server.id)) t ticket (.inl ⟨_, rfl⟩) nofun hp
    | none =>
      dsimp only
      rw [core_releaseTransition]
      exact .refl _

/-- A connect that is asked for dials at once, or stands in line and makes no deals. -/
theorem talk_requestConnect (w : Client) (t : TaskId) (target : Target) (ticket : Nat)
    (hp : w.core.backend.Prompt) :
    Talk writer w.core.scene (w.askDeals t target ticket)
      (w.requestConnect t target ticket).1.core.scene := by
  unfold requestConnect askDeals
  split
  · exact .refl _
  · dsimp only
    split
    · exact talk_beginConnect { w with transition := w.transition.request t } t ticket target hp
    · exact .refl _

/-- The answer to a disconnect is taken in when the task is through with it. -/
theorem scene_hungUp (w : Client) (a : Except BackendError Unit) :
    (w.hungUp a).1.core.scene = w.core.scene.commit .disconnect a := by
  cases a with
  | ok _ =>
    show (((w.update _).say _).releaseTransition).core.scene = _
    rw [core_releaseTransition, core_say, core_update]
    rfl
  | error e =>
    show (((w.say _).update _).releaseTransition).core.scene = _
    rw [core_releaseTransition, core_update]
    rfl

/-- A disconnect holds the connection. It leaves the old one behind, and its call is one
exchange. -/
theorem talk_beginDisconnect (w : Client) (t : TaskId) (hp : w.core.backend.Prompt) :
    Talk writer w.core.scene (w.hangUpDeals t) (w.beginDisconnect t).1.core.scene := by
  unfold beginDisconnect hangUpDeals
  dsimp only
  -- the client when the old connection is left behind and the backend was not called yet
  generalize hu : ((w.say _).update _).stopPolling.lowerTunnel = u
  have hc : u.core.scene =
      { w.core.scene with session := w.core.session.depart .disconnecting } := by
    rw [← hu, core_lowerTunnel, core_stopPolling, core_update]
    rfl
  have hx : Talk writer w.core.scene [] u.core.scene := by
    rw [hc]
    exact (Exchange.depart .disconnecting nofun).single
  have hst : u.core.session.state ≠ .connected := by
    rw [show u.core.session = _ from congrArg Scene.session hc]
    exact nofun
  have h : Answers writer _ _ _ _ :=
    answers_startCall u t .disconnect (hx.prompt hp) (fun _ => hst) nofun
  rcases hr : u.startCall t .disconnect with ⟨u', call | a⟩
  · rw [hr] at h
    exact hx.trans h
  · rw [hr] at h
    show Talk writer _ _ (u'.hungUp a).1.core.scene
    rw [scene_hungUp]
    exact hx.trans h

/-- A disconnect that is asked for hangs up at once, or stands in line. -/
theorem talk_queueDisconnect (w : Client) (t : TaskId) (hp : w.core.backend.Prompt) :
    Talk writer w.core.scene (w.leaveDeals t) (w.queueDisconnect t).1.core.scene := by
  unfold queueDisconnect leaveDeals
  dsimp only
  split
  · exact talk_beginDisconnect { w with transition := w.transition.request t } t hp
  · exact .refl _

/-- A connect or a disconnect goes on; while it waits for the backend to change the tunnel, the
connection is not up. -/
theorem talk_resumeLifecycle (w : Client) (t : TaskId) {l : Lifecycle} (hl : l.Sound)
    (hp : w.core.backend.Prompt) (hb : l.IsBetween → w.core.session.state ≠ .connected) :
    Talk writer w.core.scene (w.lifecycleDeals t l)
      (w.resumeLifecycle t l).1.core.scene := by
  cases l with
  | queued target ticket =>
    unfold resumeLifecycle lifecycleDeals
    dsimp only
    split
    · rw [dropConnect, core_withdrawTransition]
      exact .refl _
    · split
      · exact talk_beginConnect (w.delist t) t ticket target hp
      · exact .refl _
  | dialing ticket call =>
    -- the answer must not find the connection up, which the mirror says
    obtain ⟨ask, hd, hk⟩ := hl
    unfold resumeLifecycle lifecycleDeals
    dsimp only
    split
    · -- the ticket is void, and the call is given up
      rw [core_releaseTransition]
      exact talk_dropDeals hk _
    · have hw : ask.operation.isWrite = true → writer = true := by
        rw [hd.isWrite_eq]
        exact fun hk => absurd hk Bool.false_ne_true
      have h := answers_resumeCall w t hk (fun _ => hb trivial) hw
      rcases hr : w.resumeCall t call with ⟨w', call' | a⟩
      · rw [hr] at h
        exact h.trans (.refl _)
      · rw [hr] at h
        exact h.trans (talk_dialed (w'.delist t) t ticket hd a (h.prompt hp))
  | sampling ticket server call =>
    -- the tunnel is there; only the statistics are missing
    unfold resumeLifecycle lifecycleDeals
    dsimp only
    split
    · -- the ticket is void, and the look is given up
      rw [finishConnect, core_releaseTransition]
      exact talk_dropDeals hl _
    · have h : Talk writer _ _ _ := talk_resumeStats w t hl
      rcases hr : w.resumeStats t call with ⟨w', call' | kept⟩
      · rw [hr] at h
        exact h
      · rw [hr] at h
        show Talk writer _ _ ((w'.delist t).sampled server).1.core.scene
        rw [scene_sampled]
        exact h
  | leaving =>
    unfold resumeLifecycle lifecycleDeals
    dsimp only
    split
    · exact talk_beginDisconnect w t hp
    · exact .refl _
  | hangingUp call =>
    unfold resumeLifecycle lifecycleDeals
    dsimp only
    have h : Answers writer _ _ _ _ :=
      answers_resumeCall w t hl (fun _ => hb trivial) fun hk => absurd hk Bool.false_ne_true
    rcases hr : w.resumeCall t call with ⟨w', call' | a⟩
    · rw [hr] at h
      exact h
    · rw [hr] at h
      show Talk writer _ _ (w'.hungUp a).1.core.scene
      rw [scene_hungUp]
      exact h

/-! ## Commands -/

/-- A command that only fetches the catalog. -/
theorem talk_asLoad {s : Scene} {δ : List Deal}
    {r : Client × Progress (Call (List Server)) (Except BackendError (List Server))}
    (h : Answers writer s δ .servers r) : Talk writer s δ (asLoad t false r).1.core.scene := by
  rcases r with ⟨v, call | a⟩
  · exact h
  · show Talk writer s δ (v.commitCatalog a).1.core.scene
    rw [scene_commitCatalog]
    exact h

/-- A start that fetches the catalog: when the servers have come, the connect that it goes on with
makes deals of its own. -/
theorem talk_asLoad_start {s : Scene} {δ : List Deal}
    {r : Client × Progress (Call (List Server)) (Except BackendError (List Server))}
    (h : Answers writer s δ .servers r) (hp : s.backend.Prompt) :
    Talk writer s (δ ++ startedDeals t r) (asLoad t true r).1.core.scene := by
  rcases r with ⟨v, call | a⟩
  · exact h.trans (.refl _)
  · have hu : Talk writer s δ (v.commitCatalog a).1.core.scene := by
      rw [scene_commitCatalog]
      exact h
    refine hu.trans ?_
    rw [show asLoad t true (v, .done a) = (v.commitCatalog a).1.continueStart t from rfl]
    unfold startedDeals continueStart
    dsimp only
    -- the client when the catalog is there
    have hup := hu.prompt hp
    generalize (v.commitCatalog a).1 = u at hup
    split
    · have hc : Talk writer _ _ _ := talk_requestConnect (u.say .autoConnecting) t .best
        (u.say .autoConnecting).epoch hup
      rcases hr : (u.say .autoConnecting).requestConnect t .best (u.say .autoConnecting).epoch
        with ⟨u', l | settled⟩
      · rw [hr] at hc
        exact hc
      · rw [hr] at hc
        exact hc
    · exact .refl _

/-- How a connect or a disconnect is wrapped into a command changes nothing. -/
theorem core_asLifecycle (r : Client × Progress Lifecycle Settled) :
    (asLifecycle r).1.core = r.1.core := by
  rcases r with ⟨v, l | s⟩ <;> rfl

theorem core_asStart (r : Client × Progress Lifecycle Settled) :
    (asStart r).1.core = r.1.core := by
  rcases r with ⟨v, l | s⟩ <;> rfl

theorem core_asSample (r : Client × Progress (Call Stats) Bool) :
    (asSample r).1.core = r.1.core := by
  rcases r with ⟨v, call | kept⟩ <;> rfl

/-- The version changes nothing. -/
theorem talk_asVersion {s : Scene} {δ : List Deal}
    {r : Client × Progress (Call String) (Except BackendError String)}
    (h : Answers writer s δ .version r) : Talk writer s δ (asVersion r).1.core.scene := by
  rcases r with ⟨v, call | e | version⟩ <;> exact h

/-- A command that makes no change of the settings runs, one case for each point. The flag says so:
such exchanges may not touch the settings. -/
theorem talk_runPoint (hs : w.core.Sound) (hm : w.core.Mirrors) {p : Point}
    (ho : w.core.entry t = some (.command p)) (hn : (Task.command p).change? = none) :
    Talk false w.core.scene (w.pointDeals t p) (w.runPoint t p).1.core.scene := by
  have hp := hs.prompt
  have hsound := hs.entry t _ ho
  have hstage := hs.stage_of_entry ho
  -- one case for each point; a new command calls the function that it is for
  cases p with
  | fresh command =>
    cases command with
    | connect id =>
      show Talk false _ _ (asLifecycle _).1.core.scene
      rw [core_asLifecycle]
      exact talk_requestConnect w t _ _ hp
    | quickConnect =>
      show Talk false _ _ (asLifecycle _).1.core.scene
      rw [core_asLifecycle]
      exact talk_requestConnect w t _ _ hp
    | reconnect =>
      show Talk false _ _ (asLifecycle _).1.core.scene
      rw [core_asLifecycle]
      exact talk_requestConnect w t _ _ hp
    | disconnect =>
      show Talk false _ _ (asLifecycle (w.cancelConnects.queueDisconnect t)).1.core.scene
      rw [core_asLifecycle]
      -- the connects that are cancelled are not in the scene
      have h : _ → Talk false _ _ _ := talk_queueDisconnect w.cancelConnects t
      rw [core_cancelConnects] at h
      exact h hp
    | start => exact talk_asLoad_start (answers_startCall w t .servers hp nofun nofun) hp
    | write p => cases hn
    | fetchServers => exact talk_asLoad (answers_startCall w t .servers hp nofun nofun)
    | fetchStats =>
      show Talk false _ _ (asSample _).1.core.scene
      rw [core_asSample]
      exact talk_fetchStats w t hp
    | version => exact talk_asVersion (answers_startCall w t .version hp nofun nofun)
    | toggleFavorite id =>
      show Talk false _ [] ((w.update _).say _).core.scene
      rw [core_say, core_update]
      exact (Exchange.favorites (w.core.session.favorites.toggle id)).single
    | isFavorite | find | favorites | recents | catalog | settings | status | snapshot | reject =>
      exact .refl _
  | lifecycle l =>
    show Talk false _ _ (asLifecycle _).1.core.scene
    rw [core_asLifecycle]
    exact talk_resumeLifecycle w t hsound hp (hm.between t l hstage)
  | starting l =>
    show Talk false _ _ (asStart _).1.core.scene
    rw [core_asStart]
    exact talk_resumeLifecycle w t hsound hp (hm.between t l hstage)
  | loading starts call =>
    have h : Answers false _ _ _ _ := answers_resumeCall w t hsound nofun nofun
    cases starts with
    | true => exact talk_asLoad_start h hp
    | false => exact talk_asLoad h
  | writing p => cases hn
  | sampling call =>
    show Talk false _ _ (asSample _).1.core.scene
    rw [core_asSample]
    exact talk_resumeStats w t hsound
  | asking call => exact talk_asVersion (answers_resumeCall w t hsound nofun nofun)

/-- A command that makes no change of the settings goes on without one. -/
theorem change?_runPoint {p : Point} (hn : (Task.command p).change? = none) :
    (pointTask (w.runPoint t p).2).change? = none := by
  have hlife : ∀ r, (pointTask (asLifecycle r).2).change? = none := by
    rintro ⟨v, l | s⟩ <;> rfl
  have hstart : ∀ r, (pointTask (asStart r).2).change? = none := by
    rintro ⟨v, l | s⟩ <;> rfl
  have hsample : ∀ r, (pointTask (asSample r).2).change? = none := by
    rintro ⟨v, call | kept⟩ <;> rfl
  have hversion : ∀ r, (pointTask (asVersion r).2).change? = none := by
    rintro ⟨v, call | e | version⟩ <;> rfl
  -- a start may go on with a connect, which makes no change either
  have hload : ∀ starts r, (pointTask (asLoad t starts r).2).change? = none := by
    rintro (_ | _) ⟨v, call | a⟩
    · rfl
    · rfl
    · rfl
    · show (pointTask (continueStart (v.commitCatalog a).1 t).2).change? = none
      generalize (v.commitCatalog a).1 = u
      unfold continueStart
      split
      · exact hstart _
      · rfl
  cases p with
  | fresh command =>
    cases command with
    | connect | quickConnect | reconnect | disconnect => exact hlife _
    | start | fetchServers => exact hload _ _
    | write p => cases hn
    | fetchStats => exact hsample _
    | version => exact hversion _
    | toggleFavorite | isFavorite | find | favorites | recents | catalog | settings | status
      | snapshot | reject => rfl
  | lifecycle l => exact hlife _
  | starting l => exact hstart _
  | loading starts call => exact hload _ _
  | writing p => cases hn
  | sampling call => exact hsample _
  | asking call => exact hversion _

/-! ### Changes of the settings -/

/-- What was saved becomes the settings, and the lock is handed on. -/
theorem scene_saved (w : Client) (merged : Settings) (a : Except BackendError Unit) :
    (w.saved merged a).1.core.scene =
      { w.core.scene.commit (.save merged) a with writes := w.core.writes.release } := by
  cases a with
  | ok _ =>
    show (((w.update _).setKillSwitch _).say _).releaseWrites.core.scene = _
    rw [core_releaseWrites, core_say, core_setKillSwitch, core_update]
    rfl
  | error e =>
    show w.releaseWrites.core.scene = _
    rw [core_releaseWrites]
    rfl

/-- The flag that the backend has set is set in the settings, and the lock is handed on. -/
theorem scene_toggled (w : Client) (flag : Flag) (requested : Bool)
    (a : Except BackendError Bool) :
    (w.toggled flag requested a).1.core.scene =
      { w.core.scene.commit (.toggle flag requested) a with
        writes := w.core.writes.release } := by
  cases a with
  | ok value =>
    -- what is reported about the value does not matter
    have hc : (if value = requested then w else w.say (.flagKept flag value)).core = w.core := by
      split <;> rfl
    unfold toggled
    dsimp only
    rw [core_releaseWrites, core_say]
    split
    · rw [core_setKillSwitch, core_update, hc]
      rfl
    · rw [core_update, hc]
      rfl
  | error e =>
    show w.releaseWrites.core.scene = _
    rw [core_releaseWrites]
    rfl

/-- A change is answered, and gives the settings back. -/
theorem talk_settled {s s' : Scene} {δ : List Deal} {ask : Ask α} {a : Except BackendError α}
    (h : Talk true s δ (s'.commit ask a)) (l : Lock) :
    Talk true s δ { s'.commit ask a with writes := l } := by
  have ht := h.trans (Exchange.writes l rfl).single
  rwa [List.append_nil] at ht

/-- A change that has the settings calls the backend; all else it does is taking in the answer,
which is part of the exchange. -/
theorem talk_beginWrite (w : Client) (t : TaskId) (write : Write) (hp : w.core.backend.Prompt) :
    Talk true w.core.scene (w.changeDeals t write) (w.beginWrite t write).1.core.scene := by
  cases write with
  | patch p =>
    unfold beginWrite changeDeals
    dsimp only
    have h := answers_startCall w t (.save (p.apply w.session.settings)) hp nofun fun _ => rfl
    rcases hr : w.startCall t (.save (p.apply w.session.settings)) with ⟨w', call | a⟩
    · rw [hr] at h
      exact h
    · rw [hr] at h
      dsimp only
      rw [scene_saved]
      exact talk_settled h _
  | toggle flag =>
    unfold beginWrite changeDeals
    dsimp only
    have hl : (Ask.toggle flag !w.session.settings.flag flag).operation.isLifecycle = true →
        w.core.session.state ≠ .connected := by
      cases flag <;> nofun
    have h := answers_startCall w t (.toggle flag !w.session.settings.flag flag) hp hl fun _ => rfl
    rcases hr : w.startCall t (.toggle flag !w.session.settings.flag flag) with ⟨w', call | a⟩
    · rw [hr] at h
      exact h
    · rw [hr] at h
      dsimp only
      rw [scene_toggled]
      exact talk_settled h _

/-- A change that is asked for takes the lock or joins its line, and begins if it has the lock. -/
theorem talk_requestWrite (w : Client) (t : TaskId) (write : Write)
    (hp : w.core.backend.Prompt) :
    Talk true w.core.scene (w.writeDeals t write) (w.requestWrite t write).1.core.scene := by
  have hx : Talk true w.core.scene [] { w.core.scene with writes := w.core.writes.request t } :=
    (Exchange.writes _ rfl).single
  unfold requestWrite writeDeals
  dsimp only
  split
  · exact hx.trans (talk_beginWrite { w with writes := w.writes.request t } t write hp)
  · exact hx

/-- A change that goes on begins when it has the lock, or waits for its answer. In line it makes no
deals. -/
theorem talk_resumeWrite (w : Client) (t : TaskId) {p : Writing} (hk : p.Sound)
    (hp : w.core.backend.Prompt) :
    Talk true w.core.scene (w.writingDeals t p) (w.resumeWrite t p).1.core.scene := by
  cases p with
  | queued write =>
    unfold resumeWrite writingDeals
    dsimp only
    split
    · exact talk_beginWrite w t write hp
    · exact .refl _
  | saving merged call =>
    unfold resumeWrite writingDeals
    dsimp only
    -- an answer that has come is taken in within its exchange
    have h := answers_resumeCall w t hk nofun fun _ => rfl
    rcases hr : w.resumeCall t call with ⟨w', call' | a⟩
    · rw [hr] at h
      exact h
    · rw [hr] at h
      dsimp only
      rw [scene_saved]
      exact talk_settled h _
  | toggling flag requested call =>
    unfold resumeWrite writingDeals
    dsimp only
    -- likewise for a flag, whose call is no lifecycle operation
    have hl : (Ask.toggle flag requested).operation.isLifecycle = true →
        w.core.session.state ≠ .connected := by
      cases flag <;> nofun
    have h := answers_resumeCall w t hk hl fun _ => rfl
    rcases hr : w.resumeCall t call with ⟨w', call' | a⟩
    · rw [hr] at h
      exact h
    · rw [hr] at h
      dsimp only
      rw [scene_toggled]
      exact talk_settled h _

/-! ### Turns of commands -/

theorem talk_asWrite {s : Scene} {δ : List Deal} {r : Client × Progress Writing Reply}
    (h : Talk true s δ r.1.core.scene) : Talk true s δ (asWrite r).1.core.scene := by
  rcases r with ⟨v, p | reply⟩ <;> exact h

/-- A command that changes the settings runs. -/
theorem talk_runPoint_write (hs : w.core.Sound) {p q : Point}
    (ho : w.core.entry t = some (.command p)) (hk : (Task.command p).change? = some q) :
    Talk true w.core.scene (w.pointDeals t p) (w.runPoint t p).1.core.scene ∧
      (w.runPoint t p).1.core.size = w.core.size := by
  cases p with
  | fresh command =>
    cases command with
    | write p =>
      exact ⟨talk_asWrite (talk_requestWrite w t p hs.prompt),
        (writes_requestWrite w t p hs.prompt).idles.quiet.size_eq⟩
    | _ => cases hk
  | writing p =>
    have hp := hs.entry t _ ho
    exact ⟨talk_asWrite (talk_resumeWrite w t hp hs.prompt),
      (writes_resumeWrite w t hp hs.prompt).idles.quiet.size_eq⟩
  | _ => cases hk

/-- A command runs; only one that changes the settings touches them. -/
theorem talk_runCommand (hs : w.core.Sound) (hm : w.core.Mirrors) {p : Point}
    (ho : w.core.entry t = some (.command p)) :
    Talk (Task.command p).change?.isSome w.core.scene (w.pointDeals t p)
      (w.runCommand t p).core.scene := by
  have hc : w.core.scene.changing t = (Task.command p).change? := by
    show (w.core.entry t).bind _ = _
    rw [ho]
    rfl
  rw [runCommand_eq]
  cases hk : (Task.command p).change? with
  | none =>
    -- no change: where the command stands is not in the scene
    have h := talk_runPoint hs hm ho hk
    rw [scene_setTask _ _ (change?_runPoint hk)]
    · exact h
    · rw [h.sameSettings.changing, hc, hk]
  | some q =>
    -- a change: its new point is written into the scene last
    obtain ⟨h, hn⟩ := talk_runPoint_write hs ho hk
    rw [scene_setTask_write _ _ (hn ▸ hs.lt_size ho)]
    have ht := h.trans (Exchange.changing t (pointTask (w.runPoint t p).2).change? rfl).single
    rwa [List.append_nil] at ht

/-! ## Pollers -/

/-- A poller waits until its next look is due. -/
theorem scene_waitPoller (w : Client) (due : Nat) (p : Poller)
    (hc : w.core.scene.changing t = none) :
    ((w.arm due t).setTask t (.poller p)).core.scene = w.core.scene := by
  have ha : (w.arm due t).core.scene = w.core.scene := by rw [core_arm]
  rw [scene_setTask _ (by rw [ha]; exact hc) rfl, ha]

/-- A poller ends. -/
theorem scene_endPoller (w : Client) (hc : w.core.scene.changing t = none) :
    (((w.disarm t).say .pollingEnded).setTask t (.ended .finished)).core.scene = w.core.scene :=
  scene_setTask ((w.disarm t).say .pollingEnded) hc rfl

/-- The looks of a poller that are due, by induction on how many the turn may take. Each look is an
exchange that touches no settings. -/
theorem talk_pollerTurn (looks : Nat) (p : Poller) (hp : w.core.backend.Prompt)
    (hc : w.core.scene.changing t = none) :
    Talk false w.core.scene (looksDeals t looks p w) (pollerTurn t looks p w).core.scene := by
  -- the induction is on the looks that the turn may take at most
  induction looks generalizing w p with
  | zero =>
    unfold pollerTurn looksDeals
    dsimp only
    split
    · rw [scene_endPoller w hc]
      exact .refl _
    · rw [scene_waitPoller w _ _ hc]
      exact .refl _
  | succ looks ih =>
    unfold pollerTurn looksDeals
    dsimp only
    split
    · rw [scene_endPoller w hc]
      exact .refl _
    · split
      · rw [scene_waitPoller w _ _ hc]
        exact .refl _
      · -- a look is due
        have h : Talk false _ _ _ := talk_fetchStats w t hp
        have hv : (w.fetchStats t).1.core.scene.changing t = none := by
          rw [h.sameSettings.changing]
          exact hc
        rcases hr : w.fetchStats t with ⟨v, call | kept⟩
        · -- the look takes longer
          rw [hr] at h hv
          dsimp only
          rw [scene_setTask v hv rfl]
          exact h.trans (.refl _)
        · -- the look is reported, and the next one may be due
          rw [hr] at h hv
          rw [← core_reportLook v kept] at h hv
          exact h.trans (ih _ (h.prompt hp) hv)

/-- A turn of a poller is looks at the statistics; when it is told to stop, it gives up the one
under way. -/
theorem talk_runPoller (hs : w.core.Sound) {p : Poller} (hp : w.task? t = some (.poller p)) :
    Talk false w.core.scene (w.pollerDeals t p) (w.runPoller t p).core.scene := by
  have hlook : w.core.looking t = p.call := by
    show (w.task? t).bind Task.look? = _
    rw [hp]
    rfl
  -- a poller makes no change of the settings
  have hc : w.core.scene.changing t = none := by
    show ((w.task? t).bind Task.seen?).bind Task.change? = none
    rw [hp]
    rfl
  unfold runPoller pollerDeals
  dsimp only
  split
  · rw [scene_setTask _ hc rfl]
    exact .refl _
  · split
    · -- told to stop, or the connection is gone
      rw [scene_endPoller w hc]
      cases hcall : p.call with
      | none => exact .refl _
      | some call => exact talk_dropDeals (hs.looking t call (hlook.trans hcall)) _
    · cases hcall : p.call with
      | none => exact talk_pollerTurn _ p hs.prompt hc
      | some call =>
        have h : Talk false _ _ _ :=
          talk_resumeStats w t (hs.looking t call (hlook.trans hcall))
        have hv : (w.resumeStats t call).1.core.scene.changing t = none := by
          rw [h.sameSettings.changing]
          exact hc
        dsimp only
        rcases hr : w.resumeStats t call with ⟨v, call' | kept⟩
        · rw [hr] at h hv
          dsimp only
          rw [scene_setTask v hv rfl]
          exact h.trans (.refl _)
        · rw [hr] at h hv
          rw [← core_reportLook v kept] at h hv
          exact h.trans (talk_pollerTurn _ _ (h.prompt hs.prompt) hv)

/-! ## Bridges -/

/-- Taking a trigger makes no deals: jobs are for the worker. -/
theorem scene_receive (w : Client) (b : BridgeId) (bridge : Bridge) (e : Trigger) :
    (w.receive b bridge e).core.scene = w.core.scene := by
  cases e with
  | navigate path =>
    unfold receive
    dsimp only
    split <;> rfl
  | quickConnect | connect id =>
    unfold receive
    dsimp only
    rw [core_handOver]
    rfl
  | disconnect =>
    unfold receive
    dsimp only
    rw [core_handOver, core_cancelConnects]
    rfl

/-- The end of a receiver is not on the scene: it closes the bridge's queue and wakes the worker. -/
theorem scene_endReceiver (w : Client) (b : BridgeId) (bridge : Bridge)
    (hc : w.core.scene.changing t = none) :
    (w.endReceiver t b bridge).core.scene = w.core.scene := by
  unfold endReceiver
  dsimp only
  rw [scene_setTask, core_wakeWorker]
  · rfl
  · rw [core_wakeWorker]
    exact hc
  · rfl

/-- A receiver makes no deals. -/
theorem scene_runReceiver (w : Client) (b : BridgeId) (hc : w.core.scene.changing t = none) :
    (w.runReceiver t b).core.scene = w.core.scene := by
  unfold runReceiver
  cases w.bridge? b with
  | none => exact scene_setTask w hc rfl
  | some bridge =>
    dsimp only
    split
    · exact scene_endReceiver w b bridge hc
    · -- however many triggers are taken
      have hall : ∀ (es : List Trigger) (v : Client),
          (es.foldl (fun w e => w.receive b bridge e) v).core.scene = v.core.scene := by
        intro es
        induction es with
        | nil => intro v; rfl
        | cons e es ih => intro v; rw [List.foldl_cons, ih, scene_receive]
      split
      · rw [hall]
        rfl
      · rw [scene_endReceiver, core_say, hall]
        · rfl
        · rw [core_say, hall]
          exact hc

theorem talk_beginJob (w : Client) (t : TaskId) (job : Job) (hp : w.core.backend.Prompt) :
    Talk writer w.core.scene (w.jobDeals t job) (w.beginJob t job).1.core.scene := by
  rcases job with ⟨request, ticket⟩
  cases request with
  | quickConnect => exact talk_requestConnect w t .best ticket hp
  | connect id => exact talk_requestConnect w t (.server id) ticket hp
  | disconnect => exact talk_queueDisconnect w t hp

/-- Jobs are carried out until one waits or none is left, by induction on how many there may be.
Taking a job and waiting for one are not on the scene. -/
theorem talk_carryOut (b : BridgeId) (jobs : Nat) (hp : w.core.backend.Prompt)
    (hc : w.core.scene.changing t = none) :
    Talk false w.core.scene (jobsDeals t b jobs w) (carryOut t b jobs w).core.scene := by
  -- nothing is left to do
  have hidle : Talk false w.core.scene [] (w.setTask t (.worker b none)).core.scene ∧
      Talk false w.core.scene [] (w.setTask t (.ended .finished)).core.scene := by
    rw [scene_setTask w hc rfl, scene_setTask w hc rfl]
    exact ⟨.refl _, .refl _⟩
  induction jobs generalizing w with
  | zero =>
    unfold jobsDeals carryOut
    cases w.bridge? b with
    | none => exact hidle.2
    | some bridge =>
      dsimp only
      split
      · exact hidle.1
      · exact hidle.2
  | succ jobs ih =>
    unfold jobsDeals carryOut
    cases w.bridge? b with
    | none => exact hidle.2
    | some bridge =>
      dsimp only
      cases bridge.jobs with
      | nil =>
        dsimp only
        split
        · exact hidle.1
        · exact hidle.2
      | cons job rest =>
        dsimp only
        -- the client when the job is taken
        generalize hv : w.setBridge b _ = v
        have hvc : v.core.scene = w.core.scene := by
          rw [← hv]
          rfl
        have hvp : v.core.backend.Prompt := by
          rw [← hv]
          exact hp
        have h : Talk false _ _ _ := talk_beginJob v t job hvp
        have hu : (v.beginJob t job).1.core.scene.changing t = none := by
          rw [h.sameSettings.changing, hvc]
          exact hc
        rw [← hvc]
        rcases hr : v.beginJob t job with ⟨u, l | s⟩
        · rw [hr] at h hu
          dsimp only
          rw [scene_setTask u hu rfl]
          exact h.trans (.refl _)
        · rw [hr] at h hu
          rw [← core_reportJob u job.request s] at h hu
          refine h.trans (ih (h.prompt hvp) hu ?_)
          rw [scene_setTask _ hu rfl, scene_setTask _ hu rfl]
          exact ⟨.refl _, .refl _⟩

/-- A turn of a worker goes on with its job, and then carries out those that wait. -/
theorem talk_runWorker (hs : w.core.Sound) (hm : w.core.Mirrors) {b : BridgeId}
    {current : Option (Job × Lifecycle)} (ho : w.core.entry t = some (.worker b current)) :
    Talk false w.core.scene (w.workerDeals t b current) (w.runWorker t b current).core.scene := by
  have hc : w.core.scene.changing t = none := by
    show (w.core.entry t).bind _ = _
    rw [ho]
    rfl
  cases current with
  | none => exact talk_carryOut b _ hs.prompt hc
  | some current =>
    obtain ⟨job, l⟩ := current
    have hk : w.core.stage t = some l := hs.stage_of_entry ho
    have h : Talk false _ _ _ := talk_resumeLifecycle w t (hs.stage_sound t l hk) hs.prompt
      (hm.between t l hk)
    have hu : (w.resumeLifecycle t l).1.core.scene.changing t = none := by
      rw [h.sameSettings.changing]
      exact hc
    unfold workerDeals runWorker
    dsimp only
    rcases hr : w.resumeLifecycle t l with ⟨u, l' | s⟩
    · -- the job has to wait again
      rw [hr] at h hu
      dsimp only
      rw [scene_setTask u hu rfl]
      exact h.trans (.refl _)
    · -- the job is done and reported, which is not in the scene, and the next ones follow
      rw [hr] at h hu
      rw [← core_reportJob u job.request s] at h hu
      exact h.trans (talk_carryOut b _ (h.prompt hs.prompt) hu)

/-! ## Turns and events -/

/-- A turn is made of exchanges; only the task of a change touches the settings. -/
theorem talk_run (hs : w.core.Sound) (hm : w.core.Mirrors) (t : TaskId) :
    Talk (w.core.scene.changing t).isSome w.core.scene (w.turnDeals t) (w.run t).core.scene := by
  have hc : w.core.scene.changing t = (w.task? t).bind Task.change? := by
    show ((w.task? t).bind Task.seen?).bind Task.change? = _
    rcases w.task? t with _ | task
    · rfl
    · cases task <;> rfl
  rw [hc]
  unfold turnDeals run
  cases hk : w.task? t with
  | none => exact .refl _
  | some task =>
    rw [hk] at hc
    cases task with
    | command p => exact talk_runCommand hs hm (entry_of_task? hk rfl)
    | poller p => exact talk_runPoller hs hk
    | receiver b =>
      dsimp only
      rw [scene_runReceiver w b hc]
      exact .refl _
    | worker b current => exact talk_runWorker hs hm (entry_of_task? hk rfl)
    | ended how => exact .refl _

/-- Nobody has the number of a task that is not there yet. -/
theorem changing_small {c : Core} (hs : c.Sound) {t : TaskId} (ht : c.size ≤ t) :
    c.scene.changing t = none := by
  show (c.entry t).bind _ = none
  rw [(hs.small t ht).1]
  rfl

/-- A change from outside nudges the scene. -/
theorem nudge_outside {c c' : Core} {e : Event} (hs : c.Sound) (h : Core.Outside c e c') :
    Nudge c.scene c'.scene := by
  have hsize := changing_small hs (Nat.le_refl c.size)
  cases h with
  | call command | go command =>
    rw [Core.spawnCall, Core.scene_write]
    exact .spawn hsize command
  | pass ms => exact .pass ms
  | fail op e => exact .fail op e
  | pin op value => exact .pin op value
  | startPolling | stopPolling | bridge => exact .same
  | openBridge =>
    -- two tasks that make no change: the scene stays as it is
    rw [Core.openBridge, Core.scene_write_none _ rfl, Core.scene_write_none _ rfl]
    · exact .same
    · exact hsize
    · rw [Core.scene_write_none _ rfl]
      · exact changing_small hs (Nat.le_succ c.size)
      · exact hsize

/-- An event that gives nobody a turn nudges the scene. -/
theorem nudge_happen (hs : w.core.Sound) {e : Event} (he : e.IsQuiet) :
    Nudge w.core.scene (w.happen e).core.scene := by
  rcases outside_happen hs he with h | h
  · rw [h]
    exact .same
  · exact nudge_outside hs h

/-- An event nudges the scene, and then there are exchanges. -/
theorem talk_happen (hs : w.core.Sound) (hm : w.core.Mirrors) (e : Event) :
    ∃ s, Nudge w.core.scene s ∧ Talk true s (w.dealsOf e) (w.happen e).core.scene := by
  cases e with
  | call command =>
    -- the command is there first, and then it has its turn at once
    have hc := core_spawn_call hs command
    have hm' : (w.core.spawnCall command).Mirrors :=
      Core.linkInvariant_mirrors.same (Core.Outside.call command).sameLink hm
    have hs' := hs.spawnCall command
    refine ⟨_, nudge_outside hs (.call command), ?_⟩
    rw [← hc] at hs' hm' ⊢
    exact (talk_run hs' hm' _).weaken
  | poll t =>
    exact ⟨_, .same, (talk_run (w := { w with ready := w.ready.erase t }) hs hm t).weaken⟩
  | _ =>
    refine ⟨_, ?_, .refl _⟩
    exact nudge_happen hs trivial

end Client

end TunnelSession
