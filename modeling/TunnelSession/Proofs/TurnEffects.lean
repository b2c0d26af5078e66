/-
  The effects of every function, and of every turn.

  FUNCTIONS.  One lemma for each function of the client that works for a task: what it does is work
  (`Client.Reaches`), it writes no share but its own, what passes with the backend is what the deals
  of that function list, and the call that it leaves under way has its timer.

  TURNS.  A turn is work, after which the task is written (`Client.TurnEnds`).  It ends at a call,
  in line, or with nothing to do, and never where a command has not begun.
-/
import TunnelSession.Proofs.Effects

namespace TunnelSession

namespace Client

variable {α : Type} {w w' w₁ v : Client} {t u : TaskId} {shares : List Share}
  {c c' : Option OpenCall} {δ : List Deal}

/-! ## Calls -/

/-- The answer is made once the latency is over, whether it is held back then or not. -/
theorem reaches_answerCall (w : Client) (t : TaskId) (ask : Ask α) (hold : Nat) {due : Nat}
    (hd : due ≤ w.now) :
    Reaches t shares w (some ⟨ask.operation, due⟩)
      (w.answerDeals ask.operation (w.answerCall t ask hold).2) (w.answerCall t ask hold).1
      ((w.answerCall t ask hold).2.pending? Call.pending?) := by
  unfold answerCall
  dsimp only
  split
  · exact (Work.answered ask hd (.refl _ none)).reaches
  · exact (Work.answered ask hd (.effect (.arm _) (.refl _ none))).reaches

/-- A call that starts is under way for the latency, or answered at once. -/
theorem reaches_startCall (w : Client) (t : TaskId) (ask : Ask α) :
    Reaches t shares w none (w.startDeals t ask) (w.startCall t ask).1
      ((w.startCall t ask).2.pending? Call.pending?) := by
  -- the client when the call is counted
  let u := { w with backend := (w.backend.dropHold ask.operation).count ask.operation }.say
    (.called ask.operation)
  have hcalled : ∀ {v : Client} {c' : Option OpenCall} {δ : List Deal},
      Work t shares u (some ⟨ask.operation, u.now + u.backend.latency⟩) δ v c' →
      Work t shares w none (.called ask.operation :: δ) v c' :=
    fun h => .called ask.operation (.effect (.say _) h)
  unfold startDeals startCall
  dsimp only
  split
  · rename_i hl
    have hd : u.now + u.backend.latency ≤ u.now := Nat.le_of_eq (congrArg (u.now + ·) hl)
    have h : Reaches t shares u (some ⟨ask.operation, u.now + u.backend.latency⟩) _ _ _ :=
      reaches_answerCall u t ask (w.backend.hold ask.operation) hd
    exact ⟨hcalled h.work, fun _ => h.naps fun o ho => by cases ho; exact Nat.le_refl _⟩
  · rename_i hl
    refine ⟨hcalled (.effect (.arm _) (.refl _ _)), fun _ o ho => ?_⟩
    cases ho
    exact naps_arm (w := u) (Nat.lt_add_of_pos_right (Nat.pos_of_ne_zero hl)) (Nat.le_refl _)

/-- A call that goes on too early stays under way; after its latency it is answered. -/
theorem reaches_resumeCall (w : Client) (t : TaskId) (call : Call α) :
    Reaches t shares w call.pending? (w.resumeDeals t call) (w.resumeCall t call).1
      ((w.resumeCall t call).2.pending? Call.pending?) := by
  cases call with
  | running ask due hold =>
    unfold resumeDeals resumeCall
    dsimp only
    split
    · rename_i hlt
      refine ⟨.effect (.arm due) (.refl _ _), fun hb o ho => ?_⟩
      cases ho
      exact naps_arm hlt (hb _ rfl)
    · rename_i hlt
      exact reaches_answerCall w t ask hold (Nat.le_of_not_lt hlt)
  | held due answer =>
    -- the answer was made already, and is held back until the latency is over
    unfold resumeDeals resumeCall
    dsimp only
    split
    · exact (Work.effect (.arm due) (.refl _ none)).reaches
    · exact .refl w

/-- Giving up a call. -/
theorem work_dropDeals (w : Client) (t : TaskId) (call : Call α) :
    Work t shares w call.pending? call.dropDeals w none := by
  cases call with
  | running ask due hold => exact .dropped (.refl w none)
  | held due answer => exact .refl w none

/-! ## Statistics -/

/-- Statistics that are kept go into the session, and touch nothing else there. -/
theorem work_commitStats (w : Client) (t : TaskId) (a : Except BackendError Stats) :
    Work t Component.telemetry.shares w none [] (w.commitStats a).1 none := by
  cases a with
  | ok stats =>
    unfold commitStats
    dsimp only
    split
    · have hedit : Share.statistics.Holds fun s => { s with stats := some stats } := fun _ => rfl
      exact .effect (.edit (.head _) hedit) (.refl _ none)
    · exact .refl w none
  | error e => exact .effect (.say _) (.refl _ none)

theorem Reaches.settleStats {r : Client × Progress (Call Stats) (Except BackendError Stats)}
    (h : Reaches t Component.telemetry.shares w c δ r.1 (r.2.pending? Call.pending?)) :
    Reaches t Component.telemetry.shares w c δ (settleStats r).1
      ((settleStats r).2.pending? Call.pending?) := by
  rcases r with ⟨v, call | answer⟩
  · exact h
  · exact Reaches.before h (work_commitStats v t answer)

/-- A look calls the backend while the connection is up, and does nothing otherwise. -/
theorem reaches_fetchStats (w : Client) (t : TaskId) :
    Reaches t Component.telemetry.shares w none (w.fetchDeals t) (w.fetchStats t).1
      ((w.fetchStats t).2.pending? Call.pending?) := by
  unfold fetchDeals fetchStats
  split
  · exact (reaches_startCall w t .stats).settleStats
  · exact .refl w

theorem reaches_resumeStats (w : Client) (t : TaskId) (call : Call Stats) :
    Reaches t Component.telemetry.shares w call.pending? (w.resumeDeals t call)
      (w.resumeStats t call).1
      ((w.resumeStats t call).2.pending? Call.pending?) :=
  (reaches_resumeCall w t call).settleStats

/-! ## Connects and disconnects -/

/-- The poller is started, and the connection is given back. -/
theorem work_sampled (w : Client) (t : TaskId) (server : Server) :
    Work t Component.lifecycle.shares w none [] (w.sampled server).1 none :=
  .effect (.start line_mem_lifecycle _) (.effect (.release line_mem_lifecycle) (.refl _ none))

/-- A connect that has its tunnel looks at the statistics before it ends. -/
theorem reaches_dialed (w : Client) (t : TaskId) (ticket : Nat) (a : Except BackendError Server) :
    Reaches t Component.lifecycle.shares w none (w.dialedDeals t a) (w.dialed t ticket a).1
      ((w.dialed t ticket a).2.pending? Lifecycle.pending?) := by
  cases a with
  | error e =>
    refine Work.reaches (.effect (.say (.connectFailed e))
      (.effect (.edit connection_mem_lifecycle ?_)
        (.effect (.release line_mem_lifecycle) (.refl _ none))))
    exact fun _ => ⟨rfl, rfl, rfl⟩
  | ok server =>
    unfold dialedDeals dialed tunnelMade
    dsimp only
    -- the client when the session knows the tunnel
    generalize hu : ((w.update _).raiseTunnel.say (.connected server)) = u
    have hmade : Work t Component.lifecycle.shares w none [] u none := by
      rw [← hu]
      refine .effect (.edit connection_mem_lifecycle ?_)
        (.effect (.raise connection_mem_lifecycle) (.effect (.say _) (.refl _ none)))
      exact fun _ => ⟨rfl, rfl, rfl⟩
    have hf := ((reaches_fetchStats u t).mono telemetry_subset_lifecycle).behind hmade
    rcases hr : u.fetchStats t with ⟨v, call | kept⟩ <;> rw [hr] at hf
    · exact hf.enlist line_mem_lifecycle
    · exact Reaches.before hf (work_sampled v t server)

/-- A connect leaves the old connection behind, which writes the state and the slot, and calls the
backend. -/
theorem reaches_dial (w : Client) (t : TaskId) (ticket : Nat) (state : ConnectionState)
    (ask : Ask Server) :
    Reaches t Component.lifecycle.shares w none (w.dialDeals t state ask)
      (w.dial t ticket state ask).1
      ((w.dial t ticket state ask).2.pending? Lifecycle.pending?) := by
  unfold dialDeals dial
  dsimp only
  -- the client when the old connection is left behind
  generalize hu : (w.update _).stopPolling.lowerTunnel = u
  have hleft : Work t Component.lifecycle.shares w none [] u none := by
    rw [← hu]
    refine .effect (.edit connection_mem_lifecycle ?_)
      (.effect (.stop line_mem_lifecycle)
        (.effect (.lower connection_mem_lifecycle) (.refl _ none)))
    exact fun _ => ⟨rfl, rfl, rfl⟩
  refine Reaches.behind ?_ hleft
  have h : Reaches t Component.lifecycle.shares u none _ _ _ := reaches_startCall u t ask
  rcases hr : u.startCall t ask with ⟨v, call | answer⟩ <;> rw [hr] at h
  · exact (h.enlist line_mem_lifecycle).append_nil
  · exact h.trans (reaches_dialed v t ticket answer)

/-- A connect that begins dials, whatever it is aimed at; without a server to go back to it only
gives the connection back. -/
theorem reaches_beginConnect (w : Client) (t : TaskId) (ticket : Nat) (target : Target) :
    Reaches t Component.lifecycle.shares w none (w.connectDeals t target)
      (w.beginConnect t ticket target).1
      ((w.beginConnect t ticket target).2.pending? Lifecycle.pending?) := by
  have hsaid : ∀ n, Work t Component.lifecycle.shares w none [] (w.say n) none :=
    fun n => .effect (.say n) (.refl _ none)
  cases target with
  | server id => exact (reaches_dial _ t ticket _ _).behind (hsaid (.connecting id))
  | best => exact (reaches_dial _ t ticket _ _).behind (hsaid .quickConnecting)
  | last =>
    unfold connectDeals beginConnect
    cases w.session.server with
    | some server => exact (reaches_dial _ t ticket _ _).behind (hsaid (.connecting server.id))
    | none =>
      exact (Work.effect (.say .nothingToReconnect)
        (.effect (.release line_mem_lifecycle) (.refl _ none))).reaches

/-- A connect takes the connection, or gets in line for it. -/
theorem reaches_requestConnect (w : Client) (t : TaskId) (target : Target) (ticket : Nat) :
    Reaches t Component.lifecycle.shares w none (w.askDeals t target ticket)
      (w.requestConnect t target ticket).1
      ((w.requestConnect t target ticket).2.pending? Lifecycle.pending?) := by
  unfold askDeals requestConnect
  split
  · exact (Work.effect (.say .connectDropped) (.refl _ none)).reaches
  · dsimp only
    split
    · exact (reaches_beginConnect _ t ticket target).behind
        (.effect (.request line_mem_lifecycle) (.refl _ none))
    · exact (Work.effect (.request line_mem_lifecycle)
        (.effect (.enlist line_mem_lifecycle) (.refl _ none))).reaches

/-- The answer of the backend settles the session, and the connection is given back. -/
theorem work_hungUp (w : Client) (t : TaskId) (a : Except BackendError Unit) :
    Work t Component.lifecycle.shares w none [] (w.hungUp a).1 none := by
  cases a with
  | ok _ =>
    refine .effect (.edit connection_mem_lifecycle ?_)
      (.effect (.say .disconnected)
        (.effect (.release line_mem_lifecycle) (.refl _ none)))
    exact fun _ => ⟨rfl, rfl, rfl⟩
  | error e =>
    refine .effect (.say (.disconnectFailed e))
      (.effect (.edit connection_mem_lifecycle ?_)
        (.effect (.release line_mem_lifecycle) (.refl _ none)))
    exact fun _ => ⟨rfl, rfl, rfl⟩

theorem pending?_hungUp (w : Client) (a : Except BackendError Unit) :
    (w.hungUp a).2.pending? Lifecycle.pending? = none := by
  cases a <;> rfl

/-- A disconnect leaves the old connection behind and calls the backend. -/
theorem reaches_beginDisconnect (w : Client) (t : TaskId) :
    Reaches t Component.lifecycle.shares w none (w.hangUpDeals t) (w.beginDisconnect t).1
      ((w.beginDisconnect t).2.pending? Lifecycle.pending?) := by
  unfold hangUpDeals beginDisconnect
  dsimp only
  -- the client when the old connection is left behind
  generalize hu : ((w.say _).update _).stopPolling.lowerTunnel = u
  have hleft : Work t Component.lifecycle.shares w none [] u none := by
    rw [← hu]
    refine .effect (.say _)
      (.effect (.edit connection_mem_lifecycle ?_)
        (.effect (.stop line_mem_lifecycle)
          (.effect (.lower connection_mem_lifecycle) (.refl _ none))))
    exact fun _ => ⟨rfl, rfl, rfl⟩
  refine Reaches.behind ?_ hleft
  have h : Reaches t Component.lifecycle.shares u none _ _ _ := reaches_startCall u t .disconnect
  rcases hr : u.startCall t .disconnect with ⟨v, call | answer⟩ <;> rw [hr] at h
  · exact h
  · rw [pending?_hungUp]
    exact Reaches.before h (work_hungUp v t answer)

/-- A disconnect gets in line first, and begins if it is the first there. -/
theorem reaches_queueDisconnect (w : Client) (t : TaskId) :
    Reaches t Component.lifecycle.shares w none (w.leaveDeals t) (w.queueDisconnect t).1
      ((w.queueDisconnect t).2.pending? Lifecycle.pending?) := by
  unfold leaveDeals queueDisconnect
  dsimp only
  split
  · exact (reaches_beginDisconnect _ t).behind
      (.effect (.request line_mem_lifecycle) (.refl _ none))
  · exact (Work.effect (.request line_mem_lifecycle) (.refl _ none)).reaches

/-- A request goes on; a connect with a void ticket gives up its call. One case for each stage, and
in it one for whether the call is over. -/
theorem reaches_resumeLifecycle (w : Client) (t : TaskId) (l : Lifecycle) :
    Reaches t Component.lifecycle.shares w l.pending? (w.lifecycleDeals t l)
      (w.resumeLifecycle t l).1
      ((w.resumeLifecycle t l).2.pending? Lifecycle.pending?) := by
  unfold lifecycleDeals resumeLifecycle
  cases l with
  | queued target ticket =>
    -- in line: superseded, at its turn, or still behind others
    dsimp only
    split
    · exact (Work.effect (.delist line_mem_lifecycle)
        (.effect (.say .connectDropped)
          (.effect (.withdraw line_mem_lifecycle) (.refl _ none)))).reaches
    · split
      · exact (reaches_beginConnect _ t ticket target).behind
          (.effect (.delist line_mem_lifecycle) (.refl _ none))
      · exact .refl w
  | dialing ticket call =>
    -- at the backend: superseded, or answered, or still waiting
    dsimp only
    split
    · exact ((work_dropDeals w t call).reaches).before
        (.effect (.delist line_mem_lifecycle) (.effect .disarm (.effect (.say .connectAborted)
          (.effect (.release line_mem_lifecycle) (.refl _ none)))))
    · have h : Reaches t Component.lifecycle.shares w _ _ _ _ := reaches_resumeCall w t call
      rcases hr : w.resumeCall t call with ⟨v, call' | answer⟩ <;> rw [hr] at h
      · exact h.append_nil
      · exact h.trans
          ((reaches_dialed _ t ticket answer).behind
            (.effect (.delist line_mem_lifecycle) (.refl _ none)))
  | sampling ticket server call =>
    -- at its first look, likewise
    dsimp only
    split
    · exact ((work_dropDeals w t call).reaches).before
        (.effect (.delist line_mem_lifecycle) (.effect .disarm
          (.effect (.release line_mem_lifecycle) (.refl _ none))))
    · have h := (reaches_resumeStats w t call).mono telemetry_subset_lifecycle
      rcases hr : w.resumeStats t call with ⟨v, call' | kept⟩ <;> rw [hr] at h
      · exact h
      · exact Reaches.before h (.effect (.delist line_mem_lifecycle) (work_sampled _ t server))
  | leaving =>
    -- a disconnect in line, which nobody supersedes
    dsimp only
    split
    · exact reaches_beginDisconnect w t
    · exact .refl w
  | hangingUp call =>
    dsimp only
    have h : Reaches t Component.lifecycle.shares w _ _ _ _ := reaches_resumeCall w t call
    rcases hr : w.resumeCall t call with ⟨v, call' | answer⟩ <;> rw [hr] at h
    · exact h
    · rw [pending?_hungUp]
      exact Reaches.before h (work_hungUp v t answer)

/-! ## Changes of the settings -/

/-- The answer of the backend is written to the settings, which are given back. -/
theorem work_saved (w : Client) (t : TaskId) (merged : Settings) (a : Except BackendError Unit) :
    Work t [.settings] w none [] (w.saved merged a).1 none := by
  cases a with
  | ok _ =>
    refine .effect (.edit (.head _) ?_) (.effect (.turn _ (.head _)) (.effect (.say _)
      (.effect .releaseWrites (.refl _ none))))
    exact fun _ => rfl
  | error e => exact .effect .releaseWrites (.refl _ none)

/-- A flag is written as the backend says, and the kill switch is turned along with its own. -/
theorem work_toggled (w : Client) (t : TaskId) (flag : Flag) (requested : Bool)
    (a : Except BackendError Bool) :
    Work t [.settings] w none [] (w.toggled flag requested a).1 none := by
  cases a with
  | ok value =>
    have hedit : Share.settings.Holds fun s =>
        { s with settings := s.settings.setFlag value flag } := fun _ => rfl
    -- a value other than the one asked for is reported
    have hsaid : Work t [.settings] w none []
        (if value = requested then w else w.say (.flagKept flag value)) none := by
      split
      · exact .refl w none
      · exact .effect (.say _) (.refl _ none)
    -- only the flag of the kill switch turns it
    have hturn : ∀ v : Client, Work t [.settings] v none []
        (if flag = .killSwitch then v.setKillSwitch value else v) none := by
      intro v
      split
      · exact .effect (.turn value (.head _)) (.refl _ none)
      · exact .refl v none
    exact hsaid.trans (.effect (.edit (.head _) hedit) ((hturn _).trans
      (.effect (.say (.flagSet flag value)) (.effect .releaseWrites (.refl _ none)))))
  | error e => exact .effect .releaseWrites (.refl _ none)

theorem pending?_saved (w : Client) (merged : Settings) (a : Except BackendError Unit) :
    (w.saved merged a).2.pending? Writing.pending? = none := by
  cases a <;> rfl

theorem pending?_toggled (w : Client) (flag : Flag) (requested : Bool)
    (a : Except BackendError Bool) :
    (w.toggled flag requested a).2.pending? Writing.pending? = none := by
  cases a <;> rfl

/-- A change is sent to the backend: settings as a patch makes them are saved whole, and a flag has
a call of its own. -/
theorem reaches_beginWrite (w : Client) (t : TaskId) (write : Write) :
    Reaches t [.settings] w none (w.changeDeals t write) (w.beginWrite t write).1
      ((w.beginWrite t write).2.pending? Writing.pending?) := by
  unfold changeDeals beginWrite
  cases write with
  | patch p =>
    -- a patch is applied to the settings as they are, and the result is saved
    dsimp only
    have h : Reaches t [.settings] w none _ _ _ :=
      reaches_startCall w t (.save (p.apply w.session.settings))
    rcases hr : w.startCall t (.save (p.apply w.session.settings)) with ⟨v, call | answer⟩ <;>
      rw [hr] at h
    · exact h
    · rw [pending?_saved]
      exact Reaches.before h (work_saved v t _ answer)
  | toggle flag =>
    -- a flag is asked to be the opposite of what it is
    dsimp only
    have h : Reaches t [.settings] w none _ _ _ :=
      reaches_startCall w t (.toggle flag (!w.session.settings.flag flag))
    rcases hr : w.startCall t (.toggle flag (!w.session.settings.flag flag)) with
      ⟨v, call | answer⟩ <;> rw [hr] at h
    · exact h
    · rw [pending?_toggled]
      exact Reaches.before h (work_toggled v t flag _ answer)

/-- A change gets in line for the settings, and begins if it is the first there. -/
theorem reaches_requestWrite (w : Client) (t : TaskId) (write : Write) :
    Reaches t [.settings] w none (w.writeDeals t write) (w.requestWrite t write).1
      ((w.requestWrite t write).2.pending? Writing.pending?) := by
  unfold writeDeals requestWrite
  dsimp only
  split
  · exact (reaches_beginWrite _ t write).behind (.effect .requestWrites (.refl _ none))
  · exact (Work.effect .requestWrites (.refl _ none)).reaches

/-- A change goes on: in line, or with the call that it waits for, whose answer is taken in and
hands the settings on. -/
theorem reaches_resumeWrite (w : Client) (t : TaskId) (p : Writing) :
    Reaches t [.settings] w p.pending? (w.writingDeals t p) (w.resumeWrite t p).1
      ((w.resumeWrite t p).2.pending? Writing.pending?) := by
  unfold writingDeals resumeWrite
  cases p with
  | queued write =>
    dsimp only
    split
    · exact reaches_beginWrite w t write
    · exact .refl w
  | saving merged call =>
    dsimp only
    have h : Reaches t [.settings] w _ _ _ _ := reaches_resumeCall w t call
    rcases hr : w.resumeCall t call with ⟨v, call' | answer⟩ <;> rw [hr] at h
    · exact h
    · rw [pending?_saved]
      exact Reaches.before h (work_saved v t merged answer)
  | toggling flag requested call =>
    dsimp only
    have h : Reaches t [.settings] w _ _ _ _ := reaches_resumeCall w t call
    rcases hr : w.resumeCall t call with ⟨v, call' | answer⟩ <;> rw [hr] at h
    · exact h
    · rw [pending?_toggled]
      exact Reaches.before h (work_toggled v t flag requested answer)

/-- Who has the settings calls the backend. -/
theorem beginWrite_ne_queued (w : Client) (t : TaskId) (x y : Write) :
    (w.beginWrite t x).2 ≠ .waiting (.queued y) := by
  cases x with
  | patch p =>
    unfold beginWrite
    dsimp only
    rcases w.startCall t (.save (p.apply w.session.settings)) with ⟨v, call | _ | _⟩ <;> nofun
  | toggle flag =>
    unfold beginWrite
    dsimp only
    rcases w.startCall t (.toggle flag (!w.session.settings.flag flag)) with ⟨v, call | _ | _⟩ <;>
      nofun

/-- A change that has to get in line does not have the settings. -/
theorem holder_of_requestWrite {x y : Write} (h : (w.requestWrite t x).2 = .waiting (.queued y)) :
    (w.requestWrite t x).1.writes.holder ≠ some t := by
  unfold requestWrite at h ⊢
  dsimp only at h ⊢
  split at h
  · exact absurd h (beginWrite_ne_queued _ t x y)
  · rename_i hn
    rw [if_neg hn]
    exact fun hh => hn (beq_iff_eq.2 hh)

/-- A change of the settings that stays in line does not have the lock: whoever has it goes on to
the call at once. -/
theorem holder_of_resumeWrite {p : Writing} {y : Write}
    (h : (w.resumeWrite t p).2 = .waiting (.queued y)) :
    (w.resumeWrite t p).1.writes.holder ≠ some t := by
  unfold resumeWrite at h ⊢
  cases p with
  | queued x =>
    dsimp only at h ⊢
    split at h
    · exact absurd h (beginWrite_ne_queued _ t x y)
    · rename_i hn
      rw [if_neg hn]
      exact fun hh => hn (beq_iff_eq.2 hh)
  | saving merged call =>
    dsimp only at h
    rcases hr : w.resumeCall t call with ⟨v, call' | _ | _⟩ <;> rw [hr] at h <;> cases h
  | toggling flag requested call =>
    dsimp only at h
    rcases hr : w.resumeCall t call with ⟨v, call' | _ | _⟩ <;> rw [hr] at h <;> cases h

/-! ## Commands -/

theorem Reaches.asLifecycle {r : Client × Progress Lifecycle Settled}
    (h : Reaches t shares w c δ r.1 (r.2.pending? Lifecycle.pending?)) :
    Reaches t shares w c δ (asLifecycle r).1 ((asLifecycle r).2.pending? Point.pending?) := by
  rcases r with ⟨v, l | s⟩ <;> exact h

theorem Reaches.asStart {r : Client × Progress Lifecycle Settled}
    (h : Reaches t shares w c δ r.1 (r.2.pending? Lifecycle.pending?)) :
    Reaches t shares w c δ (asStart r).1 ((asStart r).2.pending? Point.pending?) := by
  rcases r with ⟨v, l | s⟩ <;> exact h

theorem Reaches.asWrite {r : Client × Progress Writing Reply}
    (h : Reaches t shares w c δ r.1 (r.2.pending? Writing.pending?)) :
    Reaches t shares w c δ (asWrite r).1 ((asWrite r).2.pending? Point.pending?) := by
  rcases r with ⟨v, p | reply⟩ <;> exact h

theorem Reaches.asSample {r : Client × Progress (Call Stats) Bool}
    (h : Reaches t shares w c δ r.1 (r.2.pending? Call.pending?)) :
    Reaches t shares w c δ (asSample r).1 ((asSample r).2.pending? Point.pending?) := by
  rcases r with ⟨v, call | kept⟩ <;> exact h

theorem Reaches.asVersion {r : Client × Progress (Call String) (Except BackendError String)}
    (h : Reaches t shares w c δ r.1 (r.2.pending? Call.pending?)) :
    Reaches t shares w c δ (asVersion r).1 ((asVersion r).2.pending? Point.pending?) := by
  rcases r with ⟨v, call | e | version⟩
  · exact h
  · exact Reaches.before h (.effect (.say (.versionFailed e)) (.refl _ none))
  · exact h

/-- A list of servers belongs to the catalog. -/
theorem work_commitCatalog (w : Client) (t : TaskId) (a : Except BackendError (List Server)) :
    Work t [.catalog] w none [] (w.commitCatalog a).1 none := by
  cases a with
  | ok servers =>
    refine .effect (.edit (.head _) ?_) (.effect (.say _) (.refl _ none))
    exact fun _ => rfl
  | error e => exact .effect (.say _) (.refl _ none)

/-- A favorite is toggled in the catalog's share, without the backend. -/
theorem work_toggleFavorite (w : Client) (t : TaskId) (id : String) :
    Work t [.catalog] w none [] (w.toggleFavorite id).1 none := by
  refine .effect (.edit (.head _) ?_) (.effect (.say _) (.refl _ none))
  exact fun _ => rfl

/-- What a start asks for when the catalog is there belongs to the connection. -/
theorem reaches_continueStart (w : Client) (t : TaskId) :
    Reaches t Component.lifecycle.shares w none
      (if w.session.settings.autoConnect then
        (w.say .autoConnecting).askDeals t .best (w.say .autoConnecting).epoch else [])
      (w.continueStart t).1 ((w.continueStart t).2.pending? Point.pending?) := by
  unfold continueStart
  split
  · exact ((reaches_requestConnect _ t .best _).behind (.effect (.say .autoConnecting)
      (.refl _ none))).asStart
  · exact .refl w

/-- A fetch of the servers that ends there. -/
theorem Reaches.asLoad
    {r : Client × Progress (Call (List Server)) (Except BackendError (List Server))}
    (h : Reaches t [.catalog] w c δ r.1 (r.2.pending? Call.pending?)) :
    Reaches t [.catalog] w c δ (asLoad t false r).1
      ((asLoad t false r).2.pending? Point.pending?) := by
  rcases r with ⟨v, call | answer⟩
  · exact h
  · exact Reaches.before h (work_commitCatalog v t answer)

/-- A start goes on when the catalog is there. -/
theorem Reaches.asLoadStart
    {r : Client × Progress (Call (List Server)) (Except BackendError (List Server))}
    (h : Reaches t [.catalog] w c δ r.1 (r.2.pending? Call.pending?)) :
    Reaches t (.catalog :: Component.lifecycle.shares) w c (δ ++ startedDeals t r)
      (Client.asLoad t true r).1
      ((Client.asLoad t true r).2.pending? Point.pending?) := by
  have hcatalog : [Share.catalog] ⊆ .catalog :: Component.lifecycle.shares := by decide
  rcases r with ⟨v, call | answer⟩
  · exact (h.mono hcatalog).append_nil
  · exact (Reaches.before (h.mono hcatalog) ((work_commitCatalog v t answer).mono hcatalog)).trans
      ((reaches_continueStart _ t).mono (by decide))

/-- The first run of a command, one case for each kind. -/
theorem reaches_begin (w : Client) (t : TaskId) (command : Command) :
    Reaches t (Point.fresh command).shares w none (w.pointDeals t (.fresh command))
      (w.begin t command).1 ((w.begin t command).2.pending? Point.pending?) := by
  cases command with
  | connect | quickConnect | reconnect => exact (reaches_requestConnect w t _ _).asLifecycle
  | disconnect =>
    -- the connects before it are cancelled first
    exact ((reaches_queueDisconnect _ t).behind (.effect (.cancel line_mem_lifecycle)
      (.refl _ none))).asLifecycle
  | start => exact (reaches_startCall w t .servers).asLoadStart
  | fetchServers => exact (reaches_startCall w t .servers).asLoad
  | write x => exact (reaches_requestWrite w t x).asWrite
  | fetchStats => exact (reaches_fetchStats w t).asSample
  | version => exact (reaches_startCall w t .version).asVersion
  | toggleFavorite id => exact (work_toggleFavorite w t id).reaches
  | isFavorite | find | favorites | recents | catalog | settings | status | snapshot | reject =>
    exact .refl w

/-- Any run of a command, from the call that it waited for to the one that it waits for then. -/
theorem reaches_runPoint (w : Client) (t : TaskId) (p : Point) :
    Reaches t p.shares w p.pending? (w.pointDeals t p) (w.runPoint t p).1
      ((w.runPoint t p).2.pending? Point.pending?) := by
  cases p with
  | fresh command => exact reaches_begin w t command
  | lifecycle l => exact (reaches_resumeLifecycle w t l).asLifecycle
  | starting l => exact (reaches_resumeLifecycle w t l).asStart
  | loading starts call =>
    cases starts with
    | true => exact (reaches_resumeCall w t call).asLoadStart
    | false => exact (reaches_resumeCall w t call).asLoad
  | writing p => exact (reaches_resumeWrite w t p).asWrite
  | sampling call => exact (reaches_resumeStats w t call).asSample
  | asking call => exact (reaches_resumeCall w t call).asVersion

/-- A caller that gives up lets go of everything, and writes nothing. The call that is under way is
dropped first, and is the only deal. -/
theorem work_dropPoint (w : Client) (t : TaskId) (p : Point) :
    Work t [.line] w p.pending? (p.pending?.map fun c => Deal.dropped c.op).toList (w.dropPoint t p)
      none := by
  -- a call that is under way is dropped before anything is let go of
  have hdrop : ∀ {v : Client}, Work t [.line] w none [] v none →
      Work t [.line] w p.pending? (p.pending?.map fun c => Deal.dropped c.op).toList v none := by
    intro v h
    cases p.pending? with
    | none => exact h
    | some c => exact .dropped h
  refine hdrop ?_
  have hlifecycle : ∀ l, Work t [.line] w none [] (w.dropLifecycle t l) none := by
    intro l
    cases l with
    | queued => exact .effect (.delist (.head _)) (.effect (.withdraw (.head _)) (.refl _ none))
    | dialing | sampling =>
      exact .effect (.delist (.head _))
        (.effect .disarm (.effect (.release (.head _)) (.refl _ none)))
    | leaving => exact .effect (.withdraw (.head _)) (.refl _ none)
    | hangingUp => exact .effect .disarm (.effect (.release (.head _)) (.refl _ none))
  cases p with
  | fresh => exact .refl w none
  | lifecycle l | starting l => exact hlifecycle l
  | writing p =>
    cases p with
    | queued => exact .effect .withdrawWrites (.refl _ none)
    | saving | toggling => exact .effect .disarm (.effect .releaseWrites (.refl _ none))
  | loading | sampling | asking => exact .effect .disarm (.refl _ none)

/-! ## Where a command stops -/

/-- A command that waits has begun, and if it is in line for the settings it does not hold them. -/
structure Stops (t : TaskId) (r : Client × Progress Point Reply) : Prop where
  begun : ∀ command, r.2 ≠ .waiting (.fresh command)
  line : ∀ x, r.2 = .waiting (.writing (.queued x)) → r.1.writes.holder ≠ some t

theorem stops_done (t : TaskId) (v : Client) (reply : Reply) : Stops t (v, .done reply) where
  begun _ h := by cases h
  line _ h := by cases h

/-- One that is under way has begun, and is in no line for the settings. -/
theorem stops_waiting (t : TaskId) (v : Client) {p : Point} (hp : p.IsUnderWay) :
    Stops t (v, .waiting p) where
  begun _ h := by
    cases h
    cases hp
  line _ h := by
    cases h
    cases hp

theorem stops_asLifecycle (r : Client × Progress Lifecycle Settled) : Stops t (asLifecycle r) := by
  rcases r with ⟨v, l | s⟩
  · exact stops_waiting t v (p := .lifecycle l) trivial
  · exact stops_done t v _

theorem stops_asStart (r : Client × Progress Lifecycle Settled) : Stops t (asStart r) := by
  rcases r with ⟨v, l | s⟩
  · exact stops_waiting t v (p := .starting l) trivial
  · exact stops_done t v _

/-- Who is in line for the settings must not hold them. -/
theorem stops_asWrite {r : Client × Progress Writing Reply}
    (h : ∀ x, r.2 = .waiting (.queued x) → r.1.writes.holder ≠ some t) : Stops t (asWrite r) := by
  rcases r with ⟨v, p | reply⟩
  · refine ⟨fun _ hc => ?_, fun x hx => ?_⟩
    · cases hc
    · cases hx
      exact h x rfl
  · exact stops_done t v reply

theorem stops_asSample (r : Client × Progress (Call Stats) Bool) : Stops t (asSample r) := by
  rcases r with ⟨v, call | kept⟩
  · exact stops_waiting t v (p := .sampling call) trivial
  · exact stops_done t v _

theorem stops_asVersion (r : Client × Progress (Call String) (Except BackendError String)) :
    Stops t (asVersion r) := by
  rcases r with ⟨v, call | e | version⟩
  · exact stops_waiting t v (p := .asking call) trivial
  · exact stops_done t _ _
  · exact stops_done t v _

theorem stops_asLoad (starts : Bool)
    (r : Client × Progress (Call (List Server)) (Except BackendError (List Server))) :
    Stops t (asLoad t starts r) := by
  rcases r with ⟨v, call | answer⟩
  · exact stops_waiting t v (p := .loading starts call) trivial
  · unfold asLoad
    dsimp only
    split
    · unfold continueStart
      split
      · exact stops_asStart _
      · exact stops_done t _ _
    · exact stops_done t _ _

/-- Wherever a run of a command ends, it has begun; and in line for the settings it does not hold
them. -/
theorem stops_runPoint (w : Client) (t : TaskId) (p : Point) : Stops t (w.runPoint t p) := by
  cases p with
  | fresh command =>
    cases command with
    | connect | quickConnect | reconnect | disconnect => exact stops_asLifecycle _
    | start | fetchServers => exact stops_asLoad _ _
    | write x => exact stops_asWrite fun _ => holder_of_requestWrite
    | fetchStats => exact stops_asSample _
    | version => exact stops_asVersion _
    | _ => exact stops_done t _ _
  | lifecycle l => exact stops_asLifecycle _
  | starting l => exact stops_asStart _
  | loading starts call => exact stops_asLoad _ _
  | writing p => exact stops_asWrite fun _ => holder_of_resumeWrite
  | sampling call => exact stops_asSample _
  | asking call => exact stops_asVersion _

/-! ## Turns -/

/-- A turn is over: work was done, and where the task stands is written.  It is a poller then only
if it was one. -/
structure TurnEnds (t : TaskId) (shares : List Share) (polls : Prop) (w : Client)
    (c : Option OpenCall) (δ : List Deal) (w' : Client) : Prop where
  turn : ∃ v k, Reaches t shares w c δ v k.pending? ∧ w' = v.setTask t k ∧
    (∀ command, k ≠ .command (.fresh command)) ∧
    (∀ x, k = .command (.writing (.queued x)) → v.writes.holder ≠ some t) ∧
    ∀ p, k = .poller p → polls

section Turns

variable {polls : Prop} {c₁ : Option OpenCall} {ε : List Deal}

/-- The task has nothing to do, or has ended. -/
theorem Reaches.idle (h : Reaches t shares w c δ v none) {k : Task} (hk : k.IsIdle)
    (hp : ∀ p, k = .poller p → polls) : TurnEnds t shares polls w c δ (v.setTask t k) := by
  refine ⟨v, k, ?_, rfl, ?_, ?_, hp⟩
  · rw [hk.pending?]
    exact h
  · rintro command rfl
    cases hk
  · rintro x rfl
    cases hk

theorem TurnEnds.behind (h : TurnEnds t shares polls w₁ c₁ ε w')
    (hr : Reaches t shares w c δ w₁ c₁) : TurnEnds t shares polls w c (δ ++ ε) w' := by
  obtain ⟨v, k, hv, hw, hk⟩ := h.turn
  exact ⟨v, k, hr.trans hv, hw, hk⟩

/-- A turn of a command. -/
theorem turnEnds_runCommand (w : Client) (t : TaskId) (p : Point) :
    TurnEnds t p.shares False w p.pending? (w.pointDeals t p) (w.runCommand t p) := by
  have h := reaches_runPoint w t p
  have hs := stops_runPoint w t p
  unfold runCommand
  rcases hr : w.runPoint t p with ⟨v, q | reply⟩ <;> rw [hr] at h hs
  · refine ⟨v, .command q, h, rfl, fun command hc => ?_, fun x hx => ?_, nofun⟩
    · cases hc
      exact hs.begun command rfl
    · cases hx
      exact hs.line x rfl
  · exact Reaches.idle h trivial nofun

/-! ### Pollers -/

/-- A poller waits for the answer to its look. -/
theorem Reaches.looks {call : Call Stats} (h : Reaches t shares w c δ v call.pending?)
    {p : Poller} (hp : p.call = some call) :
    TurnEnds t shares True w c δ (v.setTask t (.poller p)) := by
  refine ⟨v, .poller p, ?_, rfl, fun _ hc => ?_, fun _ hx => ?_, fun _ _ => trivial⟩
  · show Reaches t shares w c δ v (p.call.bind Call.pending?)
    rw [hp]
    exact h
  · cases hc
  · cases hx

theorem work_reportLook (w : Client) (t : TaskId) (kept : Bool) :
    Work t shares w none [] (w.reportLook kept) none := by
  cases kept with
  | true => exact .effect (.say _) (.refl _ none)
  | false => exact .refl w none

theorem turnEnds_endPoller (w : Client) (t : TaskId) :
    TurnEnds t shares True w none []
      (((w.disarm t).say .pollingEnded).setTask t (.ended .finished)) :=
  (Work.effect .disarm (.effect (.say _) (.refl _ none))).reaches.idle trivial fun _ _ => trivial

theorem turnEnds_waitPoller (w : Client) (t : TaskId) (due : Nat) {p : Poller}
    (hp : p.call = none) :
    TurnEnds t shares True w none [] ((w.arm due t).setTask t (.poller p)) :=
  (Work.effect (.arm due) (.refl _ none)).reaches.idle hp fun _ _ => trivial

/-- The looks that are due; the last of them may be under way at the end. The induction is on the
number of looks, and each but the last is over at once. -/
theorem turnEnds_pollerTurn (t : TaskId) (looks : Nat) {p : Poller} (hp : p.call = none)
    (w : Client) :
    TurnEnds t Component.telemetry.shares True w none (looksDeals t looks p w)
      (pollerTurn t looks p w) := by
  -- the induction is on the looks that the turn may take
  induction looks generalizing p w with
  | zero =>
    unfold looksDeals pollerTurn
    dsimp only
    split
    · exact turnEnds_endPoller w t
    · exact turnEnds_waitPoller w t p.due hp
  | succ looks ih =>
    unfold looksDeals pollerTurn
    dsimp only
    split
    · exact turnEnds_endPoller w t
    split
    · exact turnEnds_waitPoller w t p.due hp
    · -- a look is due
      have h := reaches_fetchStats w t
      rcases hr : w.fetchStats t with ⟨v, call | kept⟩ <;> rw [hr] at h
      · exact Reaches.looks h.append_nil rfl
      · exact (ih rfl _).behind (Reaches.before h (work_reportLook v t kept))

/-- A poller that was told to stop gives up its look. -/
theorem turnEnds_runPoller (w : Client) (t : TaskId) (p : Poller) :
    TurnEnds t Component.telemetry.shares True w (Task.poller p).resumes? (w.pollerDeals t p)
      (w.runPoller t p) := by
  unfold pollerDeals runPoller Task.resumes?
  dsimp only
  split
  · exact (Reaches.refl w).idle trivial fun _ _ => trivial
  split
  · cases p.call with
    | none => exact turnEnds_endPoller w t
    | some call =>
      have hend : TurnEnds t Component.telemetry.shares True w none [] _ := turnEnds_endPoller w t
      have h := hend.behind (work_dropDeals w t call).reaches
      rwa [List.append_nil] at h
  · cases hcall : p.call with
    | none => exact turnEnds_pollerTurn t _ hcall w
    | some call =>
      have h := reaches_resumeStats w t call
      dsimp only
      rcases hr : w.resumeStats t call with ⟨v, call' | kept⟩ <;> rw [hr] at h
      · exact Reaches.looks h.append_nil rfl
      · exact (turnEnds_pollerTurn t _ rfl _).behind (Reaches.before h (work_reportLook v t kept))

/-! ### Bridges -/

theorem work_wakeWorker (w : Client) (t : TaskId) (bridge : Bridge) :
    Work t shares w none [] (w.wakeWorker bridge) none := by
  unfold wakeWorker
  split
  · exact .effect (.wake _) (.refl _ none)
  · exact .refl w none

theorem work_handOver (w : Client) (t : TaskId) (b : BridgeId) (bridge : Bridge) (job : Job) :
    Work t Component.bridge.shares w none [] (w.handOver b bridge job) none :=
  .effect (.bridge bridges_mem_bridge b _) (work_wakeWorker _ t bridge)

/-- A trigger that is taken writes nothing of the session. -/
theorem work_receive (w : Client) (t : TaskId) (b : BridgeId) (bridge : Bridge) (e : Trigger) :
    Work t Component.bridge.shares w none [] (w.receive b bridge e) none := by
  cases e with
  | navigate path =>
    unfold receive
    dsimp only
    split
    · exact .effect (.say _) (.effect (.bridge bridges_mem_bridge b _) (.refl _ none))
    · exact .effect (.say _) (.effect (.say _) (.refl _ none))
  | quickConnect | connect id => exact .effect (.say _) (work_handOver _ t b bridge _)
  | disconnect =>
    exact .effect (.say _) (.effect (.cancel line_mem_bridge) (work_handOver _ t b bridge _))

theorem work_foldl_receive (w : Client) (t : TaskId) (b : BridgeId) (bridge : Bridge)
    (es : List Trigger) :
    Work t Component.bridge.shares w none []
      (es.foldl (fun w e => w.receive b bridge e) w) none := by
  induction es generalizing w with
  | nil => exact .refl w none
  | cons e es ih => exact (work_receive w t b bridge e).trans (ih _)

/-- A receiver takes what waits, and calls nobody. To end, it closes its channel and wakes the
worker. -/
theorem turnEnds_runReceiver (w : Client) (t : TaskId) (b : BridgeId)
    (ht : w.core.entry t = some (.receiver b)) :
    TurnEnds t Component.bridge.shares False w none [] (w.runReceiver t b) := by
  -- to end, it closes the channel and wakes the worker
  have hend : ∀ (v : Client) (bridge : Bridge), Work t Component.bridge.shares w none [] v none →
      TurnEnds t Component.bridge.shares False w none [] (v.endReceiver t b bridge) := by
    intro v bridge hv
    exact Reaches.idle (hv.trans (.effect (.bridge bridges_mem_bridge b _)
      (work_wakeWorker _ t bridge))).reaches trivial nofun
  unfold runReceiver
  split
  · exact (Reaches.refl w).idle trivial nofun
  · rename_i bridge _
    split
    · exact hend w bridge (.refl w none)
    · dsimp only
      have hw : Work t Component.bridge.shares w none [] _ none :=
        .effect (.bridge bridges_mem_bridge b fun r =>
        { r with triggers := { r.triggers with queue := [] } })
          (work_foldl_receive _ t b bridge bridge.triggers.queue)
      split
      · -- it stays what it is
        have h : TurnEnds t Component.bridge.shares False w none [] _ :=
          hw.reaches.idle (k := .receiver b) trivial nofun
        rwa [setTask_self (task?_of_entry ((congrFun hw.othersKept.entry t).trans ht))] at h
      · exact hend _ bridge (hw.trans (.effect (.say .triggersClosed) (.refl _ none)))

theorem work_reportJob (w : Client) (t : TaskId) (r : Request) (s : Settled) :
    Work t shares w none [] (w.reportJob r s) none := by
  unfold reportJob
  split
  · exact .refl w none
  · exact .effect (.say _) (.refl _ none)
  · exact .effect (.say _) (.refl _ none)

/-- A job begins like the command of its request, with the ticket that it was handed over with. -/
theorem reaches_beginJob (w : Client) (t : TaskId) (job : Job) :
    Reaches t Component.bridge.shares w none (w.jobDeals t job) (w.beginJob t job).1
      ((w.beginJob t job).2.pending? Lifecycle.pending?) := by
  rcases job with ⟨request, ticket⟩
  cases request with
  | quickConnect => exact (reaches_requestConnect w t .best ticket).mono lifecycle_subset_bridge
  | connect id =>
    exact (reaches_requestConnect w t (.server id) ticket).mono lifecycle_subset_bridge
  | disconnect => exact (reaches_queueDisconnect w t).mono lifecycle_subset_bridge

/-- A worker stays at a job that has to wait. -/
theorem Reaches.works {l : Lifecycle} {b : BridgeId} {job : Job}
    (h : Reaches t shares w c δ v l.pending?) :
    TurnEnds t shares False w c δ (v.setTask t (.worker b (some (job, l)))) := by
  refine ⟨v, .worker b (some (job, l)), h, rfl, fun _ hc => ?_, fun _ hx => ?_, nofun⟩
  · cases hc
  · cases hx

/-- Jobs are carried out until one waits. The turn ends with no call under way, or with that of the
job that waits. -/
theorem turnEnds_carryOut (t : TaskId) (b : BridgeId) (jobs : Nat) (w : Client) :
    TurnEnds t Component.bridge.shares False w none (jobsDeals t b jobs w)
      (carryOut t b jobs w) := by
  have hend : ∀ u : Client,
      TurnEnds t Component.bridge.shares False u none [] (u.setTask t (.ended .finished)) :=
    fun u => (Reaches.refl u).idle trivial nofun
  have hidle : ∀ (u : Client) (bridge : Bridge), TurnEnds t Component.bridge.shares False u none []
      (if bridge.hasReceiver then u.setTask t (.worker b none)
        else u.setTask t (.ended .finished)) := by
    intro u bridge
    split
    · exact (Reaches.refl u).idle trivial nofun
    · exact hend u
  induction jobs generalizing w with
  | zero =>
    unfold jobsDeals carryOut
    cases w.bridge? b with
    | none => exact hend w
    | some bridge => exact hidle w bridge
  | succ jobs ih =>
    unfold jobsDeals carryOut
    cases w.bridge? b with
    | none => exact hend w
    | some bridge =>
      dsimp only
      cases bridge.jobs with
      | nil => exact hidle w bridge
      | cons job rest =>
        dsimp only
        -- the client when the job is taken
        have h := (reaches_beginJob _ t job).behind
          (.effect (.bridge (w := w) bridges_mem_bridge b fun r =>
          { r with jobs := rest }) (.refl _ none))
        rcases hr : (w.setBridge b fun r => { r with jobs := rest }).beginJob t job
          with ⟨v, l | settled⟩ <;> rw [hr] at h
        · exact Reaches.works h.append_nil
        · exact (ih _).behind (Reaches.before h (work_reportJob v t job.request settled))

/-- A turn of a worker: the job it is at, and then those that wait. -/
theorem turnEnds_runWorker (w : Client) (t : TaskId) (b : BridgeId)
    (current : Option (Job × Lifecycle)) :
    TurnEnds t Component.bridge.shares False w (Task.worker b current).pending?
      (w.workerDeals t b current)
      (w.runWorker t b current) := by
  unfold workerDeals runWorker
  cases current with
  | none => exact turnEnds_carryOut t b _ w
  | some current =>
    obtain ⟨job, l⟩ := current
    have h := (reaches_resumeLifecycle w t l).mono lifecycle_subset_bridge
    dsimp only
    rcases hr : w.resumeLifecycle t l with ⟨v, l' | settled⟩ <;> rw [hr] at h
    · exact Reaches.works h.append_nil
    · exact (turnEnds_carryOut t b _ _).behind
        (Reaches.before h (work_reportJob v t job.request settled))

/-! ### Every turn -/

theorem TurnEnds.imp {polls' : Prop} (h : TurnEnds t shares polls w c δ w') (hp : polls → polls') :
    TurnEnds t shares polls' w c δ w' := by
  obtain ⟨v, k, hv, hw, hfresh, hline, hk⟩ := h.turn
  exact ⟨v, k, hv, hw, hfresh, hline, fun p he => hp (hk p he)⟩

/-- The turn of a task that is there. -/
theorem turnEnds_run {k : Task} (hk : w.task? t = some k) :
    TurnEnds t k.shares (∃ p, k = .poller p) w k.resumes? (w.turnDeals t) (w.run t) := by
  unfold run turnDeals
  rw [hk]
  cases k with
  | command p => exact (turnEnds_runCommand w t p).imp False.elim
  | poller p => exact (turnEnds_runPoller w t p).imp fun _ => ⟨p, rfl⟩
  | receiver b => exact (turnEnds_runReceiver w t b (entry_of_task? hk rfl)).imp False.elim
  | worker b current => exact (turnEnds_runWorker w t b current).imp False.elim
  | ended how =>
    have h : TurnEnds t [] False w none [] (w.setTask t (.ended how)) :=
      (Reaches.refl w).idle trivial nofun
    rw [setTask_self hk] at h
    exact h.imp False.elim

end Turns

end Client

end TunnelSession
