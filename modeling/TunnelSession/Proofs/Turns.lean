/-
  Every turn of a task is made of steps.

  COMMANDS.  A command that has nothing to do with the connection only makes changes that leave the
  connection alone, and then writes where it stands (`Idles`).  The others make one stretch of work.

  WORKERS.  A worker may begin several jobs in one turn.  Its entry is written at the end of the
  turn only, but the steps write it after every job; so the induction over the jobs starts from the
  core in which the worker has nothing to do (`Core.idle`).
-/
import TunnelSession.Client.Schedule
import TunnelSession.Proofs.Soundness

namespace TunnelSession

/-- The task of a command that got so far. -/
def pointTask : Progress Point Reply → Task
  | .waiting p => .command p
  | .done r => .ended (.replied r)

namespace Core

/-! ## Entries do not matter to a stretch of work -/

section Write

variable {t : TaskId} {c c' : Core} (u : TaskId) (task : Task)

theorem Look.write (h : Look c c') : Look (c.write u task) (c'.write u task) := by
  cases h with
  | counted => exact .counted
  | answered => exact .answered
  | kept stats h => exact .kept stats h

/-- A move does not depend on the entries, so it is the same move after somebody's entry is written.
This is how a worker's entry may be written after each job, though the program writes it once. -/
theorem Move.write (h : Move t c c') : Move t (c.write u task) (c'.write u task) := by
  cases h with
  | dial hs hv hh ha => exact .dial hs hv hh ha
  | connect hs hd hv ha => exact .connect hs hd hv ha
  | look hs h => exact .look hs (h.write u task)
  | hangUp hs hh => exact .hangUp hs hh

theorem Waits.write {l : Lifecycle} (h : c.Waits t l) : (c.write u task).Waits t l := by
  cases l <;> exact h

/-- A request settles whatever the entries are. -/
theorem Settle.write {s : Settled} (h : Settle t c s c') :
    Settle t (c.write u task) s (c'.write u task) := by
  cases h with
  | drop hs hv => exact .drop hs hv
  | noServer hs hv hh hn => exact .noServer hs hv hh hn
  | abort hs hv => exact .abort hs hv
  | refuse hs hd hv ha => exact .refuse hs hd hv ha
  | arrive pollers hs => exact .arrive pollers hs
  | close hs hd ha => exact .close hs hd ha
  | fail hs hd ha => exact .fail hs hd ha

theorem Travel.write {p : Progress Lifecycle Settled} (h : Travel t c p c') :
    Travel t (c.write u task) p (c'.write u task) := by
  induction h with
  | stay hs hw => exact .stay hs (hw.write u task)
  | settle h => exact .settle (h.write u task)
  | move h _ ih => exact .move (h.write u task) ih

theorem Stretch.write {start : Start} {p : Progress Lifecycle Settled}
    (h : Stretch t c start p c') : Stretch t (c.write u task) start p (c'.write u task) := by
  cases h with
  | refuse hs hv => exact .refuse hs hv
  | connect hs hv ht => exact .connect hs hv (ht.write u task)
  | disconnect hs ht => exact .disconnect hs (ht.write u task)
  | resume hs ht => exact .resume hs (ht.write u task)

end Write

@[simp] theorem write_write (c : Core) (t : TaskId) (task other : Task) :
    (c.write t task).write t other = c.write t other := by
  simp [write]

theorem write_self {c : Core} {t : TaskId} {task : Task} (h : c.entry t = some task) :
    c.write t task = c := by
  unfold write
  rw [← h, Function.update_eq_self]

/-- A worker has nothing to do. -/
def idle (c : Core) (t : TaskId) (b : BridgeId) : Core := (c.write t (.worker b none)).put t none

end Core

namespace Client

open TunnelSession.Core

variable {w : Client} {t : TaskId}

/-! ## Calls and looks leave the connection alone -/

/-- A call that is none of a connect or a disconnect leaves the connection alone, and waits for its
own answer. -/
theorem quiet_startCall {α : Type} (w : Client) (t : TaskId) (ask : Ask α)
    (hw : w.core.backend.Prompt) (ha : ask.operation.isLifecycle = false) :
    Quiet w.core (w.startCall t ask).1.core ∧
      ∀ call, (w.startCall t ask).2 = .waiting call → call.Runs ask := by
  rcases startCall_cases w t ask hw with ⟨w', h, -, hc⟩ | ⟨w', a, b, h, -, hb, hc⟩
  · -- it waits, and was only counted
    rw [h]
    refine ⟨?_, fun call hk => ?_⟩
    · show Quiet w.core w'.core
      rw [hc]
      exact .single (.called _ ha)
    · cases hk
      exact ⟨_, rfl⟩
  · -- it was counted and answered in the same turn
    rw [h]
    refine ⟨?_, fun call hk => nomatch hk⟩
    have hq : Quiet w.core _ := .single (.called _ ha)
    have hl := Aside.answered
      (c := { w.core with backend := w.core.backend.count ask.operation }) ask ha
    dsimp only at hl
    rw [hb] at hl
    show Quiet w.core w'.core
    rw [hc]
    exact hq.tail hl

/-- Going on with a call that is of no lifecycle operation leaves the connection alone, and what it
still waits for is the same call. -/
theorem quiet_resumeCall {α : Type} (w : Client) (t : TaskId) {call : Call α} {ask : Ask α}
    (hk : call.Runs ask) (ha : ask.operation.isLifecycle = false) :
    Quiet w.core (w.resumeCall t call).1.core ∧
      ∀ call', (w.resumeCall t call).2 = .waiting call' → call'.Runs ask := by
  rcases resumeCall_cases w t hk with ⟨w', h, -, hc⟩ | ⟨w', a, b, h, -, hb, hc⟩
  · rw [h]
    refine ⟨?_, fun call' hk' => ?_⟩
    · show Quiet w.core w'.core
      rw [hc]
    · cases hk'
      exact hk
  · rw [h]
    refine ⟨?_, fun call hk => nomatch hk⟩
    have hl := Aside.answered (c := w.core) ask ha
    rw [hb] at hl
    show Quiet w.core w'.core
    rw [hc]
    exact .single hl

/-- The servers that come are the catalog's; an error changes nothing. -/
theorem quiet_commitCatalog (w : Client) (a : Except BackendError (List Server)) :
    Quiet w.core (w.commitCatalog a).1.core := by
  cases a with
  | ok servers =>
    show Quiet w.core ((w.update _).say _).core
    rw [core_say, core_update]
    exact .single (.catalog servers)
  | error e => exact .refl

/-! ## Commands that have nothing to do with the connection -/

/-- A command got somewhere and left the connection alone. -/
structure Idles (c : Core) (starts : Bool) (r : Client × Progress Point Reply) : Prop where
  quiet : Quiet c r.1.core
  stage : (pointTask r.2).lifecycle? = none
  starts : ∀ p, r.2 = .waiting p → p.starts = starts
  sound : (pointTask r.2).Sound

/-- A command that replies has left the connection alone if all before it has. -/
theorem Idles.reply {c : Core} {starts : Bool} {r : Reply} (h : Quiet c w.core) :
    Idles c starts (w, .done r) :=
  ⟨h, rfl, fun _ hp => (nomatch hp), trivial⟩

/-- A command that idles ends its turn with its entry. -/
theorem Idles.steps {p : Point} {r : Client × Progress Point Reply} (h : Idles w.core p.starts r)
    (hs : w.core.Sound) (ho : w.core.entry t = some (.command p))
    (hp : (Task.command p).lifecycle? = none) :
    Steps w.core [] (r.1.setTask t (pointTask r.2)).core := by
  have hn := hs.quiet h.quiet
  have hr : r.1.core.entry t = some (.command p) := by rw [h.quiet.entry_eq, ho]
  have hseen : (pointTask r.2).seen? = some (pointTask r.2) := by
    cases r.2 <;> rfl
  rw [core_setTask_write r.1 (hn.lt_size hr) hseen (hn.apart t (by simp [hr])), h.stage,
    put_self]
  · -- first what was done, and then the turn, which ends in a wait or a reply
    refine h.quiet.steps.trans (Step.turn hr ?_ h.sound).single
    rcases r with ⟨w', p' | reply⟩
    · exact .wait hp h.stage (h.starts p' rfl)
    · exact .reply hp reply
  · -- the command was at no request, so its stage needs no writing
    show r.1.core.stage t = none
    rw [hn.agree, hr]
    exact hp

/-! ### Settings -/

/-- A change of the settings got somewhere and left the connection alone. -/
def Writes (c : Core) (r : Client × Progress Writing Reply) : Prop :=
  Quiet c r.1.core ∧ ∀ p, r.2 = .waiting p → p.Sound

/-- A change of the settings is a command that idles. -/
theorem Writes.idles {c : Core} {r : Client × Progress Writing Reply} (h : Writes c r) :
    Idles c false (asWrite r) := by
  rcases r with ⟨w, p | reply⟩
  · refine ⟨h.1, rfl, ?_, h.2 p rfl⟩
    intro p' hp
    cases hp
    rfl
  · exact .reply h.1

theorem quiet_releaseWrites {c : Core} (h : Quiet c w.core) : Quiet c w.releaseWrites.core := by
  rw [core_releaseWrites]
  exact h.tail (.writes _)

theorem writes_failWrite {c : Core} (e : BackendError) (h : Quiet c w.core) :
    Writes c (w.failWrite e) :=
  ⟨quiet_releaseWrites h, fun _ hp => nomatch hp⟩

/-- What was saved becomes the settings; an error leaves them as they were. -/
theorem writes_saved {c : Core} (merged : Settings) (a : Except BackendError Unit)
    (h : Quiet c w.core) : Writes c (w.saved merged a) := by
  cases a with
  | error e => exact writes_failWrite e h
  | ok _ =>
    refine ⟨quiet_releaseWrites ?_, fun _ hp => nomatch hp⟩
    rw [core_say, core_setKillSwitch, core_update]
    exact h.tail (.settings merged)

/-- A flag that the backend has set is set in the settings too, and the kill switch is turned with
it. -/
theorem writes_toggled {c : Core} (flag : Flag) (requested : Bool) (a : Except BackendError Bool)
    (h : Quiet c w.core) : Writes c (w.toggled flag requested a) := by
  cases a with
  | error e => exact writes_failWrite e h
  | ok value =>
    -- what is reported about the value does not matter
    have hc : (if value = requested then w else w.say (.flagKept flag value)).core = w.core := by
      split <;> rfl
    cases flag with
    | killSwitch =>
      refine ⟨quiet_releaseWrites ?_, fun _ hp => nomatch hp⟩
      rw [core_say, if_pos rfl, core_setKillSwitch, core_update, hc]
      exact h.tail (.settings (w.core.session.settings.setFlag value .killSwitch))
    | autoConnect =>
      refine ⟨quiet_releaseWrites ?_, fun _ hp => nomatch hp⟩
      rw [core_say, if_neg (by decide), core_update, hc]
      exact h.tail (.autoConnect value)

/-- A change that has the settings calls the backend, with all settings for a patch and with one
flag for a toggle. -/
theorem writes_beginWrite {c : Core} (t : TaskId) (write : Write) (h : Quiet c w.core)
    (hw : w.core.backend.Prompt) : Writes c (w.beginWrite t write) := by
  cases write with
  | patch p =>
    have hs := quiet_startCall w t (.save (p.apply w.session.settings)) hw rfl
    unfold beginWrite
    dsimp only
    rcases hr : w.startCall t (.save (p.apply w.session.settings)) with ⟨w', call | a⟩
    · -- the call waits
      rw [hr] at hs
      refine ⟨h.trans hs.1, fun p' hp => ?_⟩
      cases hp
      exact hs.2 call rfl
    · -- without latency the answer is there at once
      rw [hr] at hs
      exact writes_saved _ a (h.trans hs.1)
  | toggle flag =>
    have ha : (Ask.toggle flag !w.session.settings.flag flag).operation.isLifecycle = false := by
      cases flag <;> rfl
    have hs := quiet_startCall w t _ hw ha
    unfold beginWrite
    dsimp only
    rcases hr : w.startCall t (.toggle flag !w.session.settings.flag flag) with ⟨w', call | a⟩
    · rw [hr] at hs
      refine ⟨h.trans hs.1, fun p' hp => ?_⟩
      cases hp
      exact hs.2 call rfl
    · rw [hr] at hs
      exact writes_toggled flag _ a (h.trans hs.1)

/-- A change begins if nobody has the settings, and otherwise waits in line. -/
theorem writes_requestWrite (w : Client) (t : TaskId) (write : Write)
    (hw : w.core.backend.Prompt) : Writes w.core (w.requestWrite t write) := by
  have hq : Quiet w.core { w.core with writes := w.core.writes.request t } := .single (.writes _)
  unfold requestWrite
  dsimp only
  split
  · exact writes_beginWrite (w := { w with writes := w.writes.request t }) t write hq hw
  · refine ⟨hq, fun p hp => ?_⟩
    cases hp
    exact trivial

/-- A change goes on from where it stands: in line, saving, or turning a flag. None of that is for
the connection. -/
theorem writes_resumeWrite (w : Client) (t : TaskId) {p : Writing} (hp : p.Sound)
    (hw : w.core.backend.Prompt) : Writes w.core (w.resumeWrite t p) := by
  cases p with
  | queued write =>
    unfold resumeWrite
    dsimp only
    split
    · -- the settings are free now
      exact writes_beginWrite t write .refl hw
    · -- it was woken for nothing, and waits on
      refine ⟨.refl, fun p hp => ?_⟩
      cases hp
      exact trivial
  | saving merged call =>
    -- a call that saves: still under way, or answered
    have hs := quiet_resumeCall w t hp rfl
    unfold resumeWrite
    dsimp only
    rcases hr : w.resumeCall t call with ⟨w', call' | a⟩
    · rw [hr] at hs
      refine ⟨hs.1, fun p' hp => ?_⟩
      cases hp
      exact hs.2 call' rfl
    · rw [hr] at hs
      exact writes_saved _ a hs.1
  | toggling flag requested call =>
    -- a flag has a call of its own, and neither of the two flags is the connection's
    have ha : (Ask.toggle flag requested).operation.isLifecycle = false := by cases flag <;> rfl
    have hs := quiet_resumeCall w t hp ha
    unfold resumeWrite
    dsimp only
    rcases hr : w.resumeCall t call with ⟨w', call' | a⟩
    · rw [hr] at hs
      refine ⟨hs.1, fun p' hp => ?_⟩
      cases hp
      exact hs.2 call' rfl
    · rw [hr] at hs
      exact writes_toggled flag _ a hs.1

/-! ## Commands on the connection -/

/-- The core when a stretch of work is written down. -/
theorem core_setTask_stretch {c : Core} {r : Client × Progress Lifecycle Settled}
    {start : Start} {old task : Task} (hc : c.Sound) (ho : c.entry t = some old)
    (hr : Stretch t c start r.2 (r.1.core.put t r.2.stage?)) (hseen : task.seen? = some task)
    (hk : task.lifecycle? = r.2.stage?) :
    (r.1.setTask t task).core = (r.1.core.put t r.2.stage?).write t task := by
  have hn := hr.near
  have ht : t < r.1.core.size := Nat.lt_of_lt_of_le (hc.lt_size ho) hn.size
  have hl : r.1.core.looking t = none := by
    rw [show r.1.core.looking = c.looking from hn.looking]
    exact hc.apart t (by simp [ho])
  rw [core_setTask_write r.1 ht hseen hl, hk]
  rfl

theorem callTask_seen? (starts : Bool) (p : Progress Lifecycle Settled) :
    (callTask starts p).seen? = some (callTask starts p) := by
  cases p <;> rfl

/-- The turn of a command that got so far with its connect or disconnect. -/
def endCall (t : TaskId) (starts : Bool) (r : Client × Progress Lifecycle Settled) : Client :=
  r.1.setTask t (callTask starts r.2)

/-- A call asks for a connect. -/
theorem step_ask (hs : w.core.Sound) {point : Point} {target : Target}
    (ho : w.core.entry t = some (.command point)) (ha : point.asks? = some target)
    (hp : (Task.command point).lifecycle? = none) :
    Step w.core (w.askActs t target)
      (endCall t point.starts (w.requestConnect t target w.epoch)).core := by
  have hr := stretch_requestConnect w t target w.epoch hs.prompt
  rw [put_self ((hs.stage_of_entry ho).trans hp)] at hr
  rw [endCall, core_setTask_stretch hs ho hr (callTask_seen? _ _) (callTask_lifecycle? _ _)]
  exact .ask ho ha hr

/-- A call asks for a disconnect. -/
theorem step_leave (hs : w.core.Sound)
    (ho : w.core.entry t = some (.command (.fresh .disconnect))) :
    Step w.core [.leave (.call t), w.leg (.call t) none (w.requestDisconnect t)]
      (endCall t false (w.requestDisconnect t)).core := by
  -- the disconnect is counted, and every connect that waits is cancelled, before the task joins the
  -- line
  have hc := core_cancelConnects w
  have hs' : w.cancelConnects.core.Sound := by
    rw [hc]
    exact hs.later
  have ho' : w.cancelConnects.core.entry t = some (.command (.fresh .disconnect)) := by
    rw [hc]
    exact ho
  have hk : w.cancelConnects.core.stage t = none := hs'.stage_of_entry ho'
  have hr := stretch_queueDisconnect w.cancelConnects t hs'.prompt
  rw [put_self hk] at hr
  rw [endCall, requestDisconnect,
    core_setTask_stretch hs' ho' hr (callTask_seen? _ _) (callTask_lifecycle? _ _)]
  rw [hc] at hr
  exact .leave ho hr

/-- A call goes on with a connect or a disconnect. -/
theorem step_resume (hs : w.core.Sound) {l : Lifecycle} (starts : Bool)
    (ho : w.core.entry t = some (callTask starts (.waiting l))) :
    Step w.core [w.leg (.call t) (some l) (w.resumeLifecycle t l)]
      (endCall t starts (w.resumeLifecycle t l)).core := by
  have hk : w.core.stage t = some l :=
    (hs.stage_of_entry ho).trans (callTask_lifecycle? starts (.waiting l))
  have hr := stretch_resumeLifecycle w t l (hs.stage_sound t l hk) hs.prompt
  rw [put_self hk] at hr
  rw [endCall, core_setTask_stretch hs ho hr (callTask_seen? _ _) (callTask_lifecycle? _ _)]
  exact .resume starts ho hr

/-- A connect or a disconnect that somebody called ends its turn as any request does. -/
theorem asLifecycle_eq (r : Client × Progress Lifecycle Settled) :
    (asLifecycle r).1.setTask t (pointTask (asLifecycle r).2) = endCall t false r := by
  rcases r with ⟨w, l | s⟩ <;> rfl

theorem asStart_eq (r : Client × Progress Lifecycle Settled) :
    (asStart r).1.setTask t (pointTask (asStart r).2) = endCall t true r := by
  rcases r with ⟨w, l | s⟩ <;> rfl

/-- A start that fetches the catalog: it waits, ends, or asks for a connect. -/
theorem steps_asLoad_start (hs : w.core.Sound) {point : Point}
    (ho : w.core.entry t = some (.command point)) (ha : point.asks? = some .best)
    (hp : (Task.command point).lifecycle? = none) (hst : point.starts = true)
    {r : Client × Progress (Call (List Server)) (Except BackendError (List Server))}
    (hq : Quiet w.core r.1.core) (hr : ∀ call, r.2 = .waiting call → call.Runs .servers) :
    Steps w.core (startActs t r)
      ((asLoad t true r).1.setTask t (pointTask (asLoad t true r).2)).core := by
  rcases r with ⟨v, call | answer⟩
  · -- the servers have not come
    refine Idles.steps (p := point) (r := (v, .waiting (.loading true call))) ?_ hs ho hp
    refine ⟨hq, rfl, ?_, hr call rfl⟩
    intro p hk
    cases hk
    exact hst.symm
  · -- the client when the catalog is there
    have hu : Quiet w.core (v.commitCatalog answer).1.core :=
      hq.trans (quiet_commitCatalog v answer)
    rw [show asLoad t true (v, .done answer) = (v.commitCatalog answer).1.continueStart t from rfl,
      show startActs t (v, .done answer) =
        if (v.commitCatalog answer).1.session.settings.autoConnect then
          ((v.commitCatalog answer).1.say .autoConnecting).askActs t .best else [] from rfl]
    generalize (v.commitCatalog answer).1 = u at hu
    unfold continueStart
    split
    · -- the settings ask for a connect
      have hs' : (u.say .autoConnecting).core.Sound := hs.quiet hu
      have ho' : (u.say .autoConnecting).core.entry t = some (.command point) := by
        rw [core_say, hu.entry_eq, ho]
      have h := hu.steps.trans (step_ask hs' ho' ha hp).single
      rw [hst] at h
      rw [asStart_eq]
      exact h
    · -- they do not, and the start is over
      exact Idles.steps (p := point) (.reply hu) hs ho hp

/-- A command that fetches the catalog only. -/
theorem idles_asLoad {c : Core}
    {r : Client × Progress (Call (List Server)) (Except BackendError (List Server))}
    (hq : Quiet c r.1.core) (hr : ∀ call, r.2 = .waiting call → call.Runs .servers) :
    Idles c false (asLoad t false r) := by
  rcases r with ⟨v, call | answer⟩
  · refine ⟨hq, rfl, ?_, hr call rfl⟩
    intro p hp
    cases hp
    rfl
  · exact .reply (hq.trans (quiet_commitCatalog v answer))

/-- A look that a command asked for changes the statistics at most. -/
theorem idles_asSample {c : Core} {r : Client × Progress (Call Stats) Bool}
    (hq : Looks c r.1.core) (hr : ∀ call, r.2 = .waiting call → call.Runs .stats) :
    Idles c false (asSample r) := by
  rcases r with ⟨v, call | kept⟩
  · refine ⟨hq.quiet, rfl, ?_, hr call rfl⟩
    intro p hp
    cases hp
    rfl
  · exact .reply hq.quiet

/-- Asking for the version changes nothing but the count of the calls. -/
theorem idles_asVersion {c : Core}
    {r : Client × Progress (Call String) (Except BackendError String)}
    (hq : Quiet c r.1.core) (hr : ∀ call, r.2 = .waiting call → call.Runs .version) :
    Idles c false (asVersion r) := by
  rcases r with ⟨v, call | a | version⟩
  · refine ⟨hq, rfl, ?_, hr call rfl⟩
    intro p hp
    cases hp
    rfl
  · exact .reply hq
  · exact .reply hq

theorem idles_toggleFavorite (w : Client) (id : String) :
    Idles w.core false ((w.toggleFavorite id).1, .done (.truth (w.toggleFavorite id).2)) := by
  refine .reply ?_
  unfold toggleFavorite
  dsimp only
  rw [core_say, core_update]
  exact .single (.favorites (w.core.session.favorites.toggle id))

/-- To run a command is to run it from its point, and then to write where it got. -/
theorem runCommand_eq (w : Client) (t : TaskId) (p : Point) :
    w.runCommand t p = (w.runPoint t p).1.setTask t (pointTask (w.runPoint t p).2) := by
  unfold runCommand
  rcases w.runPoint t p with ⟨w', p' | reply⟩ <;> rfl

/-- A command runs, one case for each point that it may have come to. Only requests have acts; every
other command leaves the connection alone. -/
theorem steps_runCommand (hs : w.core.Sound) {p : Point}
    (ho : w.core.entry t = some (.command p)) :
    Steps w.core (w.pointActs t p) (w.runCommand t p).core := by
  rw [runCommand_eq]
  have hsound := hs.entry t _ ho
  -- one case for each point, and for a new command one for each command
  cases p with
  | fresh command =>
    cases command with
    | connect id | quickConnect | reconnect =>
      rw [runPoint, begin, asLifecycle_eq]
      exact (step_ask hs ho rfl rfl).single
    | disconnect =>
      rw [runPoint, begin, asLifecycle_eq]
      exact (step_leave hs ho).single
    | start =>
      have hq := quiet_startCall w t .servers hs.prompt rfl
      exact steps_asLoad_start hs ho rfl rfl rfl hq.1 hq.2
    | write p => exact (writes_requestWrite w t p hs.prompt).idles.steps hs ho rfl
    | fetchServers =>
      have hq := quiet_startCall w t .servers hs.prompt rfl
      exact (idles_asLoad hq.1 hq.2).steps hs ho rfl
    | fetchStats =>
      have hq := looks_fetchStats w t hs.prompt
      exact (idles_asSample hq.1 fun _ hk => ⟨_, (hq.2 _ hk).1⟩).steps hs ho rfl
    | version =>
      have hq := quiet_startCall w t .version hs.prompt rfl
      exact (idles_asVersion hq.1 hq.2).steps hs ho rfl
    | toggleFavorite id => exact (idles_toggleFavorite w id).steps hs ho rfl
    | isFavorite | find | favorites | recents | catalog | settings | status | snapshot | reject =>
      exact Idles.steps (.reply .refl) hs ho rfl
  | lifecycle l =>
    -- the points that are under way
    rw [runPoint, asLifecycle_eq]
    exact (step_resume hs false ho).single
  | starting l =>
    rw [runPoint, asStart_eq]
    exact (step_resume hs true ho).single
  | loading starts call =>
    have hq := quiet_resumeCall w t hsound rfl
    cases starts with
    | true => exact steps_asLoad_start hs ho rfl rfl rfl hq.1 hq.2
    | false => exact (idles_asLoad hq.1 hq.2).steps hs ho rfl
  | writing p => exact (writes_resumeWrite w t hsound hs.prompt).idles.steps hs ho rfl
  | sampling call =>
    have hq := looks_resumeStats w t hsound
    exact (idles_asSample hq.1 fun _ hk => (hq.2 _ hk).1 ▸ hsound).steps hs ho rfl
  | asking call =>
    have hq := quiet_resumeCall w t hsound rfl
    exact (idles_asVersion hq.1 hq.2).steps hs ho rfl

end Client

end TunnelSession
