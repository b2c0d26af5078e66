/-
  A turn and its deals.

  SCENE.  What of a client its calls see and change: the clock, the session, the backend, the lock
  of the settings, and which tasks change the settings.

  EXCHANGES.  Whatever a turn does to the scene is a sequence of exchanges: a call is counted, an
  answer is made and taken in at once (`Ask.commit`), a call is given up, the old connection is left
  behind.  An answer to a connect or a disconnect never finds the connection up.  Only the task of a
  change touches the settings, their lock and the changes under way; for all others the flag
  `writer` is off.

  TURNS.  `talk_run` says that a turn is such a sequence, and that its deals are those listed.
-/
import TunnelSession.Proofs.Deals
import TunnelSession.Proofs.Mirror

namespace TunnelSession

variable {α : Type} {writer : Bool}

/-- Is the operation one of a change of the settings? -/
def Operation.isWrite : Operation → Bool
  | .updateSettings | .toggleKillSwitch | .toggleAutoConnect => true
  | _ => false

/-- Where a task stands with its change of the settings, if it makes one. -/
def Task.change? : Task → Option Point
  | .command (.fresh (.write p)) => some (.fresh (.write p))
  | .command (.writing p) => some (.writing p)
  | _ => none

/-- What the client makes of an answer. -/
def Ask.commit {α : Type} (ask : Ask α) (a : Except BackendError α) (s : Session) : Session :=
  match ask, a with
  | .connect _, .ok server => s.arrive server
  | .connect _, .error _ => s.fault
  | .quickConnect, .ok server => s.arrive server
  | .quickConnect, .error _ => s.fault
  | .disconnect, .ok _ => s.close
  | .disconnect, .error _ => s.fault
  | .servers, .ok catalog => { s with catalog := catalog }
  | .save merged, .ok _ => { s with settings := merged }
  | .toggle flag _, .ok value => { s with settings := s.settings.setFlag value flag }
  | .stats, .ok look => if s.state.isConnected then { s with stats := some look } else s
  | _, _ => s

/-- What of a client its calls see and change. -/
structure Scene where
  now : Nat
  session : Session
  backend : Backend
  writes : Lock
  changing : TaskId → Option Point

/-- The scene of a core. -/
def Core.scene (c : Core) : Scene where
  now := c.now
  session := c.session
  backend := c.backend
  writes := c.writes
  changing t := (c.entry t).bind Task.change?

/-- Writing a task changes who changes the settings at that task only. -/
theorem Core.changing_update (c : Core) (t : TaskId) (task : Option Task) :
    (fun u => (Function.update c.entry t task u).bind Task.change?) =
      Function.update c.scene.changing t (task.bind Task.change?) := by
  funext u
  by_cases hu : u = t
  · subst hu
    rw [Function.update_self, Function.update_self]
  · rw [Function.update_of_ne hu, Function.update_of_ne hu]
    rfl

/-- Of a task that is written the scene shows its change of the settings, if it makes one. -/
theorem Core.scene_write (c : Core) (t : TaskId) (task : Task) :
    (c.write t task).scene =
      { c.scene with changing := Function.update c.scene.changing t task.change? } := by
  have h := c.changing_update t (some task)
  rw [Option.bind_some] at h
  rw [← h]
  rfl

/-- A task that makes no change is written over one that made none. -/
theorem Core.scene_write_none {c : Core} {t : TaskId} (h : c.scene.changing t = none) {task : Task}
    (hk : task.change? = none) : (c.write t task).scene = c.scene := by
  rw [scene_write, hk, ← h, Function.update_eq_self]

theorem Ask.IsDial.isWrite_eq {ask : Ask Server} (h : ask.IsDial) :
    ask.operation.isWrite = false := by
  rcases h with ⟨id, rfl⟩ | rfl <;> rfl

namespace Scene

/-- Take in an answer. -/
def commit (s : Scene) (ask : Ask α) (a : Except BackendError α) : Scene :=
  { s with session := ask.commit a s.session }

/-- What a turn does to the scene, step by step, and the deals of it. -/
inductive Exchange (writer : Bool) (s : Scene) : List Deal → Scene → Prop
  | called (op : Operation) :
    Exchange writer s [.called op] { s with backend := s.backend.count op }
  | answered {α : Type} (ask : Ask α)
    (hl : ask.operation.isLifecycle = true → s.session.state ≠ .connected)
    (hw : ask.operation.isWrite = true → writer = true) :
    Exchange writer s
      [.answered ask.operation s.now ((s.backend.answer s.now ask).1.map fun _ => ())]
      ({ s with backend := (s.backend.answer s.now ask).2 }.commit ask
        (s.backend.answer s.now ask).1)
  | dropped (op : Operation) : Exchange writer s [.dropped op] s
  | depart (state : ConnectionState) (h : state ≠ .connected) :
    Exchange writer s [] { s with session := s.session.depart state }
  | favorites (f : Text.NameSet) :
    Exchange writer s [] { s with session := { s.session with favorites := f } }
  | writes (l : Lock) (hw : writer = true) : Exchange writer s [] { s with writes := l }
  | changing (t : TaskId) (p : Option Point) (hw : writer = true) :
    Exchange writer s [] { s with changing := Function.update s.changing t p }

/-- What an event does to the scene before anybody has a turn. -/
inductive Nudge (s : Scene) : Scene → Prop
  | same : Nudge s s
  | pass (ms : Nat) : Nudge s { s with now := s.now + ms }
  | fail (op : Operation) (e : BackendError) :
    Nudge s { s with backend := s.backend.failNext op e }
  | pin (op : Operation) (value : Bool) : Nudge s { s with backend := s.backend.pin op value }
  | spawn {t : TaskId} (h : s.changing t = none) (command : Command) :
    Nudge s { s with
      changing := Function.update s.changing t (Task.command (.fresh command)).change? }

/-- Exchanges, one after the other, with all their deals. -/
inductive Talk (writer : Bool) : Scene → List Deal → Scene → Prop
  | refl (s : Scene) : Talk writer s [] s
  | head {s s₁ s' : Scene} {δ ε : List Deal} (h : Exchange writer s δ s₁)
    (ht : Talk writer s₁ ε s') : Talk writer s (δ ++ ε) s'

variable {s s₁ s' : Scene} {δ ε : List Deal}

theorem Exchange.single (h : Exchange writer s δ s') : Talk writer s δ s' := by
  have ht := Talk.head h (.refl s')
  rwa [List.append_nil] at ht

theorem Talk.trans (h : Talk writer s δ s₁) (h' : Talk writer s₁ ε s') :
    Talk writer s (δ ++ ε) s' := by
  induction h with
  | refl => exact h'
  | head h _ ih =>
    rw [List.append_assoc]
    exact .head h (ih h')

/-- A property of scenes and deals that every exchange keeps, every turn keeps. -/
theorem Talk.induct {I : List Deal → Scene → Prop} (h : Talk writer s δ s')
    (hI : ∀ past s ε s', I past s → Exchange writer s ε s' → I (past ++ ε) s')
    (past : List Deal) (hi : I past s) : I (past ++ δ) s' := by
  induction h generalizing past with
  | refl => rwa [List.append_nil]
  | head h _ ih =>
    rw [← List.append_assoc]
    exact ih _ (hI _ _ _ _ hi h)

theorem Talk.prompt (h : Talk writer s δ s') (hp : s.backend.Prompt) : s'.backend.Prompt := by
  refine h.induct (I := fun _ s => s.backend.Prompt) (fun _ s _ _ hp hx => ?_) [] hp
  cases hx with
  | called op => exact hp.count op
  | answered ask => exact hp.answer s.now ask
  | _ => exact hp

/-- What no task touches but that of a change. -/
structure SameSettings (s s' : Scene) : Prop where
  settings : s'.session.settings = s.session.settings
  persisted : s'.backend.persisted = s.backend.persisted
  writes : s'.writes = s.writes
  changing : s'.changing = s.changing

theorem SameSettings.trans (h : SameSettings s s₁) (h' : SameSettings s₁ s') :
    SameSettings s s' :=
  ⟨h'.settings.trans h.settings, h'.persisted.trans h.persisted, h'.writes.trans h.writes,
    h'.changing.trans h.changing⟩

/-- An answer to anything but a change leaves the settings alone, in the session and with the
backend. -/
theorem sameSettings_answered (s : Scene) {ask : Ask α} (h : ask.operation.isWrite = false) :
    SameSettings s ({ s with backend := (s.backend.answer s.now ask).2 }.commit ask
      (s.backend.answer s.now ask).1) := by
  -- the backend changes what it has saved only when it is asked to
  have hb : (s.backend.answer s.now ask).2.persisted = s.backend.persisted := by
    unfold Backend.answer
    split
    · rfl
    · cases ask with
      | save | toggle flag => first | cases h | (cases flag <;> cases h)
      | disconnect | servers | version => rfl
      | connect | quickConnect | stats =>
        unfold Backend.perform
        dsimp only
        split <;> rfl
  refine ⟨?_, hb, rfl, rfl⟩
  show (ask.commit (s.backend.answer s.now ask).1 s.session).settings = s.session.settings
  -- and the session takes nothing else in as settings
  generalize (s.backend.answer s.now ask).1 = a
  cases ask with
  | save | toggle flag => first | cases h | (cases flag <;> cases h)
  | version => rfl
  | connect | quickConnect | disconnect | servers => cases a <;> rfl
  | stats =>
    cases a with
    | error e => rfl
    | ok stats =>
      unfold Ask.commit
      dsimp only
      split <;> rfl

/-- A turn of a task that changes no settings leaves them, and the changes that are under way, as
they are. -/
theorem Talk.sameSettings (h : Talk false s δ s') : SameSettings s s' := by
  induction h with
  | refl => exact ⟨rfl, rfl, rfl, rfl⟩
  | @head s _ _ _ _ hx _ ih =>
    refine SameSettings.trans ?_ ih
    cases hx with
    | answered ask _ hw => exact sameSettings_answered s (by simpa using hw)
    | writes _ hw | changing _ _ hw => cases hw
    | _ => exact ⟨rfl, rfl, rfl, rfl⟩

/-- Who does not touch the settings does no more than who may. -/
theorem Talk.weaken (h : Talk writer s δ s') : Talk true s δ s' := by
  induction h with
  | refl => exact .refl _
  | head hx _ ih =>
    refine .head ?_ ih
    cases hx with
    | called op => exact .called op
    | answered ask hl _ => exact .answered ask hl fun _ => rfl
    | dropped op => exact .dropped op
    | depart state h => exact .depart state h
    | favorites f => exact .favorites f
    | writes l _ => exact .writes l rfl
    | changing t p _ => exact .changing t p rfl

end Scene

namespace Client

open Scene

variable {w : Client} {t : TaskId}

/-! ## Calls -/

/-- A call came to where `r` is: it waits, or its answer is there and is taken in next. -/
def Answers (writer : Bool) (s : Scene) (δ : List Deal) (ask : Ask α)
    (r : Client × Progress (Call α) (Except BackendError α)) : Prop :=
  match r with
  | (w, .waiting _) => Talk writer s δ w.core.scene
  | (w, .done a) => Talk writer s δ (w.core.scene.commit ask a)

/-- A call that starts is counted, and answered at once if there is no latency. -/
theorem answers_startCall (w : Client) (t : TaskId) (ask : Ask α) (hp : w.core.backend.Prompt)
    (hl : ask.operation.isLifecycle = true → w.core.session.state ≠ .connected)
    (hw : ask.operation.isWrite = true → writer = true) :
    Answers writer w.core.scene (w.startDeals t ask) ask (w.startCall t ask) := by
  have hcall : Exchange writer w.core.scene _ _ := .called ask.operation
  unfold startDeals
  rcases startCall_cases w t ask hp with ⟨w', h, -, hc⟩ | ⟨w', a, b, h, -, ha, hc⟩
  · -- it waits
    rw [h]
    show Talk _ _ [.called ask.operation] w'.core.scene
    rw [hc]
    exact hcall.single
  · -- counted and answered are two exchanges
    rw [h]
    show Talk _ _ ([.called ask.operation] ++ [.answered ask.operation w.core.now _])
      (w'.core.scene.commit ask a)
    rw [hc]
    have hx : Exchange writer
        { w.core.scene with backend := w.core.backend.count ask.operation } _ _ :=
      .answered ask hl hw
    dsimp only [Core.scene] at hx
    rw [ha] at hx
    exact .head hcall hx.single

/-- A call that goes on waits as before, or is answered. -/
theorem answers_resumeCall (w : Client) (t : TaskId) {call : Call α} {ask : Ask α}
    (hk : call.Runs ask)
    (hl : ask.operation.isLifecycle = true → w.core.session.state ≠ .connected)
    (hw : ask.operation.isWrite = true → writer = true) :
    Answers writer w.core.scene (w.resumeDeals t call) ask (w.resumeCall t call) := by
  obtain ⟨due, rfl⟩ := hk
  show Answers writer _ (w.answerDeals ask.operation (w.resumeCall t (.running ask due 0)).2) ask _
  rcases resumeCall_cases w t ⟨due, rfl⟩ with ⟨w', h, -, hc⟩ | ⟨w', a, b, h, -, ha, hc⟩
  · rw [h]
    show Talk _ _ [] w'.core.scene
    rw [hc]
    exact .refl _
  · rw [h]
    show Talk _ _ [.answered ask.operation w.core.now _] (w'.core.scene.commit ask a)
    rw [hc]
    have hx : Exchange writer w.core.scene _ _ := .answered ask hl hw
    dsimp only [Core.scene] at hx
    rw [ha] at hx
    exact hx.single

theorem talk_dropDeals {call : Call α} {ask : Ask α} (hk : call.Runs ask) (s : Scene) :
    Talk writer s call.dropDeals s := by
  obtain ⟨due, rfl⟩ := hk
  exact (Exchange.dropped _).single

end Client

end TunnelSession
