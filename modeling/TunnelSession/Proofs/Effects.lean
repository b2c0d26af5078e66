/-
  What the work of a task is made of.

  EFFECTS.  Whatever a function of the client does to what the tasks share, it does by a few things
  (`Effect`): it reports, edits one share of the session, turns the kill switch, takes or gives back
  a lock, sets or takes back a timer, starts or stops the poller, changes a bridge, wakes somebody.

  WORK.  A stretch of work is effects, one after the other, and between them what passes with the
  backend (`Work`).  It leads from the call that the task has under way to the one it has then, and
  lists the deals in order.

  USE.  What is to hold of all work is shown of every effect, and of all work by induction.  So it
  is here that work leaves the other tasks alone (`Work.othersKept`), and in later modules that it
  writes no foreign share, that it leaves the slot of the poller alone, and that its deals have the
  form of a conversation.  Only `TurnEffects` goes through the functions themselves.
-/
import TunnelSession.Proofs.Calls
import TunnelSession.Proofs.Deals
import TunnelSession.Proofs.Updates

namespace TunnelSession

variable {α σ ρ : Type}

/-! ## The call under way -/

/-- A call under way, and when its latency is over. -/
structure OpenCall where
  op : Operation
  due : Nat
  deriving DecidableEq

/-- The call, if its answer was not made yet. -/
def Call.pending? : Call α → Option OpenCall
  | .running ask due _ => some ⟨ask.operation, due⟩
  | .held .. => none

/-- The call that a connect or a disconnect waits for. -/
def Lifecycle.pending? : Lifecycle → Option OpenCall
  | .queued .. | .leaving => none
  | .dialing _ call => call.pending?
  | .sampling _ _ call => call.pending?
  | .hangingUp call => call.pending?

/-- The call that a change of the settings waits for. -/
def Writing.pending? : Writing → Option OpenCall
  | .queued _ => none
  | .saving _ call => call.pending?
  | .toggling _ _ call => call.pending?

/-- The call that a command waits for. -/
def Point.pending? : Point → Option OpenCall
  | .fresh _ => none
  | .lifecycle l | .starting l => l.pending?
  | .loading _ call => call.pending?
  | .writing p => p.pending?
  | .sampling call => call.pending?
  | .asking call => call.pending?

/-- The call that a task waits for. -/
def Task.pending? : Task → Option OpenCall
  | .command p => p.pending?
  | .poller p => p.call.bind Call.pending?
  | .worker _ current => current.bind (·.2.pending?)
  | .receiver _ | .ended _ => none

/-- The call that a turn of a task goes on with.  A poller without a period ends at once. -/
def Task.resumes? : Task → Option OpenCall
  | .poller p => if p.period = 0 then none else p.call.bind Call.pending?
  | task => task.pending?

/-- Has the command begun, and is it not in line for the settings? -/
def Point.IsUnderWay : Point → Prop
  | .fresh _ | .writing (.queued _) => False
  | _ => True

/-- Is the task at no command and in no call? -/
def Task.IsIdle : Task → Prop
  | .command _ | .worker _ (some _) => False
  | .poller p => p.call = none
  | .worker _ none | .receiver _ | .ended _ => True

/-- Who is at no command and in no call waits for none. -/
theorem Task.IsIdle.pending? {k : Task} (h : k.IsIdle) : k.pending? = none := by
  cases k with
  | command => cases h
  | poller p =>
    show p.call.bind Call.pending? = none
    rw [show p.call = none from h]
    rfl
  | worker b current =>
    cases current with
    | none => rfl
    | some current => cases h
  | receiver | ended => rfl

/-- The call that somebody waits for who got so far. -/
def Progress.pending? (pending? : σ → Option OpenCall) : Progress σ ρ → Option OpenCall
  | .waiting p => pending? p
  | .done _ => none

/-! ## Effects -/

/-- What belongs together of all that the tasks share: a part of the session, or what tasks wait
for. -/
inductive Share where
  | connection
  | statistics
  | settings
  | catalog
  /-- Who has the connection and who is in line for it, the tickets, and the slot of the poller. -/
  | line
  /-- The bridges, with the triggers and the jobs that wait there. -/
  | bridges
  deriving DecidableEq, Repr

/-- The change of the session stays within this part; what tasks wait for is no part of it. -/
def Share.Holds (f : Session → Session) : Share → Prop
  | .line | .bridges => False
  | .statistics => ∀ s, f s = { s with stats := (f s).stats }
  | .connection => ∀ s, (f s).settings = s.settings ∧ (f s).catalog = s.catalog ∧
      (f s).favorites = s.favorites
  | .settings => ∀ s, f s = { s with settings := (f s).settings }
  | .catalog => ∀ s, f s = { s with catalog := (f s).catalog, favorites := (f s).favorites }

/-- Whose step it is. -/
inductive Component where
  | lifecycle
  | bridge
  | telemetry
  | settings
  | catalog
  /-- It only reads. -/
  | reader
  deriving DecidableEq, Repr

/-- What the component writes. -/
def Component.shares : Component → List Share
  | .lifecycle => [.connection, .statistics, .line]
  | .bridge => [.connection, .statistics, .line, .bridges]
  | .telemetry => [.statistics]
  | .settings => [.settings]
  | .catalog => [.catalog]
  | .reader => []

theorem connection_mem_lifecycle : Share.connection ∈ Component.lifecycle.shares := by decide

theorem line_mem_lifecycle : Share.line ∈ Component.lifecycle.shares := by decide

/-- A connect looks at the statistics of its tunnel as a poller does. -/
theorem telemetry_subset_lifecycle :
    Component.telemetry.shares ⊆ Component.lifecycle.shares := by decide

/-- A job is a connect or a disconnect. -/
theorem lifecycle_subset_bridge : Component.lifecycle.shares ⊆ Component.bridge.shares := by decide

theorem line_mem_bridge : Share.line ∈ Component.bridge.shares := by decide

theorem bridges_mem_bridge : Share.bridges ∈ Component.bridge.shares := by decide

/-- Whose step the first run of a command is. -/
def Command.component : Command → Component
  | .connect _ | .quickConnect | .reconnect | .disconnect => .lifecycle
  | .write _ => .settings
  | .start | .fetchServers | .toggleFavorite _ => .catalog
  | .fetchStats => .telemetry
  | _ => .reader

/-- Whose step it is when a command goes on. -/
def Point.component : Point → Component
  | .fresh command => command.component
  | .lifecycle _ | .starting _ => .lifecycle
  | .loading .. => .catalog
  | .writing _ => .settings
  | .sampling _ => .telemetry
  | .asking _ => .reader

/-- Whose step a turn of the task is. -/
def Task.component : Task → Component
  | .command p => p.component
  | .poller _ => .telemetry
  | .receiver _ | .worker .. => .bridge
  | .ended _ => .reader

/-- What a run of a command writes.  A start whose servers have come goes on with a connect. -/
def Point.shares : Point → List Share
  | .fresh .start | .loading true _ => .catalog :: Component.lifecycle.shares
  | p => p.component.shares

/-- What a turn of the task writes. -/
def Task.shares : Task → List Share
  | .command p => p.shares
  | task => task.component.shares

namespace Client

variable {w w' w₁ v : Client} {t u : TaskId} {shares : List Share}

/-- One thing that a task does, writing these shares at most.  What everybody may do needs none: to
report, to set a timer, to wake somebody, and to use the lock of the settings. -/
inductive Effect (t : TaskId) (shares : List Share) (w : Client) : Client → Prop
  | say (n : Notice) : Effect t shares w (w.say n)
  | edit {s : Share} {f : Session → Session} (hs : s ∈ shares) (hf : s.Holds f) :
    Effect t shares w (w.update f)
  /-- The kill switch is told of the tunnel by who works on the connection. -/
  | raise (hs : .connection ∈ shares) : Effect t shares w w.raiseTunnel
  | lower (hs : .connection ∈ shares) : Effect t shares w w.lowerTunnel
  /-- It is turned by who changes the settings. -/
  | turn (on : Bool) (hs : .settings ∈ shares) : Effect t shares w (w.setKillSwitch on)
  | request (hs : .line ∈ shares) :
    Effect t shares w { w with transition := w.transition.request t }
  | release (hs : .line ∈ shares) : Effect t shares w w.releaseTransition
  | withdraw (hs : .line ∈ shares) : Effect t shares w (w.withdrawTransition t)
  | cancel (hs : .line ∈ shares) : Effect t shares w w.cancelConnects
  | enlist (hs : .line ∈ shares) : Effect t shares w (w.enlist t)
  | delist (hs : .line ∈ shares) : Effect t shares w (w.delist t)
  | start (hs : .line ∈ shares) (period : Nat) : Effect t shares w (w.startPolling period)
  | stop (hs : .line ∈ shares) : Effect t shares w w.stopPolling
  | arm (due : Nat) : Effect t shares w (w.arm due t)
  | disarm : Effect t shares w (w.disarm t)
  | requestWrites : Effect t shares w { w with writes := w.writes.request t }
  | releaseWrites : Effect t shares w w.releaseWrites
  | withdrawWrites : Effect t shares w (w.withdrawWrites t)
  | bridge (hs : .bridges ∈ shares) (b : BridgeId) (f : Bridge → Bridge) :
    Effect t shares w (w.setBridge b f)
  | wake (u : TaskId) : Effect t shares w (w.wake u)

/-- A stretch of work, from the call that is under way before it to the one that is then, with what
passes meanwhile between the task and the backend. -/
inductive Work (t : TaskId) (shares : List Share) :
    Client → Option OpenCall → List Deal → Client → Option OpenCall → Prop
  | refl (w : Client) (c : Option OpenCall) : Work t shares w c [] w c
  | effect {w w₁ w' : Client} {c c' : Option OpenCall} {δ : List Deal} (h : Effect t shares w w₁)
    (hs : Work t shares w₁ c δ w' c') : Work t shares w c δ w' c'
  | called {w w' : Client} {c' : Option OpenCall} {δ : List Deal} (op : Operation)
    (hs : Work t shares { w with backend := (w.backend.dropHold op).count op }
      (some ⟨op, w.now + w.backend.latency⟩) δ w' c') :
    Work t shares w none (.called op :: δ) w' c'
  | answered {α : Type} {w w' : Client} {c' : Option OpenCall} {δ : List Deal} (ask : Ask α)
    {due : Nat} (hd : due ≤ w.now)
    (hs : Work t shares { w with backend := (w.backend.answer w.now ask).2 } none δ w' c') :
    Work t shares w (some ⟨ask.operation, due⟩)
      (.answered ask.operation w.now ((w.backend.answer w.now ask).1.map fun _ => ()) :: δ) w' c'
  /-- The call is given up before it is answered. -/
  | dropped {w w' : Client} {c' : Option OpenCall} {δ : List Deal} {op : Operation} {due : Nat}
    (hs : Work t shares w none δ w' c') :
    Work t shares w (some ⟨op, due⟩) (.dropped op :: δ) w' c'

/-- Two stretches of work are one, and their deals stand in order. -/
theorem Work.trans {c c₁ c' : Option OpenCall} {δ ε : List Deal}
    (h : Work t shares w c δ w₁ c₁) (h' : Work t shares w₁ c₁ ε w' c') :
    Work t shares w c (δ ++ ε) w' c' := by
  induction h with
  | refl => exact h'
  | effect h _ ih => exact .effect h (ih h')
  | called op _ ih => exact .called op (ih h')
  | answered ask hd _ ih => exact .answered ask hd (ih h')
  | dropped _ ih => exact .dropped (ih h')

/-- Who may write more does no less. -/
theorem Effect.mono {more : List Share} (h : Effect t shares w w') (hm : shares ⊆ more) :
    Effect t more w w' := by
  cases h with
  | edit hs hf => exact .edit (hm hs) hf
  | raise hs => exact .raise (hm hs)
  | lower hs => exact .lower (hm hs)
  | turn on hs => exact .turn on (hm hs)
  | request hs => exact .request (hm hs)
  | release hs => exact .release (hm hs)
  | withdraw hs => exact .withdraw (hm hs)
  | cancel hs => exact .cancel (hm hs)
  | enlist hs => exact .enlist (hm hs)
  | delist hs => exact .delist (hm hs)
  | start hs period => exact .start (hm hs) period
  | stop hs => exact .stop (hm hs)
  | bridge hs b f => exact .bridge (hm hs) b f
  -- what everybody may do anyway
  | say | arm | disarm | requestWrites | releaseWrites | withdrawWrites | wake => constructor

/-- Work may be given more shares than it uses. -/
theorem Work.mono {more : List Share} {c c' : Option OpenCall} {δ : List Deal}
    (h : Work t shares w c δ w' c') (hm : shares ⊆ more) : Work t more w c δ w' c' := by
  induction h with
  | refl => exact .refl _ _
  | effect h _ ih => exact .effect (h.mono hm) ih
  | called op _ ih => exact .called op ih
  | answered ask hd _ ih => exact .answered ask hd ih
  | dropped _ ih => exact .dropped ih

/-! ## What work leaves alone -/

/-- Work of `t` leaves the other tasks alone: where they stand, their timers, and who has the
settings, unless that one is woken. -/
structure OthersKept (t : TaskId) (w w' : Client) : Prop where
  now : w'.now = w.now
  latency : w'.backend.latency = w.backend.latency
  entry : w'.core.entry = w.core.entry
  looking : w'.core.looking = w.core.looking
  timers : ∀ u due, u ≠ t → (due, u) ∈ w.timers → (due, u) ∈ w'.timers
  ready : w.ready ⊆ w'.ready
  writes : ∀ u p, w'.writes.holder = some u → w.core.entry u = some (.command (.writing p)) →
    u = t ∨ w.writes.holder = some u ∨ u ∈ w'.ready

theorem OthersKept.refl (t : TaskId) (w : Client) : OthersKept t w w :=
  ⟨rfl, rfl, rfl, rfl, fun _ _ _ => id, List.Subset.refl _, fun _ _ h _ => .inr (.inl h)⟩

/-- Two stretches of work that leave the others alone are one. -/
theorem OthersKept.trans (h : OthersKept t w w₁) (h' : OthersKept t w₁ w') : OthersKept t w w' where
  now := h'.now.trans h.now
  latency := h'.latency.trans h.latency
  entry := h'.entry.trans h.entry
  looking := h'.looking.trans h.looking
  timers u due hu hin := h'.timers u due hu (h.timers u due hu hin)
  ready := List.Subset.trans h.ready h'.ready
  writes u p hh he := by
    rcases h'.writes u p hh (by rw [h.entry]; exact he) with ht | hw | hr
    · exact .inl ht
    · rcases h.writes u p hw he with ht | hw | hr
      · exact .inl ht
      · exact .inr (.inl hw)
      · exact .inr (.inr (h'.ready hr))
    · exact .inr (.inr hr)

/-! ### Each effect -/

theorem othersKept_wakeAll (t : TaskId) (w : Client) (ts : List TaskId) :
    OthersKept t w (w.wakeAll ts) := by
  obtain ⟨more, h⟩ := wakeAll_eq w ts
  rw [h]
  exact ⟨rfl, rfl, rfl, rfl, fun _ _ _ => id, List.subset_append_left _ _,
    fun _ _ hh _ => .inr (.inl hh)⟩

theorem othersKept_wake (t : TaskId) (w : Client) (u : TaskId) : OthersKept t w (w.wake u) :=
  othersKept_wakeAll t w [u]

/-- A change of what nobody sleeps for. -/
theorem othersKept_with (t : TaskId) (w : Client) (session : Session) (published : ConnectionState)
    (version : Nat) (killSwitch : KillSwitch) (transition : Lock) (epoch : Nat)
    (cancellable : List TaskId) (poller : Option TaskId) (bridges : List Bridge)
    (log : List Notice) :
    OthersKept t w { w with
      session := session
      published := published
      version := version
      killSwitch := killSwitch
      transition := transition
      epoch := epoch
      cancellable := cancellable
      poller := poller
      bridges := bridges
      log := log } :=
  ⟨rfl, rfl, rfl, rfl, fun _ _ _ => id, List.Subset.refl _, fun _ _ h _ => .inr (.inl h)⟩

theorem othersKept_setBridge (t : TaskId) (w : Client) (b : BridgeId) (f : Bridge → Bridge) :
    OthersKept t w (w.setBridge b f) :=
  othersKept_with t w _ _ _ _ _ _ _ _ _ _

theorem othersKept_update (t : TaskId) (w : Client) (f : Session → Session) :
    OthersKept t w (w.update f) := by
  obtain ⟨more, h⟩ := update_eq w f
  rw [h]
  exact ⟨rfl, rfl, rfl, rfl, fun _ _ _ => id, List.subset_append_left _ _,
    fun _ _ hh _ => .inr (.inl hh)⟩

/-- Whoever gets the settings is woken. -/
theorem othersKept_releaseWrites (t : TaskId) (w : Client) : OthersKept t w w.releaseWrites := by
  -- who is handed the settings has a change under way, so it has not ended and is woken
  have hwake : ∀ u p, w.releaseWrites.writes.holder = some u →
      w.core.entry u = some (.command (.writing p)) → u ∈ w.releaseWrites.ready := by
    intro u p hh he
    have hlock : w.releaseWrites.writes = w.writes.release := by
      obtain ⟨more, h⟩ := wakeAll_eq { w with writes := w.writes.release }
        w.writes.release.holder.toList
      exact congrArg Client.writes h
    rw [hlock] at hh
    exact mem_ready_wakeAll (w := { w with writes := w.writes.release }) (Option.mem_toList.2 hh)
      (hasEnded_of_entry he)
  obtain ⟨more, h⟩ := wakeAll_eq { w with writes := w.writes.release }
    w.writes.release.holder.toList
  have heq : w.releaseWrites = { w with
      writes := w.writes.release
      ready := w.ready ++ more } := h
  rw [heq] at hwake ⊢
  exact ⟨rfl, rfl, rfl, rfl, fun _ _ _ => id, List.subset_append_left _ _,
    fun u p hh he => .inr (.inr (hwake u p hh he))⟩

/-- The poller is told to stop: where it stands stays the same to the core. -/
theorem othersKept_stopPolling (t : TaskId) (w : Client) : OthersKept t w w.stopPolling := by
  have hc := core_stopPolling w
  obtain ⟨more, log, h⟩ := stopPolling_eq w
  rw [h] at hc ⊢
  exact ⟨rfl, rfl, congrArg Core.entry hc, congrArg Core.looking hc, fun _ _ _ => id,
    List.subset_append_left _ _, fun _ _ hh _ => .inr (.inl hh)⟩

/-- A new poller is none of those who were there. -/
theorem othersKept_startPolling (t : TaskId) (w : Client) (period : Nat) :
    OthersKept t w (w.startPolling period) := by
  have hc := core_startPolling w period
  obtain ⟨more, log, h⟩ := startPolling_eq w period
  rw [h] at hc ⊢
  have he := congrArg Core.entry hc
  have hl := congrArg Core.looking hc
  exact ⟨rfl, rfl, he, hl, fun _ _ _ => id, List.subset_append_left _ _,
    fun _ _ hh _ => .inr (.inl hh)⟩

theorem othersKept_arm (t : TaskId) (w : Client) (due : Nat) (u : TaskId) :
    OthersKept t w (w.arm due u) := by
  unfold arm
  split
  · exact .refl t w
  · exact ⟨rfl, rfl, rfl, rfl, fun _ _ _ => List.mem_append_left _, List.Subset.refl _,
      fun _ _ h _ => .inr (.inl h)⟩

theorem othersKept_backend (t : TaskId) (w : Client) {b : Backend}
    (h : b.latency = w.backend.latency) : OthersKept t w { w with backend := b } :=
  ⟨rfl, h, rfl, rfl, fun _ _ _ => id, List.Subset.refl _, fun _ _ h _ => .inr (.inl h)⟩

/-- Who joins the line for the settings takes them from nobody. -/
theorem othersKept_requestWrites (t : TaskId) (w : Client) :
    OthersKept t w { w with writes := w.writes.request t } := by
  refine ⟨rfl, rfl, rfl, rfl, fun _ _ _ => id, List.Subset.refl _, fun u p hh _ => ?_⟩
  dsimp only at hh
  unfold Lock.request at hh
  split at hh
  · exact .inl (Option.some.inj hh).symm
  · exact .inr (.inl hh)

/-- Who holds the settings hands them on, or keeps them. -/
theorem othersKept_withdrawWrites (t : TaskId) (w : Client) (u : TaskId) :
    OthersKept t w (w.withdrawWrites u) := by
  unfold withdrawWrites
  split
  · exact othersKept_releaseWrites t w
  · exact ⟨rfl, rfl, rfl, rfl, fun _ _ _ => id, List.Subset.refl _, fun _ _ h _ => .inr (.inl h)⟩

/-- Every effect leaves the other tasks alone. -/
theorem Effect.othersKept (h : Effect t shares w w') : OthersKept t w w' := by
  cases h with
  | say | raise | lower | turn | request | enlist | delist | bridge =>
    exact othersKept_with t w _ _ _ _ _ _ _ _ _ _
  | edit => exact othersKept_update t w _
  | release | cancel =>
    exact (othersKept_with t w _ _ _ _ _ _ _ _ _ _).trans (othersKept_wakeAll t _ _)
  | withdraw =>
    unfold withdrawTransition
    split
    · exact (othersKept_with t w _ _ _ _ _ _ _ _ _ _).trans (othersKept_wakeAll t _ _)
    · exact othersKept_with t w _ _ _ _ _ _ _ _ _ _
  | start _ period => exact othersKept_startPolling t w period
  | stop => exact othersKept_stopPolling t w
  | arm due => exact othersKept_arm t w due t
  | disarm =>
    -- only the timers of `t` itself are taken back
    exact ⟨rfl, rfl, rfl, rfl, fun _ _ hu hin => List.mem_filter.2 ⟨hin, bne_iff_ne.2 hu⟩,
      List.Subset.refl _, fun _ _ h _ => .inr (.inl h)⟩
  | requestWrites => exact othersKept_requestWrites t w
  | releaseWrites => exact othersKept_releaseWrites t w
  | withdrawWrites => exact othersKept_withdrawWrites t w t
  | wake u => exact othersKept_wake t w u

/-- Work keeps every other task: none of its effects writes a task that is not its own. Calls and
answers write the backend only, which keeps its latency. -/
theorem Work.othersKept {c c' : Option OpenCall} {δ : List Deal} (h : Work t shares w c δ w' c') :
    OthersKept t w w' := by
  induction h with
  | refl => exact .refl t _
  | effect h _ ih => exact h.othersKept.trans ih
  | called op _ ih =>
    refine (othersKept_backend t _ ?_).trans ih
    rfl
  | answered ask _ _ ih =>
    exact (othersKept_backend t _ (Backend.answer_frame _ _ ask).2.2.1).trans ih
  | dropped _ ih => exact ih

/-! ## Timers -/

/-- The task sleeps until then, no longer than a call may take, and will be woken. -/
structure Naps (w : Client) (t : TaskId) (due : Nat) : Prop where
  timer : (due, t) ∈ w.timers
  later : w.now < due
  bound : due ≤ w.now + w.backend.latency

theorem mem_timers_arm (w : Client) (due : Nat) (t : TaskId) : (due, t) ∈ (w.arm due t).timers := by
  unfold arm
  split
  · rename_i h
    exact List.contains_iff_mem.1 h
  · exact List.mem_append_right _ List.mem_cons_self

/-- Who sets its timer sleeps until then. -/
theorem naps_arm {due : Nat} (h : w.now < due) (hb : due ≤ w.now + w.backend.latency) :
    (w.arm due t).Naps t due := by
  have harm := othersKept_arm t w due t
  refine ⟨mem_timers_arm w due t, ?_, ?_⟩
  · rw [harm.now]
    exact h
  · rw [harm.now, harm.latency]
    exact hb

/-- Work, after which the timer of the call under way is set.  The call that it began with must be
one that takes no longer than a call may. -/
structure Reaches (t : TaskId) (shares : List Share) (w : Client) (c : Option OpenCall)
    (δ : List Deal) (w' : Client) (c' : Option OpenCall) : Prop where
  work : Work t shares w c δ w' c'
  naps : (∀ o, c = some o → o.due ≤ w.now + w.backend.latency) →
    ∀ o, c' = some o → w'.Naps t o.due

section Reaches

variable {c c₁ c' : Option OpenCall} {δ ε : List Deal}

/-- No call is under way at the end. -/
theorem Work.reaches (h : Work t shares w c δ w' none) : Reaches t shares w c δ w' none :=
  ⟨h, fun _ _ => nofun⟩

theorem Reaches.refl (w : Client) : Reaches t shares w none [] w none := (Work.refl w none).reaches

/-- Two stretches of work, the second from the call that the first one left under way. -/
theorem Reaches.trans (h : Reaches t shares w c δ w₁ c₁) (h' : Reaches t shares w₁ c₁ ε w' c') :
    Reaches t shares w c (δ ++ ε) w' c' :=
  ⟨h.work.trans h'.work, fun hb => h'.naps fun o ho => (h.naps hb o ho).bound⟩

/-- Something goes before the first deal. -/
theorem Reaches.behind (h : Reaches t shares w₁ none δ w' c')
    (hw : Work t shares w none [] w₁ none) :
    Reaches t shares w none δ w' c' :=
  hw.reaches.trans h

/-- Something follows the last deal. -/
theorem Reaches.before (h : Reaches t shares w c δ w₁ none)
    (hw : Work t shares w₁ none [] w' none) :
    Reaches t shares w c δ w' none := by
  have hr := h.trans hw.reaches
  rwa [List.append_nil] at hr

/-- The call that follows is none. -/
theorem Reaches.append_nil (h : Reaches t shares w c δ w' c') :
    Reaches t shares w c (δ ++ []) w' c' := by
  rwa [List.append_nil]

/-- Who waits for a call waits with a ticket besides. -/
theorem Reaches.enlist (h : Reaches t shares w c δ w' c') (hs : .line ∈ shares) :
    Reaches t shares w c δ (w'.enlist t) c' := by
  refine ⟨?_, fun hb o ho => ?_⟩
  · have hw := h.work.trans (.effect (.enlist hs) (.refl _ c'))
    rwa [List.append_nil] at hw
  · obtain ⟨hin, hlater, hbound⟩ := h.naps hb o ho
    exact ⟨hin, hlater, hbound⟩

theorem Reaches.mono {more : List Share} (h : Reaches t shares w c δ w' c') (hm : shares ⊆ more) :
    Reaches t more w c δ w' c' :=
  ⟨h.work.mono hm, h.naps⟩

end Reaches

end Client

end TunnelSession
