/-
  Work that leaves the connection alone.

  KEPT.  Most of what a task does changes neither the state of the connection nor who waits for
  what; at most it wakes somebody (`ConnKept`).  So it is with every effect that is not on the
  connection, on the line for it or on a bridge, and with all work that has no share of these
  (`Work.connKept`): with every call to the backend, with looks at the statistics, with the catalog,
  the favorites and the settings.
-/
import TunnelSession.Proofs.TurnEffects

namespace TunnelSession

namespace Client

variable {w w' w₁ : Client} {t : TaskId} {shares : List Share}

/-! ## Work that leaves the connection alone -/

/-- Nothing happens to the state, to the connection or to those who wait for it, except that tasks
are woken. -/
structure ConnKept (w w' : Client) : Prop where
  config : w'.config = w.config
  now : w'.now = w.now
  state : w'.session.state = w.session.state
  published : w.published = w.session.state →
    w'.published = w'.session.state ∧ w'.version = w.version
  transition : w'.transition = w.transition
  epoch : w'.epoch = w.epoch
  cancellable : w'.cancellable = w.cancellable
  poller : w'.poller = w.poller
  bridges : w'.bridges = w.bridges
  tasks : w'.tasks = w.tasks
  ready : w.ready <+: w'.ready

theorem ConnKept.refl (w : Client) : ConnKept w w :=
  ⟨rfl, rfl, rfl, fun h => ⟨h, rfl⟩, rfl, rfl, rfl, rfl, rfl, rfl, List.prefix_rfl⟩

/-- If both parts leave the connection alone, so does the whole; the state is then published
throughout, or not at all. -/
theorem ConnKept.trans (h : ConnKept w w₁) (h' : ConnKept w₁ w') : ConnKept w w' where
  config := h'.config.trans h.config
  now := h'.now.trans h.now
  state := h'.state.trans h.state
  published hp :=
    ⟨(h'.published (h.published hp).1).1,
      (h'.published (h.published hp).1).2.trans (h.published hp).2⟩
  transition := h'.transition.trans h.transition
  epoch := h'.epoch.trans h.epoch
  cancellable := h'.cancellable.trans h.cancellable
  poller := h'.poller.trans h.poller
  bridges := h'.bridges.trans h.bridges
  tasks := h'.tasks.trans h.tasks
  ready := h.ready.trans h'.ready

/-- A bridge changes besides. -/
theorem ConnKept.setBridge (h : ConnKept w w') (b : BridgeId) (f : Bridge → Bridge) :
    ConnKept (w.setBridge b f) (w'.setBridge b f) :=
  ⟨h.config, h.now, h.state, h.published, h.transition, h.epoch, h.cancellable, h.poller,
    congrArg (·.modify b f) h.bridges, h.tasks, h.ready⟩

/-- A change of what tasks do not wait for. -/
theorem connKept_with (w : Client) (killSwitch : KillSwitch) (backend : Backend) (writes : Lock)
    (timers : List (Nat × TaskId)) (log : List Notice) :
    ConnKept w { w with
      killSwitch := killSwitch
      backend := backend
      writes := writes
      timers := timers
      log := log } :=
  ⟨rfl, rfl, rfl, fun h => ⟨h, rfl⟩, rfl, rfl, rfl, rfl, rfl, rfl, List.prefix_rfl⟩

/-- Waking makes tasks ready, and nothing else. -/
theorem connKept_wakeAll (w : Client) (ts : List TaskId) : ConnKept w (w.wakeAll ts) := by
  obtain ⟨more, h⟩ := wakeAll_eq w ts
  rw [h]
  exact ⟨rfl, rfl, rfl, fun h => ⟨h, rfl⟩, rfl, rfl, rfl, rfl, rfl, rfl, List.prefix_append _ _⟩

theorem connKept_wake (w : Client) (t : TaskId) : ConnKept w (w.wake t) := connKept_wakeAll w [t]

theorem connKept_say (w : Client) (n : Notice) : ConnKept w (w.say n) := connKept_with w _ _ _ _ _

theorem connKept_backend (w : Client) (b : Backend) : ConnKept w { w with backend := b } :=
  connKept_with w _ _ _ _ _

theorem connKept_disarm (w : Client) (t : TaskId) :
    ConnKept w (w.disarm t) := connKept_with w _ _ _ _ _

/-- A timer is no business of the connection. -/
theorem connKept_arm (w : Client) (due : Nat) (t : TaskId) : ConnKept w (w.arm due t) := by
  unfold arm
  split
  · exact .refl _
  · exact connKept_with w _ _ _ _ _

theorem connKept_lowerTunnel (w : Client) : ConnKept w w.lowerTunnel := connKept_with w _ _ _ _ _

/-- The kill switch is told of the tunnel, which is not the state. -/
theorem connKept_raiseTunnel (w : Client) : ConnKept w w.raiseTunnel := connKept_with w _ _ _ _ _

theorem connKept_setKillSwitch (w : Client) (on : Bool) : ConnKept w (w.setKillSwitch on) :=
  connKept_with w _ _ _ _ _

theorem connKept_releaseWrites (w : Client) : ConnKept w w.releaseWrites :=
  (connKept_with w w.killSwitch w.backend w.writes.release w.timers w.log).trans
    (connKept_wakeAll _ _)

/-- A change of the session that leaves the state alone. -/
theorem connKept_update (w : Client) {f : Session → Session} (hf : (f w.session).state =
    w.session.state) : ConnKept w (w.update f) := by
  obtain ⟨more, h⟩ := update_eq w f
  rw [h]
  refine ⟨rfl, rfl, hf, fun hp => ⟨rfl, ?_⟩, rfl, rfl, rfl, rfl, rfl, rfl, List.prefix_append _ _⟩
  exact if_pos (hf.trans hp.symm)

/-! ### Effects and work -/

/-- The connection, the line for it and the bridges are none of these shares. -/
def OffConnection (shares : List Share) : Prop :=
  .connection ∉ shares ∧ .line ∉ shares ∧ .bridges ∉ shares

instance (shares : List Share) : Decidable (OffConnection shares) :=
  inferInstanceAs (Decidable (_ ∧ _))

/-- Only effects on the connection, on the line for it and on the bridges do not leave it alone: all
others write parts of the client that the connection is not made of. -/
theorem Effect.connKept (h : Effect t shares w w') (hs : OffConnection shares) :
    ConnKept w w' := by
  obtain ⟨hc, hl, hb⟩ := hs
  cases h with
  | say | disarm | requestWrites => exact connKept_with w _ _ _ _ _
  | turn => exact connKept_setKillSwitch w _
  | @edit s f hs hf =>
    -- of the session only the connection's part has the state
    refine connKept_update w ?_
    cases s with
    | connection => exact absurd hs hc
    | statistics | settings | catalog => rw [hf w.session]
    | line | bridges => exact hf.elim
  | raise hs | lower hs => exact absurd hs hc
  | request hs | release hs | withdraw hs | cancel hs | enlist hs | delist hs | stop hs =>
    exact absurd hs hl
  | start hs => exact absurd hs hl
  | bridge hs => exact absurd hs hb
  | arm due => exact connKept_arm w due t
  | releaseWrites => exact connKept_releaseWrites w
  | withdrawWrites =>
    unfold Client.withdrawWrites
    split
    · exact connKept_releaseWrites w
    · exact connKept_with w _ _ _ _ _
  | wake u => exact connKept_wake w u

/-- Work that has no share of the connection leaves it alone, by induction on its effects. What the
backend is called for and answers is not part of the connection. -/
theorem Work.connKept {c c' : Option OpenCall} {δ : List Deal} (h : Work t shares w c δ w' c')
    (hs : OffConnection shares) : ConnKept w w' := by
  induction h with
  | refl => exact .refl _
  | effect h _ ih => exact (h.connKept hs).trans ih
  | called | answered => exact (connKept_backend _ _).trans ‹ConnKept _ _›
  | dropped _ ih => exact ih

/-! ### Functions -/

section Functions

variable {α : Type}

/-- A call to the backend has no share at all. -/
theorem connKept_startCall (w : Client) (t : TaskId) (ask : Ask α) :
    ConnKept w (w.startCall t ask).1 :=
  have h : Reaches t [] w none _ _ _ := reaches_startCall w t ask
  h.work.connKept (by decide)

theorem connKept_resumeCall (w : Client) (t : TaskId) (call : Call α) :
    ConnKept w (w.resumeCall t call).1 :=
  have h : Reaches t [] w _ _ _ _ := reaches_resumeCall w t call
  h.work.connKept (by decide)

/-- A look commits statistics, which say nothing of the state. -/
theorem connKept_fetchStats (w : Client) (t : TaskId) : ConnKept w (w.fetchStats t).1 :=
  (reaches_fetchStats w t).work.connKept (by decide)

theorem connKept_resumeStats (w : Client) (t : TaskId) (call : Call Stats) :
    ConnKept w (w.resumeStats t call).1 :=
  (reaches_resumeStats w t call).work.connKept (by decide)

/-- The servers are the catalog's. -/
theorem connKept_commitCatalog (w : Client) (t : TaskId) (a : Except BackendError (List Server)) :
    ConnKept w (w.commitCatalog a).1 :=
  (work_commitCatalog w t a).connKept (by decide)

/-- A command of another component than the connection's leaves the connection alone. -/
theorem connKept_runPoint (w : Client) (t : TaskId) {p : Point} (h : OffConnection p.shares) :
    ConnKept w (w.runPoint t p).1 :=
  (reaches_runPoint w t p).work.connKept h

/-- To wake a worker is no change of its bridge. -/
theorem connKept_wakeWorker (w : Client) (bridge : Bridge) : ConnKept w (w.wakeWorker bridge) :=
  have h : Work 0 [] w none [] _ none := work_wakeWorker w 0 bridge
  h.connKept (by decide)

theorem connKept_reportJob (w : Client) (r : Request) (s : Settled) :
    ConnKept w (w.reportJob r s) :=
  have h : Work 0 [] w none [] _ none := work_reportJob w 0 r s
  h.connKept (by decide)

theorem connKept_reportLook (w : Client) (kept : Bool) : ConnKept w (w.reportLook kept) :=
  have h : Work 0 [] w none [] _ none := work_reportLook w 0 kept
  h.connKept (by decide)

end Functions

end Client

end TunnelSession
