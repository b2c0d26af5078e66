/-
  A poller in its slot.

  SLOT.  A poller that is started gets the slot of the client, and has it until another one is
  started or it is told to stop.  Only one that has the slot drives (`Client.Sole`).  As long as it
  has the slot, nobody else touches it, and one that is new in the slot was started in that very
  moment (`Client.SlotKept`).

  WORK.  Only two effects touch the slot, the start of a poller and its end (`Effect.slotKept`); so
  all work leaves it alone in this sense, whatever function it is of (`Work.slotKept`).

  TURNS.  The turn of a task is such work, after which the task itself is written
  (`Client.TurnKeepsSlot`); so is what happens from outside, and a caller that gives up.
-/
import TunnelSession.Proofs.Driving
import TunnelSession.Proofs.Dropping
import TunnelSession.Proofs.Resting

namespace TunnelSession

namespace Client

open TunnelSession.Core

variable {w w' w₁ v : Client} {t u : TaskId}

/-- The slot is empty, or has a task. -/
def Slotted (w : Client) : Prop := ∀ t, w.poller = some t → t < w.tasks.length

/-- Only the poller in the slot drives. -/
def Sole (w : Client) : Prop := ∀ t, w.IsDriving t → w.poller = some t

/-- A poller without a period has no look under way. -/
def Paced (w : Client) : Prop :=
  ∀ t p, w.task? t = some (.poller p) → p.period = 0 → p.call = none

/-- The task is a poller that was started at this moment, and has not run. -/
def StartsNow (w : Client) (t : TaskId) : Prop :=
  t ∈ w.ready ∧
    ∃ seen period, w.task? t = some (.poller ⟨false, seen, period, w.now + period, none⟩)

/-- Work that leaves the poller in the slot alone, as long as it is there. -/
structure SlotKept (w w' : Client) : Prop where
  config : w'.config = w.config
  now : w'.now = w.now
  size : w.tasks.length ≤ w'.tasks.length
  slotted : w.Slotted → w'.Slotted
  sole : w.Sole → w'.Sole
  shown : w.published = w.session.state → w'.published = w'.session.state
  ready : w.ready ⊆ w'.ready
  kept : ∀ t, t < w.tasks.length → w'.poller = some t →
    w.poller = some t ∧ w'.task? t = w.task? t
  /-- Who is new in the slot was started just now, and is woken. -/
  born : w.Slotted → ∀ t, w.tasks.length ≤ t → w'.poller = some t → w'.StartsNow t
  paced : w.Paced → w'.Paced

/-- Work in two stretches leaves the slot alone if both do. -/
theorem SlotKept.trans (h : SlotKept w w₁) (h' : SlotKept w₁ w') : SlotKept w w' where
  config := h'.config.trans h.config
  now := h'.now.trans h.now
  size := Nat.le_trans h.size h'.size
  slotted hs := h'.slotted (h.slotted hs)
  sole hs := h'.sole (h.sole hs)
  shown hs := h'.shown (h.shown hs)
  ready := List.Subset.trans h.ready h'.ready
  kept t ht hp := by
    obtain ⟨hp₁, hk₁⟩ := h'.kept t (Nat.lt_of_lt_of_le ht h.size) hp
    obtain ⟨hp₀, hk₀⟩ := h.kept t ht hp₁
    exact ⟨hp₀, hk₁.trans hk₀⟩
  born hs t ht hp := by
    rcases Nat.lt_or_ge t w₁.tasks.length with hlt | hge
    · obtain ⟨hp₁, hk₁⟩ := h'.kept t hlt hp
      obtain ⟨hr, seen, period, hk⟩ := h.born hs t ht hp₁
      exact ⟨h'.ready hr, seen, period, by rw [hk₁, h'.now]; exact hk⟩
    · exact h'.born (h.slotted hs) t hge hp
  paced hs := h'.paced (h.paced hs)

/-- Nothing happens to the slot, and no task is written. -/
theorem SlotKept.of_same (hc : w'.config = w.config) (hn : w'.now = w.now) (ht : w'.tasks = w.tasks)
    (hp : w'.poller = w.poller) (hr : w.ready ⊆ w'.ready)
    (hs : w.published = w.session.state → w'.published = w'.session.state) : SlotKept w w' := by
  have htask : ∀ t, w'.task? t = w.task? t := fun t => congrArg (·[t]?) ht
  refine ⟨hc, hn, Nat.le_of_eq (congrArg List.length ht.symm), fun h t ht' => ?_,
    fun h t hd => ?_, hs, hr, fun t _ ht' => ⟨hp ▸ ht', htask t⟩, fun h t hge ht' => ?_,
    fun h t p hp => h t p ((htask t).symm.trans hp)⟩
  · rw [ht]
    exact h t (hp ▸ ht')
  · unfold IsDriving at hd
    rw [htask] at hd
    rw [hp]
    exact h t hd
  · exact absurd (h t (hp ▸ ht')) (Nat.not_lt.2 hge)

theorem SlotKept.refl (w : Client) : SlotKept w w :=
  .of_same rfl rfl rfl rfl (List.Subset.refl _) id

theorem ConnKept.slotKept (h : ConnKept w w') : SlotKept w w' :=
  .of_same h.config h.now h.tasks h.poller h.ready.subset fun hs => (h.published hs).1

/-- A change of who waits for what. -/
theorem slotKept_with (w : Client) (transition : Lock) (epoch : Nat) (cancellable : List TaskId)
    (bridges : List Bridge) :
    SlotKept w { w with
      transition := transition
      epoch := epoch
      cancellable := cancellable
      bridges := bridges } :=
  .of_same rfl rfl rfl rfl (List.Subset.refl _) id

theorem slotKept_update (w : Client) (f : Session → Session) : SlotKept w (w.update f) := by
  obtain ⟨more, h⟩ := update_eq w f
  rw [h]
  exact .of_same rfl rfl rfl rfl (List.subset_append_left _ _) fun _ => rfl

theorem slotKept_releaseTransition (w : Client) : SlotKept w w.releaseTransition := by
  obtain ⟨more, h⟩ := releaseTransition_eq w
  rw [h]
  exact .of_same rfl rfl rfl rfl (List.subset_append_left _ _) id

theorem slotKept_withdrawTransition (w : Client) (t : TaskId) :
    SlotKept w (w.withdrawTransition t) := by
  obtain ⟨more, h⟩ := withdrawTransition_eq w t
  rw [h]
  exact .of_same rfl rfl rfl rfl (List.subset_append_left _ _) id

theorem slotKept_cancelConnects (w : Client) : SlotKept w w.cancelConnects := by
  obtain ⟨more, h⟩ := cancelConnects_eq w
  rw [h]
  exact .of_same rfl rfl rfl rfl (List.subset_append_left _ _) id

/-! ## Pollers that are started and stopped -/

theorem length_stopIn (old : Option TaskId) (tasks : List Task) :
    (stopIn old tasks).length = tasks.length := by
  cases old with
  | none => rfl
  | some u => exact List.length_modify _ _ _

/-- Who is told to stop keeps its look. -/
theorem look_stopIn {old : Option TaskId} {tasks : List Task} {q : Poller}
    (h : (stopIn old tasks)[u]? = some (.poller q)) :
    ∃ p, tasks[u]? = some (.poller p) ∧ q.period = p.period ∧ q.call = p.call := by
  by_cases ho : old = some u
  · subst ho
    rw [show (stopIn (some u) tasks)[u]? = (tasks.modify u stopped)[u]? from rfl,
      List.getElem?_modify_eq] at h
    obtain ⟨k, hk, hq⟩ := Option.map_eq_some_iff.1 h
    cases k with
    | poller p =>
      cases hq
      exact ⟨p, hk, rfl, rfl⟩
    | command | receiver | worker | ended => cases hq
  · rw [getElem?_stopIn_of_ne ho] at h
    exact ⟨q, h, rfl, rfl⟩

/-- The poller that had the slot is told to stop. -/
theorem slotKept_stopPolling (w : Client) : SlotKept w w.stopPolling := by
  obtain ⟨more, log, h⟩ := stopPolling_eq w
  rw [h]
  refine ⟨rfl, rfl, Nat.le_of_eq (length_stopIn _ _).symm, fun _ => nofun, fun hs t hd => ?_, id,
    List.subset_append_left _ _, fun _ _ => nofun, fun _ _ _ => nofun, fun hs t q hq h0 => ?_⟩
  · obtain ⟨q, hq, hc⟩ := hd
    obtain ⟨p, hp, -, hold⟩ := poller_stopIn hq
    obtain ⟨hne, hpc⟩ := hold hc
    exact absurd (hs t ⟨p, hp, hpc⟩) hne
  · obtain ⟨p, hp, hperiod, hcall⟩ := look_stopIn hq
    exact hcall.trans (hs t p hp (hperiod ▸ h0))

/-- The new poller is woken. -/
theorem mem_ready_startPolling (w : Client) (period : Nat) :
    w.tasks.length ∈ (w.startPolling period).ready := by
  -- the client when the task is there
  let v := (w.spawn (.poller ⟨false, w.version, period, w.now + period, none⟩)).2
  have hended : v.hasEnded w.tasks.length = false := by
    unfold hasEnded
    rw [task?_spawn_self]
    rfl
  have hin : w.tasks.length ∈ (v.wake w.tasks.length).ready :=
    mem_ready_wakeAll (List.mem_singleton.2 rfl) hended
  unfold startPolling
  dsimp only
  cases w.poller with
  | none => exact hin
  | some old =>
    obtain ⟨more, hc⟩ := cancelPoller_eq
      { v.wake w.tasks.length with poller := some w.tasks.length } old
    exact congrArg Client.ready hc ▸ List.mem_append_left more hin

/-- A poller gets the slot, and who had it is told to stop; the new one was started in this
moment. -/
theorem slotKept_startPolling (w : Client) (period : Nat) :
    SlotKept w (w.startPolling period) := by
  have hready := mem_ready_startPolling w period
  obtain ⟨more, log, h⟩ := startPolling_eq w period
  rw [h] at hready ⊢
  have hlength : (stopIn w.poller (w.tasks ++
      [.poller ⟨false, w.version, period, w.now + period, none⟩])).length =
      w.tasks.length + 1 := by
    rw [length_stopIn, List.length_append, List.length_singleton]
  refine ⟨rfl, rfl, ?_, fun _ t ht => ?_, fun hs t hd => ?_, id, List.subset_append_left _ _,
    fun t ht hp => ?_, fun hs t ht hp => ?_, fun hs t q hq h0 => ?_⟩
  · rw [hlength]
    exact Nat.le_succ _
  · rw [hlength]
    cases ht
    exact Nat.lt_succ_self _
  · -- who drives is the new one: the one before it was told to stop
    obtain ⟨q, hq, hc⟩ := hd
    obtain ⟨p, hp, -, hold⟩ := poller_stopIn hq
    obtain ⟨hne, hpc⟩ := hold hc
    rcases poller_append hp with hp | ⟨rfl, -⟩
    · exact absurd (hs t ⟨p, hp, hpc⟩) hne
    · rfl
  · cases hp
    exact absurd ht (Nat.lt_irrefl _)
  · cases hp
    -- the new poller is woken, with a first look a period from now
    refine ⟨hready, w.version, period, (getElem?_stopIn_of_ne fun hold => ?_).trans ?_⟩
    · exact absurd (hs _ hold) (Nat.lt_irrefl _)
    · exact List.getElem?_concat_length
  · -- a period of zero has no look under way, neither in a new poller nor in an old one
    obtain ⟨p, hp, hperiod, hcall⟩ := look_stopIn hq
    rcases poller_append hp with hp | ⟨-, rfl⟩
    · exact hcall.trans (hs t p hp (hperiod ▸ h0))
    · exact hcall

/-! ## Work -/

/-- Every effect leaves the poller in the slot alone, or empties or fills the slot. -/
theorem Effect.slotKept {shares : List Share} (h : Effect t shares w w') : SlotKept w w' := by
  cases h with
  | request | enlist | delist | bridge => exact slotKept_with w _ _ _ _
  | cancel => exact slotKept_cancelConnects w
  | edit => exact slotKept_update w _
  | release => exact slotKept_releaseTransition w
  | withdraw => exact slotKept_withdrawTransition w t
  | start _ period => exact slotKept_startPolling w period
  | stop => exact slotKept_stopPolling w
  | say | raise | lower | turn | disarm | requestWrites =>
    exact (connKept_with w _ _ _ _ _).slotKept
  | arm due => exact (connKept_arm w due t).slotKept
  | releaseWrites => exact (connKept_releaseWrites w).slotKept
  | withdrawWrites =>
    unfold Client.withdrawWrites
    split
    · exact (connKept_releaseWrites w).slotKept
    · exact (connKept_with w _ _ _ _ _).slotKept
  | wake u => exact (connKept_wake w u).slotKept

/-- All work leaves the poller in the slot alone, effect by effect. -/
theorem Work.slotKept {shares : List Share} {c c' : Option OpenCall} {δ : List Deal}
    (h : Work t shares w c δ w' c') : SlotKept w w' := by
  induction h with
  | refl => exact .refl _
  | effect h _ ih => exact h.slotKept.trans ih
  | called op _ ih => exact (connKept_backend _ _).slotKept.trans ih
  | answered ask _ _ ih => exact (connKept_backend _ _).slotKept.trans ih
  | dropped _ ih => exact ih

/-! ## Turns -/

/-- A turn of a task: some work, and then the task is written.  A poller that goes on was one
before, and has a period. -/
structure TurnKeepsSlot (t : TaskId) (w w' : Client) : Prop where
  turn : ∃ v k, SlotKept w v ∧ w' = v.setTask t k ∧
    (∀ q, k = .poller q → q.cancelled = false → v.IsDriving t) ∧
    ∀ q, k = .poller q → q.period ≠ 0

/-- The task that is written is no poller. -/
theorem SlotKept.turnKeepsSlot (h : SlotKept w v) {k : Task} (hk : k.seen? = some k) :
    TurnKeepsSlot t w (v.setTask t k) := by
  refine ⟨v, k, h, rfl, fun q hq => ?_, fun q hq => ?_⟩ <;> subst hq <;> cases hk

/-- A turn of a task that is no poller. -/
theorem TurnEnds.turnKeepsSlot {shares : List Share} {c : Option OpenCall} {δ : List Deal}
    (h : TurnEnds t shares False w c δ w') : TurnKeepsSlot t w w' := by
  obtain ⟨v, k, hr, hw, -, -, hk⟩ := h.turn
  exact ⟨v, k, hr.work.slotKept, hw, fun q hq => (hk q hq).elim, fun q hq => (hk q hq).elim⟩

/-- A poller goes on as it was, or ends: its own turn leaves the slot to it. -/
theorem turnKeepsSlot_runPoller (hs : w.core.Sound) {p : Poller}
    (hp : w.task? t = some (.poller p)) :
    TurnKeepsSlot t { w with ready := w.ready.erase t }
      ({ w with ready := w.ready.erase t }.runPoller t p) := by
  -- without a period it ends; otherwise it watches, and keeps its period
  by_cases h0 : p.period = 0
  · unfold runPoller
    rw [if_pos h0]
    exact (SlotKept.refl _).turnKeepsSlot rfl
  · obtain ⟨p', v, k, hp', hl, hk, hlead, -⟩ := (watch_runPoller hs hp).turn
    obtain rfl : p' = p := by
      cases hp'.symm.trans hp
      rfl
    refine ⟨v, k, hl.slotKept, hk, fun q hq hc => ?_, fun q hq => ?_⟩
    · subst hq
      refine ⟨p', ?_, hlead.1 ▸ hc⟩
      rw [task?, hl.tasks]
      exact hp'
    · subst hq
      exact hlead.2 ▸ h0

end Client

end TunnelSession
