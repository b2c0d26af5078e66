/-
  What every deed keeps.

  SLOT.  A deed visits the task that it gives a turn to or drops.  Any other poller stays what it is
  as long as it has the slot, and one that gets it was started in that very deed
  (`Client.DeedKeepsSlot`).

  WAKERS.  What others do leaves a task its timers, and its place among those who are ready
  (`Client.Heeds`).

  STEADY.  The invariants that a run of deeds has at every point: its core is sound, the kill switch
  mirrors the session, everybody is assured of a turn, only the poller in the slot drives, and the
  publication is of the state (`Client.Steady`).
-/
import TunnelSession.Proofs.PollerSlot

namespace TunnelSession

/-- Whom the deed gives a turn to or drops, of those that are there. -/
def Deed.visits : Deed → Option TaskId
  | .event (.poll t) | .drop t => some t
  | _ => none

/-- How much time passes. -/
def Deed.lapse : Deed → Nat
  | .event (.pass ms) => ms
  | _ => 0

namespace Client

open TunnelSession.Core

variable {w w' w₁ v : Client} {t u : TaskId} {d : Deed}

/-! ## The slot -/

/-- What happens to the slot, if nobody but `visited` has a turn of those that are there. -/
structure DeedKeepsSlot (visited : Option TaskId) (w w' : Client) : Prop where
  config : w'.config = w.config
  slotted : w.Slotted → w'.Slotted
  sole : w.Sole → w'.Sole
  shown : w.published = w.session.state → w'.published = w'.session.state
  kept : ∀ t, t < w.tasks.length → w'.poller = some t →
    w.poller = some t ∧ (visited ≠ some t → w'.task? t = w.task? t)
  born : w.Slotted → ∀ t, w.tasks.length ≤ t → w'.poller = some t → w'.StartsNow t
  paced : w.Paced → w'.Paced

/-- What leaves the slot alone visits nobody. -/
theorem SlotKept.deedKeepsSlot (h : SlotKept w w') (visited : Option TaskId) :
    DeedKeepsSlot visited w w' where
  config := h.config
  slotted := h.slotted
  sole := h.sole
  shown := h.shown
  kept t ht hp := (h.kept t ht hp).imp_right fun hk _ => hk
  born := h.born
  paced := h.paced

/-- A turn visits its task: whatever that becomes, the others stay what they are. -/
theorem TurnKeepsSlot.deedKeepsSlot (h : TurnKeepsSlot t w w') (ht : t < w.tasks.length) :
    DeedKeepsSlot (some t) w w' := by
  obtain ⟨v, k, hr, rfl, hk, hperiod⟩ := h.turn
  have hlt : t < v.tasks.length := Nat.lt_of_lt_of_le ht hr.size
  refine ⟨hr.config, fun hs u hu => ?_, fun hs u hd => ?_, hr.shown, fun u hu hp => ?_,
    fun hs u hu hp => ?_, fun hs u q hq h0 => ?_⟩
  · rw [show (v.setTask t k).tasks.length = v.tasks.length from List.length_set]
    exact hr.slotted hs u hu
  · refine hr.sole hs u ?_
    obtain ⟨q, hq, hc⟩ := hd
    rw [task?_setTask v k u hlt] at hq
    split at hq
    · rename_i he
      cases hq
      exact he ▸ hk q rfl hc
    · exact ⟨q, hq, hc⟩
  · obtain ⟨hp', hk'⟩ := hr.kept u hu hp
    exact ⟨hp', fun hne => (task?_setTask_of_ne v k fun he => hne (by rw [he])).trans hk'⟩
  · have hne : u ≠ t := Nat.ne_of_gt (Nat.lt_of_lt_of_le ht hu)
    obtain ⟨hready, seen, period, hb⟩ := hr.born hs u hu hp
    exact ⟨hready, seen, period, (task?_setTask_of_ne v k hne).trans hb⟩
  · rw [task?_setTask v k u hlt] at hq
    split at hq
    · exact absurd h0 (hperiod q (Option.some.inj hq))
    · exact hr.paced hs u q hq h0

/-- A task that is no poller is added; others are woken, and time passes: nobody is visited. -/
theorem Outer.deedKeepsSlot {e : Event} (h : Outer e w w') (he : ¬ e.Drives) :
    DeedKeepsSlot none w w' := by
  obtain ⟨more, hm, hk⟩ := h.tasks he
  have hp := h.poller he
  have hold : ∀ t, t < w.tasks.length → w'.task? t = w.task? t := fun t ht => by
    rw [task?, hm, List.getElem?_append_left ht]
    rfl
  refine ⟨h.config, fun hs t ht => ?_, fun hs t hd => ?_, fun hs => ?_, fun t ht ht' =>
    ⟨hp ▸ ht', fun _ => hold t ht⟩, fun hs t hge ht' => ?_, fun hs t q hq => ?_⟩
  · rw [hm, List.length_append]
    exact Nat.lt_add_right _ (hs t (hp ▸ ht))
  · obtain ⟨q, hq, hc⟩ := hd
    rw [hp]
    rcases Nat.lt_or_ge t w.tasks.length with hlt | hge
    · exact hs t ⟨q, (hold t hlt).symm.trans hq, hc⟩
    · rw [task?, hm, List.getElem?_append_right hge] at hq
      cases hk _ (List.mem_of_getElem? hq)
  · rw [h.published, h.session]
    exact hs
  · exact absurd (hs t (hp ▸ ht')) (Nat.not_lt.2 hge)
  · rcases Nat.lt_or_ge t w.tasks.length with hlt | hge
    · exact hs t q ((hold t hlt).symm.trans hq)
    · rw [task?, hm, List.getElem?_append_right hge] at hq
      cases hk _ (List.mem_of_getElem? hq)

/-- A task has a turn, if it is there. -/
theorem deedKeepsSlot_poll (hs : w.core.Sound) (t : TaskId) :
    DeedKeepsSlot (some t) w (w.poll t) := by
  -- who is ready does not matter
  suffices h : DeedKeepsSlot (some t) { w with ready := w.ready.erase t } (w.poll t) from
    ⟨h.config, h.slotted, h.sole, h.shown, h.kept, h.born, h.paced⟩
  unfold poll
  cases hk : w.task? t with
  | none =>
    unfold run
    rw [show ({ w with ready := w.ready.erase t } : Client).task? t = none from hk]
    exact (SlotKept.refl _).deedKeepsSlot _
  | some k =>
    have hlt : t < w.tasks.length := (List.getElem?_eq_some_iff.1 hk).1
    by_cases hp : ∃ p, k = .poller p
    · obtain ⟨p, rfl⟩ := hp
      unfold run
      rw [show ({ w with ready := w.ready.erase t } : Client).task? t = _ from hk]
      exact (turnKeepsSlot_runPoller hs hk).deedKeepsSlot hlt
    · -- what is no poller does not become one
      exact ((turnEnds_run (w := { w with ready := w.ready.erase t }) hk).imp
        hp).turnKeepsSlot.deedKeepsSlot hlt

/-- A command begins at once: it is added, and its first turn visits only itself, which is new. -/
theorem deedKeepsSlot_call (w : Client) (c : Command) : DeedKeepsSlot none w (w.call c) := by
  have hspawn : DeedKeepsSlot none w (w.spawn (.command (.fresh c))).2 :=
    (outer_spawn (.go c) w rfl).deedKeepsSlot id
  have hlength : (w.spawn (.command (.fresh c))).2.tasks.length = w.tasks.length + 1 :=
    List.length_append
  have hlt : w.tasks.length < (w.spawn (.command (.fresh c))).2.tasks.length :=
    hlength ▸ Nat.lt_succ_self _
  have h : DeedKeepsSlot (some w.tasks.length) (w.spawn (.command (.fresh c))).2 (w.call c) := by
    show DeedKeepsSlot _ _ ((w.spawn (.command (.fresh c))).2.run w.tasks.length)
    unfold run
    rw [task?_spawn_self]
    exact (turnEnds_runCommand _ _ _).turnKeepsSlot.deedKeepsSlot hlt
  refine ⟨h.config, fun hs => h.slotted (hspawn.slotted hs), fun hs => h.sole (hspawn.sole hs),
    h.shown, fun t ht hp => ?_, fun hs t ht hp => ?_, fun hs => h.paced (hspawn.paced hs)⟩
  · obtain ⟨hp', hk⟩ := h.kept t (Nat.lt_trans ht hlt) hp
    refine ⟨hp', fun _ => (hk fun he => ?_).trans ((hspawn.kept t ht hp').2 nofun)⟩
    exact Nat.ne_of_gt ht (Option.some.inj he)
  · rcases Nat.lt_or_eq_of_le ht with hgt | rfl
    · exact h.born (hspawn.slotted hs) t (hlength ▸ hgt) hp
    · -- the slot had no such task before the command was there
      exact absurd (hs _ (h.kept _ hlt hp).1) (Nat.lt_irrefl _)

theorem deedKeepsSlot_abort (w : Client) (t : TaskId) : DeedKeepsSlot (some t) w (w.abort t) := by
  unfold abort
  split
  · rename_i p hk
    exact ((work_dropPoint w t p).slotKept.turnKeepsSlot rfl).deedKeepsSlot
      (List.getElem?_eq_some_iff.1 hk).1
  · exact (SlotKept.refl w).deedKeepsSlot _

/-- What is no turn visits nobody, be the poller started or stopped by hand in it. -/
theorem deedKeepsSlot_quiet (w : Client) {e : Event} (he : e.IsQuiet) :
    DeedKeepsSlot none w (w.happen e) := by
  by_cases hd : e.Drives
  · cases e with
    | startPolling period => exact (slotKept_startPolling w period).deedKeepsSlot _
    | stopPolling => exact (slotKept_stopPolling w).deedKeepsSlot _
    | _ => cases hd
  · exact (outer_happen w he).deedKeepsSlot hd

/-- Every deed keeps the slot of the poller for whom it does not visit: an event by what its turns
keep, a caller that gives up by what it hands back. -/
theorem deedKeepsSlot_does (hs : w.core.Sound) (d : Deed) :
    DeedKeepsSlot d.visits w (w.does d) := by
  cases d with
  | drop t => exact deedKeepsSlot_abort w t
  | event e =>
    show DeedKeepsSlot _ w (w.happen e)
    cases e with
    | call c => exact deedKeepsSlot_call w c
    | poll t => exact deedKeepsSlot_poll hs t
    | _ => exact deedKeepsSlot_quiet w trivial

/-! ## Time and wakers -/

/-- Something leaves a task its timers, and its place among those who are ready. -/
structure Heeds (t : TaskId) (w w' : Client) : Prop where
  timers : ∀ due, (due, t) ∈ w.timers → (due, t) ∈ w'.timers
  ready : t ∈ w.ready → t ∈ w'.ready

/-- The turn of another task. -/
theorem Parked.heeds (h : Parked u w w') (hu : t ≠ u) : Heeds t w w' := by
  obtain ⟨v, k, hc, rfl, -⟩ := h.turn
  exact ⟨fun due => hc.timers t due hu, (hc.ready ·)⟩

theorem Parked.now (h : Parked t w w') : w'.now = w.now := by
  obtain ⟨v, k, hc, rfl, -⟩ := h.turn
  exact hc.now

/-- A turn leaves all but its task parked, if everybody is assured of a turn. -/
theorem AllAssured.parked_poll (h : w.AllAssured) (t : TaskId) :
    Parked t { w with ready := w.ready.erase t } (w.poll t) := by
  refine parked_run _ t fun k due hk hd => (h t).short due ?_
  unfold Client.sleep?
  rw [show w.task? t = some k from hk]
  exact hd

theorem parked_call (w : Client) (c : Command) :
    Parked w.tasks.length (w.spawn (.command (.fresh c))).2 (w.call c) := by
  refine parked_run _ _ fun k due hk hd => ?_
  rw [task?_spawn_self] at hk
  cases hk
  cases hd

/-- Who is dropped leaves all others parked, if there was anything to drop. -/
theorem parked_abort (w : Client) (t : TaskId) : w.abort t = w ∨ Parked t w (w.abort t) := by
  unfold abort
  split
  · exact .inr ((work_dropPoint w t _).othersKept.parked trivial)
  · exact .inl rfl

/-- Every deed leaves everybody assured of a turn. -/
theorem AllAssured.does (h : w.AllAssured) (d : Deed) : (w.does d).AllAssured := by
  cases d with
  | event e => exact h.happen e
  | drop t =>
    rcases parked_abort w t with hw | hw
    · show (w.abort t).AllAssured
      rw [hw]
      exact h
    · exact hw.assured fun u _ => h u

/-- Time passes only when it is let pass. -/
theorem now_does (h : w.AllAssured) (d : Deed) : (w.does d).now = w.now + d.lapse := by
  cases d with
  | drop t =>
    rcases parked_abort w t with hw | hw
    · exact congrArg Client.now hw
    · exact hw.now
  | event e =>
    show (w.happen e).now = _
    have hquiet : e.IsQuiet → (∀ ms, e ≠ .pass ms) → (w.happen e).now = w.now :=
      fun he => (outer_happen w he).now
    cases e with
    | call c => exact (parked_call w c).now
    | poll t => exact (h.parked_poll t).now
    | pass ms =>
      -- time moves on by what is let pass, and wakes whose timers are due
      obtain ⟨more, hw⟩ := tickTo_eq w (w.now + ms)
      exact congrArg Client.now hw
    | _ => exact hquiet trivial nofun

/-- No deed changes the latency of the backend. -/
theorem latency_does (hs : w.core.Sound) (d : Deed) :
    (w.does d).backend.latency = w.backend.latency := by
  cases d with
  | event e => exact latency_after hs [e]
  | drop t =>
    rcases parked_abort w t with hw | hw
    · exact congrArg (·.backend.latency) hw
    · obtain ⟨v, k, hc, hv, -⟩ := hw.turn
      exact (congrArg (·.backend.latency) hv).trans hc.latency

theorem timers_wake (w : Client) (t : TaskId) : (w.wake t).timers = w.timers := by
  obtain ⟨more, h⟩ := wake_eq w t
  rw [h]

/-- Who is woken for a bridge has no timer set by that. -/
theorem BridgeWrite.timers (h : BridgeWrite w b w') : w'.timers = w.timers := by
  cases h with
  | nothing | change => rfl
  | rouse => exact timers_wake _ _

/-- Outside of turns timers change only when their time comes: to wake, to spawn and to tell
somebody to stop set none. -/
theorem timers_quiet (w : Client) {e : Event} (he : e.IsQuiet) (hp : ∀ ms, e ≠ .pass ms) :
    (w.happen e).timers = w.timers := by
  cases e with
  | call | poll => cases he
  | pass ms => exact absurd rfl (hp ms)
  | go c => exact timers_wake _ _
  | fail | pin => rfl
  | startPolling period =>
    obtain ⟨more, log, h⟩ := startPolling_eq w period
    show (w.startPolling period).timers = _
    rw [h]
  | stopPolling =>
    obtain ⟨more, log, h⟩ := stopPolling_eq w
    show w.stopPolling.timers = _
    rw [h]
  | openBridge => exact (timers_wake _ _).trans (timers_wake _ _)
  | deactivate | dropSender | dropPages | takePages | send =>
    exact (bridgeWrite_happen w rfl).timers

/-- A deed that leaves a task alone leaves its wakers: its timers, and its place among the ready. -/
theorem heeds_does (h : w.AllAssured) (ht : t < w.tasks.length) {d : Deed}
    (hd : d.visits ≠ some t) (hl : ∀ ms, d ≠ .event (.pass ms)) : Heeds t w (w.does d) := by
  cases d with
  | drop u =>
    rcases parked_abort w u with hw | hw
    · show Heeds t w (w.abort u)
      rw [hw]
      exact ⟨fun _ => id, id⟩
    · exact hw.heeds fun he => hd (congrArg some he.symm)
  | event e =>
    show Heeds t w (w.happen e)
    have hquiet : e.IsQuiet → (∀ ms, e ≠ .pass ms) → Heeds t w (w.happen e) := fun he hp =>
      ⟨fun due hin => (timers_quiet w he hp).symm ▸ hin,
        ((outer_happen w he).ready.subset ·)⟩
    cases e with
    | call c =>
      obtain ⟨hm, hr⟩ := (parked_call w c).heeds (Nat.ne_of_lt ht)
      exact ⟨hm, hr⟩
    | poll u =>
      -- the turn of another, who is taken from the ready, and not this one
      have hne : t ≠ u := fun he => hd (congrArg some he.symm)
      obtain ⟨hm, hr⟩ := (h.parked_poll u).heeds hne
      exact ⟨hm, fun hin => hr ((List.mem_erase_of_ne hne).2 hin)⟩
    | pass ms => exact absurd rfl (hl ms)
    | _ => exact hquiet trivial nofun

/-! ## Runs -/

/-- What holds at every point of a run. -/
structure Steady (w : Client) : Prop where
  sound : w.core.Sound
  mirrors : w.core.Mirrors
  assured : w.AllAssured
  slotted : w.Slotted
  sole : w.Sole
  shown : w.published = w.session.state

theorem Steady.does (h : w.Steady) (d : Deed) : (w.does d).Steady where
  sound := (kept_does h.sound h.mirrors d).1
  mirrors := (kept_does h.sound h.mirrors d).2
  assured := h.assured.does d
  slotted := (deedKeepsSlot_does h.sound d).slotted h.slotted
  sole := (deedKeepsSlot_does h.sound d).sole h.sole
  shown := (deedKeepsSlot_does h.sound d).shown h.shown

theorem Steady.doing (h : w.Steady) (deeds : List Deed) : (w.doing deeds).Steady := by
  induction deeds generalizing w with
  | nil => exact h
  | cons d deeds ih => exact ih (h.does d)

theorem Steady.latency_doing (h : w.Steady) (deeds : List Deed) :
    (w.doing deeds).backend.latency = w.backend.latency := by
  induction deeds generalizing w with
  | nil => rfl
  | cons d deeds ih => exact (ih (h.does d)).trans (latency_does h.sound d)

theorem Steady.config_doing (h : w.Steady) (deeds : List Deed) :
    (w.doing deeds).config = w.config := by
  induction deeds generalizing w with
  | nil => rfl
  | cons d deeds ih => exact (ih (h.does d)).trans (deedKeepsSlot_does h.sound d).config

/-- A new client over a backend that holds nothing back is steady. -/
theorem steady_make (config : Config) {backend : Backend} (hb : backend.Prompt) :
    (make config backend).Steady where
  sound := sound_make config hb
  mirrors := mirrors_make config backend
  assured := allAssured_make config backend
  slotted _ := nofun
  sole _ hd := nomatch hd
  shown := rfl

end Client

end TunnelSession
