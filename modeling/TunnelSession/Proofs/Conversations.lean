/-
  The calls of one task.

  CONVERSATIONS.  A run is read as the list of all that passed between the tasks and the backend
  (`Client.dealings`), and of the failures that were scripted meanwhile.  What one task says in it
  has a fixed form (`Converses`): it calls when it has no call under way, and the next it has to do
  with the backend is the answer of that call, not before its latency is over, or that it drops it.
  So a call comes to one end, and nothing reaches a call that was dropped.

  WORK.  Whatever a task does, its deals carry it from the call it had under way to the call it has
  then (`Client.Speaks`): that is so of all work, whose deals stand in this order (`Work.speaks`).
-/
import TunnelSession.Proofs.Deeds

namespace TunnelSession

/-! ## What is under way -/

/-- The call that the task of a number waits for. -/
def Client.underWay (w : Client) (t : TaskId) : Option OpenCall := (w.task? t).bind Task.pending?

theorem Client.underWay_of_task? {w : Client} {t : TaskId} {k : Task} (h : w.task? t = some k) :
    w.underWay t = k.pending? := by
  unfold underWay
  rw [h]
  rfl

/-- The call that a task waits for, as a core has it. -/
def Core.underWay (c : Core) (t : TaskId) : Option OpenCall :=
  ((c.entry t).bind Task.pending?).or ((c.looking t).bind Call.pending?)

/-- The core knows it, since it sees all stages and the looks of the pollers. -/
theorem Client.underWay_eq (w : Client) (t : TaskId) : w.underWay t = w.core.underWay t := by
  show (w.task? t).bind Task.pending? =
    (((w.task? t).bind Task.seen?).bind Task.pending?).or
      (((w.task? t).bind Task.look?).bind Call.pending?)
  cases w.task? t with
  | none => rfl
  | some k => cases k <;> simp [Task.seen?, Task.look?, Task.pending?]

/-- A new task that has no call under way. -/
theorem Core.underWay_write {c : Core} {t : TaskId} {k : Task}
    (h : c.entry t = none ∧ c.looking t = none) (hk : k.pending? = none) (u : TaskId) :
    (c.write t k).underWay u = c.underWay u := by
  unfold underWay
  show ((Function.update c.entry t (some k) u).bind _).or ((c.looking u).bind _) = _
  by_cases hu : u = t
  · subst hu
    rw [Function.update_self, h.1, h.2, Option.bind_some, hk]
    rfl
  · rw [Function.update_of_ne hu]

/-- Whatever happens from outside, everybody waits for the same calls. -/
theorem Core.Outside.underWay {c c' : Core} {e : Event} (hs : c.Sound) (h : Core.Outside c e c')
    (u : TaskId) : c'.underWay u = c.underWay u := by
  have hsize := hs.small c.size (Nat.le_refl _)
  cases h with
  | call command | go command =>
    exact underWay_write (c := { c with size := c.size + 1 }) hsize rfl u
  | @openBridge bridge hw hj =>
    have hnext := hs.small (c.size + 1) (Nat.le_succ _)
    -- the core when the worker is there
    let c₁ : Core := Core.write { c with
      size := c.size + 2
      bridges := c.bridges ++ [bridge] } c.size (.worker c.bridges.length none)
    have hworker : c₁.underWay u = c.underWay u :=
      underWay_write (c := { c with size := c.size + 2, bridges := c.bridges ++ [bridge] }) hsize
        rfl u
    have hfree : c₁.entry (c.size + 1) = none :=
      (Function.update_of_ne (Nat.succ_ne_self _) _ _).trans hnext.1
    exact (underWay_write (c := c₁) ⟨hfree, hnext.2⟩ rfl u).trans hworker
  | pass | fail | pin | startPolling | stopPolling | bridge => rfl

/-! ## What is said -/

/-- What happens at a backend: a failure is scripted, or a task deals with it at some time. -/
inductive Dealing where
  | scripted (op : Operation) (e : BackendError)
  | deal (t : TaskId) (now : Nat) (deal : Deal)

/-- What a task says among all others, from the call it has under way to the one it has then. -/
inductive Converses (latency : Nat) (t : TaskId) :
    Option OpenCall → List Dealing → Option OpenCall → Prop
  | nil (c : Option OpenCall) : Converses latency t c [] c
  | called {now : Nat} {op : Operation} {ε : List Dealing} {c : Option OpenCall}
    (h : Converses latency t (some ⟨op, now + latency⟩) ε c) :
    Converses latency t none (.deal t now (.called op) :: ε) c
  | answered {now due : Nat} {op : Operation} {result : Except BackendError Unit}
    {ε : List Dealing} {c : Option OpenCall} (hd : due ≤ now) (h : Converses latency t none ε c) :
    Converses latency t (some ⟨op, due⟩) (.deal t now (.answered op now result) :: ε) c
  | dropped {now due : Nat} {op : Operation} {ε : List Dealing} {c : Option OpenCall}
    (h : Converses latency t none ε c) :
    Converses latency t (some ⟨op, due⟩) (.deal t now (.dropped op) :: ε) c
  | scripted {op : Operation} {e : BackendError} {ε : List Dealing} {c c' : Option OpenCall}
    (h : Converses latency t c ε c') : Converses latency t c (.scripted op e :: ε) c'
  | other {u : TaskId} {now : Nat} {d : Deal} {ε : List Dealing} {c c' : Option OpenCall}
    (hu : u ≠ t) (h : Converses latency t c ε c') :
    Converses latency t c (.deal u now d :: ε) c'

section Converses

variable {latency : Nat} {t u : TaskId} {c c₁ c' : Option OpenCall} {ε ζ : List Dealing}

/-- A task that goes on talking has one conversation. -/
theorem Converses.trans (h : Converses latency t c ε c₁) (h' : Converses latency t c₁ ζ c') :
    Converses latency t c (ε ++ ζ) c' := by
  induction h with
  | nil => exact h'
  | called _ ih => exact .called (ih h')
  | answered hd _ ih => exact .answered hd (ih h')
  | dropped _ ih => exact .dropped (ih h')
  | scripted _ ih => exact .scripted (ih h')
  | other hu _ ih => exact .other hu (ih h')

/-- What another task deals is nothing to this one. -/
theorem Converses.others (hu : u ≠ t) (now : Nat) (δ : List Deal) :
    Converses latency t c (δ.map (.deal u now)) c := by
  induction δ with
  | nil => exact .nil c
  | cons d δ ih => exact .other hu ih

end Converses

namespace Client

variable {w v : Client} {t u : TaskId} {c c₁ c' : Option OpenCall} {δ ε : List Deal}

/-- What is dealt in a turn of a task carries it from one call under way to another. -/
def Speaks (w : Client) (t : TaskId) (c : Option OpenCall) (δ : List Deal)
    (c' : Option OpenCall) : Prop :=
  Converses w.backend.latency t c (δ.map (.deal t w.now)) c'

/-- A turn in which only this task changes is as good as another one for what it says. -/
theorem Speaks.behind (h : v.Speaks t c δ c') (hc : OthersKept t w v) : w.Speaks t c δ c' := by
  unfold Speaks at h ⊢
  rwa [hc.now, hc.latency] at h

theorem Speaks.nil (w : Client) (t : TaskId) (c : Option OpenCall) : w.Speaks t c [] c :=
  Converses.nil c

/-! ## Work -/

/-- The deals of all work, in order. -/
theorem Work.speaks {shares : List Share} (h : Work t shares w c δ v c') : w.Speaks t c δ c' := by
  induction h with
  | refl => exact .nil _ t _
  | effect h _ ih => exact ih.behind h.othersKept
  | called op _ ih => exact .called ih
  | answered ask hd _ ih =>
    refine .answered hd (ih.behind (othersKept_backend t _ ?_))
    exact (Backend.answer_frame _ _ ask).2.2.1
  | dropped _ ih => exact .dropped ih

/-! ## Turns -/

theorem underWay_setTask (k : Task) (ht : t < w.tasks.length) :
    (w.setTask t k).underWay t = k.pending? := by
  apply underWay_of_task?
  rw [task?_setTask w k t ht, if_pos rfl]

/-- Who is not at a call any more has none under way, whether it is there or not. -/
theorem underWay_setTask_none (w : Client) {k : Task} (hk : k.pending? = none) :
    (w.setTask t k).underWay t = none := by
  rcases Nat.lt_or_ge t w.tasks.length with ht | ht
  · rw [underWay_setTask k ht, hk]
  · have hnone : w.task? t = none := List.getElem?_eq_none ht
    rw [setTask_of_none k hnone, underWay, hnone]
    rfl

/-- Work writes no task until it is over, so everybody waits for the calls they waited for. -/
theorem OthersKept.underWay (h : OthersKept t w v) (u : TaskId) : v.underWay u = w.underWay u := by
  rw [underWay_eq, underWay_eq, Core.underWay, h.entry, h.looking]
  rfl

/-- The turn of another task. -/
theorem Parked.underWay (h : Parked t w v) (hu : u ≠ t) : v.underWay u = w.underWay u := by
  obtain ⟨w', k, hc, rfl, -⟩ := h.turn
  rw [← hc.underWay u]
  unfold Client.underWay
  rw [task?_setTask_of_ne w' k hu]

/-- A turn carries its task from the call it had to the call it has. -/
theorem speaks_run (hp : w.Paced) :
    w.Speaks t (w.underWay t) (w.turnDeals t) ((w.run t).underWay t) := by
  cases hk : w.task? t with
  | none =>
    unfold run turnDeals
    rw [hk]
    exact .nil w t _
  | some k =>
    obtain ⟨v, k', hr, hw, -⟩ := (turnEnds_run hk).turn
    have ht : t < v.tasks.length :=
      Nat.lt_of_lt_of_le (List.getElem?_eq_some_iff.1 hk).1 hr.work.slotKept.size
    rw [hw, underWay_setTask k' ht, underWay_of_task? hk,
      ← Task.resumes?_eq fun p he => hp t p (he ▸ hk)]
    exact hr.work.speaks

/-! ## Runs -/

/-- What a caller deals that drops its command where it waits. -/
def dropDeals (w : Client) (t : TaskId) : List Deal :=
  match w.task? t with
  | some (.command p) => (p.pending?.map fun c => Deal.dropped c.op).toList
  | _ => []

/-- What happens at the backend in a deed. -/
def dealingsOf (w : Client) : Deed → List Dealing
  | .event (.fail op e) => [.scripted op e]
  | .event (.call c) => (w.dealsOf (.call c)).map (.deal w.tasks.length w.now)
  | .event (.poll t) => (w.dealsOf (.poll t)).map (.deal t w.now)
  | .event _ => []
  | .drop t => (w.dropDeals t).map (.deal t w.now)

/-- What happens at the backend in a run, in order. -/
def dealings (w : Client) : List Deed → List Dealing
  | [] => []
  | d :: deeds => w.dealingsOf d ++ (w.does d).dealings deeds

/-- A caller that drops its command drops the call that it waits for. -/
theorem speaks_abort (w : Client) (t : TaskId) :
    w.Speaks t (w.underWay t) (w.dropDeals t) ((w.abort t).underWay t) := by
  unfold dropDeals abort
  cases hk : w.task? t with
  | none => exact .nil w t _
  | some k =>
    cases k with
    | command p =>
      dsimp only
      rw [underWay_of_task? hk, underWay_setTask_none _ rfl]
      exact (work_dropPoint w t p).speaks
    | poller | receiver | worker | ended => exact .nil w t _

/-- A turn says what carries its task from the call under way before to that after. -/
theorem speaks_poll (hp : w.Paced) (t : TaskId) :
    w.Speaks t (w.underWay t) (w.dealsOf (.poll t)) ((w.poll t).underWay t) :=
  speaks_run (w := { w with ready := w.ready.erase t }) hp

/-- A call that is made speaks for the first time in the turn that makes it. -/
theorem speaks_call (hp : w.Paced) (command : Command) :
    w.Speaks w.tasks.length (w.underWay w.tasks.length) (w.dealsOf (.call command))
      ((w.call command).underWay w.tasks.length) := by
  -- the client when the command is there
  let v := (w.spawn (.command (.fresh command))).2
  have hk : v.task? w.tasks.length = some (.command (.fresh command)) := task?_spawn_self w _
  have hbefore : w.underWay w.tasks.length = v.underWay w.tasks.length := by
    rw [underWay_of_task? hk, underWay, task?_length]
    rfl
  have hv : v.Paced := by
    intro u p hu
    rw [show v.task? u = _ from task?_spawn w _ u] at hu
    split at hu
    · cases hu
    · exact hp u p hu
  rw [hbefore]
  exact speaks_run (w := v) hv

/-- Others wait for the same calls when a command begins. -/
theorem underWay_call (w : Client) (command : Command) (hu : u ≠ w.tasks.length) :
    (w.call command).underWay u = w.underWay u := by
  rw [(parked_call w command).underWay hu]
  unfold underWay
  rw [task?_spawn, if_neg hu]

theorem underWay_quiet (hs : w.core.Sound) {e : Event} (he : e.IsQuiet) (u : TaskId) :
    (w.happen e).underWay u = w.underWay u := by
  rw [underWay_eq, underWay_eq]
  rcases outside_happen hs he with h | h
  · rw [h]
  · exact h.underWay hs u

/-- What happens at the backend in one deed is, for every task, a piece of its conversation: it is
the task that deals, or another one, which is nothing to it. -/
theorem converses_does (h : w.Steady) (hp : w.Paced) (d : Deed) (t : TaskId) :
    Converses w.backend.latency t (w.underWay t) (w.dealingsOf d) ((w.does d).underWay t) := by
  cases d with
  | drop u =>
    show Converses _ t _ ((w.dropDeals u).map _) ((w.abort u).underWay t)
    by_cases ht : t = u
    · subst ht
      exact speaks_abort w t
    · have hpending : (w.abort u).underWay t = w.underWay t := by
        rcases parked_abort w u with hw | hw
        · rw [hw]
        · exact hw.underWay ht
      rw [hpending]
      exact .others (Ne.symm ht) w.now _
  | event e =>
    show Converses _ t _ (w.dealingsOf (.event e)) ((w.happen e).underWay t)
    have hquiet : e.IsQuiet → Converses w.backend.latency t (w.underWay t) []
        ((w.happen e).underWay t) := by
      intro he
      rw [underWay_quiet h.sound he]
      exact .nil _
    cases e with
    | call command =>
      -- the new task speaks; all others have the calls that they had
      by_cases ht : t = w.tasks.length
      · subst ht
        exact speaks_call hp command
      · show Converses _ t _ _ ((w.call command).underWay t)
        rw [underWay_call w command ht]
        exact .others (Ne.symm ht) w.now _
    | poll u =>
      -- the task of the turn speaks; all others have the calls that they had
      by_cases ht : t = u
      · subst ht
        exact speaks_poll hp t
      · show Converses _ t _ _ ((w.poll u).underWay t)
        rw [(h.assured.parked_poll u).underWay ht]
        exact .others (Ne.symm ht) w.now _
    | fail op e => exact .scripted (hquiet trivial)
    | _ => exact hquiet trivial

theorem paced_doing (h : w.Steady) (hp : w.Paced) (deeds : List Deed) :
    (w.doing deeds).Paced := by
  induction deeds generalizing w with
  | nil => exact hp
  | cons d deeds ih => exact ih (h.does d) ((deedKeepsSlot_does h.sound d).paced hp)

/-- What a task says in a run has the form of a conversation. -/
theorem converses_doing (h : w.Steady) (hp : w.Paced) (deeds : List Deed) (t : TaskId) :
    Converses w.backend.latency t (w.underWay t) (w.dealings deeds)
      ((w.doing deeds).underWay t) := by
  induction deeds generalizing w with
  | nil => exact .nil _
  | cons d deeds ih =>
    have hrest := ih (h.does d) ((deedKeepsSlot_does h.sound d).paced hp)
    rw [latency_does h.sound d] at hrest
    exact (converses_does h hp d t).trans hrest

end Client

end TunnelSession
