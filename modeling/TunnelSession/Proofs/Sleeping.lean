/-
  How tasks go to sleep, and who sleeps on.

  SLEEP.  A task that waits for the latency of a call sleeps until a certain time (`Task.sleep?`),
  which is when the call that it has under way is due (`Task.sleep?_eq`).

  TURNS.  A turn of `t` leaves the others alone, and where `t` has a call under way at its end, the
  timer of that call is set (`Client.Parked`).  Both are read off the effects of the turn.
-/
import TunnelSession.Proofs.TurnEffects

namespace TunnelSession

variable {α σ ρ : Type}

/-- When the latency of the call is over, if it was under way. -/
def Call.sleep? : Call α → Option Nat
  | .running _ due _ => some due
  | .held .. => none

/-- Until when a connect or a disconnect sleeps. -/
def Lifecycle.sleep? : Lifecycle → Option Nat
  | .queued .. | .leaving => none
  | .dialing _ call => call.sleep?
  | .sampling _ _ call => call.sleep?
  | .hangingUp call => call.sleep?

/-- Until when a change of the settings sleeps. -/
def Writing.sleep? : Writing → Option Nat
  | .queued _ => none
  | .saving _ call => call.sleep?
  | .toggling _ _ call => call.sleep?

/-- Until when a command sleeps. -/
def Point.sleep? : Point → Option Nat
  | .fresh _ => none
  | .lifecycle l | .starting l => l.sleep?
  | .loading _ call => call.sleep?
  | .writing p => p.sleep?
  | .sampling call => call.sleep?
  | .asking call => call.sleep?

/-- Until when a task sleeps in a call. -/
def Task.sleep? : Task → Option Nat
  | .command p => p.sleep?
  | .poller p => p.call.bind Call.sleep?
  | .worker _ current => current.bind (·.2.sleep?)
  | .receiver _ | .ended _ => none

theorem Call.sleep?_eq (call : Call α) : call.sleep? = call.pending?.map (·.due) := by
  cases call <;> rfl

theorem Lifecycle.sleep?_eq (l : Lifecycle) : l.sleep? = l.pending?.map (·.due) := by
  cases l with
  | queued | leaving => rfl
  | dialing _ call => exact call.sleep?_eq
  | sampling _ _ call => exact call.sleep?_eq
  | hangingUp call => exact call.sleep?_eq

theorem Writing.sleep?_eq (p : Writing) : p.sleep? = p.pending?.map (·.due) := by
  cases p with
  | queued => rfl
  | saving _ call => exact call.sleep?_eq
  | toggling _ _ call => exact call.sleep?_eq

/-- When a command is due again is when the call that it waits for is due. A command that waits for
no call does not sleep. -/
theorem Point.sleep?_eq (p : Point) : p.sleep? = p.pending?.map (·.due) := by
  cases p with
  | fresh => rfl
  | lifecycle l | starting l => exact l.sleep?_eq
  | loading _ call => exact call.sleep?_eq
  | writing p => exact p.sleep?_eq
  | sampling call => exact call.sleep?_eq
  | asking call => exact call.sleep?_eq

/-- A task sleeps until the call that it has under way is due. -/
theorem Task.sleep?_eq (k : Task) : k.sleep? = k.pending?.map (·.due) := by
  cases k with
  | command p => exact p.sleep?_eq
  | poller p =>
    show p.call.bind Call.sleep? = (p.call.bind Call.pending?).map _
    cases p.call with
    | none => rfl
    | some call => exact call.sleep?_eq
  | worker b current =>
    cases current with
    | none => rfl
    | some current => exact current.2.sleep?_eq
  | receiver | ended => rfl

theorem Task.IsIdle.sleep? {k : Task} (h : k.IsIdle) : k.sleep? = none := by
  rw [k.sleep?_eq, h.pending?]
  rfl

/-- A poller without a period goes on with no call. -/
theorem Task.pending?_of_resumes? {k : Task} {o : OpenCall} (h : k.resumes? = some o) :
    k.pending? = some o := by
  cases k with
  | poller p =>
    unfold resumes? at h
    dsimp only at h
    split at h
    · cases h
    · exact h
  | command | receiver | worker | ended => exact h

/-- A turn goes on with the call that the task waits for, except for a poller that ends at once. -/
theorem Task.resumes?_eq {k : Task} (h : ∀ p, k = .poller p → p.period = 0 → p.call = none) :
    k.resumes? = k.pending? := by
  cases k with
  | poller p =>
    unfold resumes?
    dsimp only
    split
    · rename_i h0
      show none = p.call.bind Call.pending?
      rw [h p rfl h0]
      rfl
    · rfl
  | command | receiver | worker | ended => rfl

namespace Client

variable {w w' w₁ v : Client} {t u : TaskId}

/-- A turn of `t` is over: where `t` stands is written, and if it is at a call it sleeps. -/
structure Parked (t : TaskId) (w w' : Client) : Prop where
  turn : ∃ v k, OthersKept t w v ∧ w' = v.setTask t k ∧
    (∀ due, k.sleep? = some due → v.Naps t due) ∧
    (∀ c, k ≠ .command (.fresh c)) ∧
    ∀ x, k = .command (.writing (.queued x)) → v.writes.holder ≠ some t

/-- Others are left alone, and the task has nothing to do. -/
theorem OthersKept.parked (h : OthersKept t w v) {k : Task} (hk : k.IsIdle) :
    Parked t w (v.setTask t k) := by
  refine ⟨v, k, h, rfl, fun due hs => ?_, ?_, ?_⟩
  · rw [hk.sleep?] at hs
    cases hs
  · rintro c rfl
    cases hk
  · rintro x rfl
    cases hk

/-- Whoever goes on with no call, or with one that is not too long, sleeps no longer. -/
theorem TurnEnds.parked {shares : List Share} {polls : Prop} {c : Option OpenCall} {δ : List Deal}
    (h : TurnEnds t shares polls w c δ w')
    (hb : ∀ o, c = some o → o.due ≤ w.now + w.backend.latency) : Parked t w w' := by
  obtain ⟨v, k, hr, hw, hfresh, hline, -⟩ := h.turn
  refine ⟨v, k, hr.work.othersKept, hw, fun due hs => ?_, hfresh, hline⟩
  rw [k.sleep?_eq] at hs
  obtain ⟨o, ho, rfl⟩ := Option.map_eq_some_iff.1 hs
  exact hr.naps hb o ho

/-- A turn of a task that sleeps no longer than a call may take. -/
theorem parked_run (w : Client) (t : TaskId)
    (hb : ∀ k due, w.task? t = some k → k.sleep? = some due → due ≤ w.now + w.backend.latency) :
    Parked t w (w.run t) := by
  cases hk : w.task? t with
  | none =>
    have hrun : w.run t = w := by
      unfold run
      rw [hk]
    have h : Parked t w (w.setTask t (.ended .finished)) := (OthersKept.refl t w).parked trivial
    rw [setTask_of_none _ hk] at h
    rwa [hrun]
  | some k =>
    refine (turnEnds_run hk).parked fun o ho => hb k o.due hk ?_
    rw [k.sleep?_eq, Task.pending?_of_resumes? ho]
    rfl

end Client

end TunnelSession
