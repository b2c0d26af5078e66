/-
  Runs whose callers may give up.

  DEEDS.  A `Deed` is an event, or a caller that drops its command where it waits.  `does` and
  `doing` are to deeds what `happen` and `after` are to events.

  DROPPING.  Who is dropped leaves the line that it stands in, gives back what it holds, and changes
  nothing else (`core_abort`).  So tasks still wait for the calls of their stages, and the kill
  switch still mirrors the session, whatever is dropped (`kept_does`).
-/
import TunnelSession.Proofs.Mirror

namespace TunnelSession

/-- What can happen to a client whose callers may give up. -/
inductive Deed where
  | event (e : Event)
  /-- A caller drops its command. -/
  | drop (t : TaskId)

/-- The change waits for the backend. -/
def Writing.IsCalled : Writing → Prop
  | .queued _ => False
  | .saving .. | .toggling .. => True

namespace Client

/-- Let a deed happen. -/
def does (w : Client) : Deed → Client
  | .event e => w.happen e
  | .drop t => w.abort t

/-- Let deeds happen, one after the other. -/
def doing (w : Client) (deeds : List Deed) : Client := deeds.foldl does w

end Client

namespace Core

variable {t : TaskId} {c c' : Core}

/-- A caller gives up. -/
inductive Drop (t : TaskId) (c : Core) : Core → Prop
  | lifecycle {l : Lifecycle} (hs : c.stage t = some l) :
    Drop t c
      (({ c with transition := c.transition.withdraw t }.put t none).write t (.ended .aborted))
  | change {p : Writing} {l : Lock} (ho : c.entry t = some (.command (.writing p)))
    (hl : l = c.writes.withdraw t ∨ p.IsCalled ∧ l = c.writes.release) :
    Drop t c ({ c with writes := l }.write t (.ended .aborted))
  | other {p : Point} (ho : c.entry t = some (.command p))
    (hk : (Task.command p).lifecycle? = none) (hw : ∀ q, p ≠ .writing q) :
    Drop t c (c.write t (.ended .aborted))

/-- Giving up keeps a core sound. -/
theorem Sound.drop (hc : c.Sound) (h : Drop t c c') : c'.Sound := by
  cases h with
  | @lifecycle l hs =>
    -- a request belongs to a task that is there and is no poller
    have he : c.entry t ≠ none := by
      intro hn
      rw [hc.agree, hn] at hs
      cases hs
    have ht : t < c.size := by
      by_contra hge
      exact he (hc.small t (Nat.le_of_not_lt hge)).1
    have hw : Sound { c with transition := c.transition.withdraw t } :=
      ⟨hc.prompt, hc.entry, hc.agree, hc.looking, hc.apart, hc.small⟩
    exact hw.put_write (.ended .aborted) ht (hc.apart t he) trivial
  | @change p l ho =>
    -- the lock of the settings is nobody's stage
    have hl : Sound { c with writes := l } :=
      ⟨hc.prompt, hc.entry, hc.agree, hc.looking, hc.apart, hc.small⟩
    exact hl.write _ (hc.lt_size ho) (hc.apart t (by simp [ho])) trivial (hc.stage_of_entry ho).symm
  | other ho hk =>
    exact hc.write _ (hc.lt_size ho) (hc.apart t (by simp [ho])) trivial
      ((hc.stage_of_entry ho).trans hk).symm

/-- Giving up keeps the mirror. -/
theorem Mirrors.drop (hm : Mirrors c) (h : Drop t c c') : Mirrors c' := by
  cases h with
  | lifecycle hs => exact hm.leave (hm.orderly.leave rfl rfl) rfl rfl rfl
  | change | other => exact hm.same ⟨rfl, rfl, rfl, rfl, rfl, rfl, rfl⟩

/-! ## Who has ended stays so -/

section Ended

variable {u : TaskId} {how : Ending}

/-- A task that has not ended is written when the others were left alone. -/
theorem ended_write {c₁ : Core} {old task : Task} (he : c.entry u = some (.ended how))
    (hent : c₁.entry = c.entry) (ho : c.entry t = some old) (hold : old.isEnded = false) :
    (c₁.write t task).entry u = some (.ended how) := by
  refine entry_write_ended (fun how hn => ?_) (by rw [hent]; exact he)
  rw [hent, ho] at hn
  cases hn
  cases hold

theorem Outside.ended {e : Event} (hc : c.Sound) (h : Outside c e c')
    (he : c.entry u = some (.ended how)) : c'.entry u = some (.ended how) := by
  have hlt := hc.lt_size he
  cases h with
  | call | go => exact (Function.update_of_ne (Nat.ne_of_lt hlt) _ _).trans he
  | openBridge => exact (entry_openBridge hlt).trans he
  | _ => exact he

/-- Who has ended is out of reach of whoever gives up: the one that gives up is at a stage of its
request, and one that has ended is at none. -/
theorem Drop.ended (hc : c.Sound) (h : Drop t c c') (he : c.entry u = some (.ended how)) :
    c'.entry u = some (.ended how) := by
  cases h with
  | lifecycle hs =>
    have hne : u ≠ t := by
      rintro rfl
      rw [hc.stage_of_entry he] at hs
      cases hs
    exact (Function.update_of_ne hne _ _).trans he
  | change ho => exact ended_write he rfl ho rfl
  | other ho => exact ended_write he rfl ho rfl

end Ended

end Core

namespace Client

open TunnelSession.Core

variable {w : Client} {t : TaskId}

/-- Who gives up a connect or a disconnect leaves the queue. -/
theorem core_dropLifecycle (w : Client) {l : Lifecycle}
    (hl : l.IsActive → w.core.transition.holder = some t) :
    (w.dropLifecycle t l).core =
      { w.core with transition := w.core.transition.withdraw t } := by
  have hrelease : l.IsActive → w.core.transition.withdraw t = w.core.transition.release :=
    fun h => Lock.withdraw_of_holder (hl h)
  cases l with
  | queued | leaving => exact core_withdrawTransition _ _
  | dialing | sampling | hangingUp =>
    rw [hrelease trivial]
    exact core_releaseTransition _

/-- Who gives up a change leaves its line, or gives the settings back. -/
theorem core_dropWrite (w : Client) (p : Writing) :
    ∃ l, (w.dropWrite t p).core = { w.core with writes := l } ∧
      (l = w.core.writes.withdraw t ∨ p.IsCalled ∧ l = w.core.writes.release) := by
  cases p with
  | queued write => exact ⟨_, core_withdrawWrites w t, .inl rfl⟩
  | saving | toggling => exact ⟨_, core_releaseWrites (w.disarm t), .inr ⟨trivial, rfl⟩⟩

/-- Who gives up any other command lets go of nothing. -/
theorem core_dropPoint (w : Client) {p : Point} (hk : (Task.command p).lifecycle? = none)
    (hw : ∀ q, p ≠ .writing q) : (w.dropPoint t p).core = w.core := by
  cases p with
  | fresh | loading | sampling | asking => rfl
  | lifecycle | starting => cases hk
  | writing p => exact absurd rfl (hw p)

/-- A caller that drops its command gives up; nobody else is dropped. A lifecycle request gives up
its place, and a change of the settings its own. -/
theorem core_abort (hs : w.core.Sound) (ho : w.core.Orderly) (t : TaskId) :
    (w.abort t).core = w.core ∧ (∀ p, w.core.entry t ≠ some (.command p)) ∨
      Drop t w.core (w.abort t).core := by
  have hentry : w.core.entry t = (w.task? t).bind Task.seen? := rfl
  unfold abort
  cases hk : w.task? t with
  | none =>
    rw [hk] at hentry
    exact .inl ⟨rfl, fun p hp => by cases hentry.symm.trans hp⟩
  | some task =>
    rw [hk] at hentry
    cases task with
    | poller | receiver | worker | ended =>
      exact .inl ⟨rfl, fun p hp => by cases hentry.symm.trans hp⟩
    | command p =>
      have he : w.core.entry t = some (.command p) := entry_of_task? hk rfl
      have hstage := hs.stage_of_entry he
      have hlook : w.core.looking t = none := hs.apart t (by simp [he])
      -- the task is written when everything was let go
      have hend : ∀ (v : Client) (c : Core), v.core = c → c.size = w.core.size →
          c.looking = w.core.looking →
          (v.setTask t (.ended .aborted)).core = (c.write t (.ended .aborted)).put t none := by
        rintro v c rfl hn hl
        refine core_setTask_write v (hn ▸ hs.lt_size he) rfl ?_
        rw [hl]
        exact hlook
      have hother : (Task.command p).lifecycle? = none → (∀ q, p ≠ .writing q) →
          Drop t w.core ((w.dropPoint t p).setTask t (.ended .aborted)).core := by
        intro hn hw
        have hnone : (w.core.write t (.ended .aborted)).stage t = none := hstage.trans hn
        rw [hend _ _ (core_dropPoint w hn hw) rfl rfl, put_self hnone]
        exact .other he hn hw
      right
      cases p with
      | lifecycle l | starting l =>
        show Drop t _ ((w.dropLifecycle t l).setTask t (.ended .aborted)).core
        rw [hend _ _ (core_dropLifecycle w (ho.active t l hstage)) rfl rfl]
        exact .lifecycle hstage
      | writing p =>
        obtain ⟨l, hc, hl⟩ := core_dropWrite (t := t) w p
        show Drop t _ ((w.dropWrite t p).setTask t (.ended .aborted)).core
        have hnone : (Core.write { w.core with writes := l } t (.ended .aborted)).stage t = none :=
          hstage
        rw [hend _ _ hc rfl rfl, put_self hnone]
        exact .change he hl
      | fresh | loading | sampling | asking => exact hother rfl fun q h => Point.noConfusion h

/-- What every deed keeps. -/
theorem kept_does (hs : w.core.Sound) (hm : w.core.Mirrors) (d : Deed) :
    (w.does d).core.Sound ∧ (w.does d).core.Mirrors := by
  cases d with
  | event e => exact ⟨sound_after hs [e], linkInvariant_mirrors.after hs hm [e]⟩
  | drop t =>
    show (w.abort t).core.Sound ∧ (w.abort t).core.Mirrors
    rcases core_abort hs hm.orderly t with ⟨h, -⟩ | h
    · rw [h]
      exact ⟨hs, hm⟩
    · exact ⟨hs.drop h, hm.drop h⟩

end Client

end TunnelSession
