/-
  Invariants of the connection.

  LINK.  What a connect or a disconnect can change: the state, the server, the recently used
  servers, the tunnel of the backend, what the kill switch knows of it, the lock and the stages.
  Whatever else a task or the outside does leaves that alone (`SameLink`).

  INVARIANTS.  So a property of the link needs a look at the moves only: if it holds before them
  and every move keeps it (`LinkInvariant`), it holds throughout every run.
-/
import TunnelSession.Proofs.Simulation

namespace TunnelSession

/-- An answer to anything but a connect or a disconnect leaves the tunnel where it is. -/
theorem Backend.connectedServer_answer {α : Type} (b : Backend) (now : Nat) {ask : Ask α}
    (h : ask.operation.isLifecycle = false) :
    (b.answer now ask).2.connectedServer = b.connectedServer := by
  unfold answer
  split
  · rfl
  · cases ask with
    | connect | quickConnect | disconnect => cases h
    | servers | save | toggle | version => rfl
    | stats =>
      unfold perform connectedServer
      dsimp only
      split
      · rename_i t ht
        rw [ht]
        rfl
      · rfl

namespace Core

/-- The same for the connection. -/
structure SameLink (c c' : Core) : Prop where
  state : c'.session.state = c.session.state
  server : c'.session.server = c.session.server
  recents : c'.session.recents = c.session.recents
  tunnelUp : c'.killSwitch.tunnelUp = c.killSwitch.tunnelUp
  connectedServer : c'.backend.connectedServer = c.backend.connectedServer
  transition : c'.transition = c.transition
  stage : c'.stage = c.stage

theorem Look.sameLink {c c' : Core} (h : Look c c') : SameLink c c' := by
  cases h with
  | counted => exact ⟨rfl, rfl, rfl, rfl, rfl, rfl, rfl⟩
  | answered => exact ⟨rfl, rfl, rfl, rfl, Backend.connectedServer_answer _ _ rfl, rfl, rfl⟩
  | kept => exact ⟨rfl, rfl, rfl, rfl, rfl, rfl, rfl⟩

theorem Aside.sameLink {c c' : Core} (h : Aside c c') : SameLink c c' := by
  cases h with
  | look h => exact h.sameLink
  | answered ask h => exact ⟨rfl, rfl, rfl, rfl, Backend.connectedServer_answer _ _ h, rfl, rfl⟩
  | _ => exact ⟨rfl, rfl, rfl, rfl, rfl, rfl, rfl⟩

theorem Outside.sameLink {c c' : Core} {e : Event} (h : Outside c e c') : SameLink c c' := by
  cases h <;> exact ⟨rfl, rfl, rfl, rfl, rfl, rfl, rfl⟩

/-- A property of the connection that every move keeps. -/
structure LinkInvariant (I : Core → Prop) : Prop where
  same : ∀ {c c'}, SameLink c c' → I c → I c'
  enter : ∀ {t c} (l : Lifecycle), c.stage t = none → l = .leaving ∨ (∃ g k, l = .queued g k) →
    I c → I (c.enter t l)
  move : ∀ {t c c'}, (∀ l, c.stage t = some l → l.Sound) → I c → Move t c c' → I c'
  settle : ∀ {t c c' s}, (∀ l, c.stage t = some l → l.Sound) → I c → Settle t c s c' → I c'

namespace LinkInvariant

variable {I : Core → Prop} {t : TaskId} {c c' : Core} {p : Progress Lifecycle Settled}

theorem travel (hI : LinkInvariant I) (h : Travel t c p c')
    (hs : ∀ l, c.stage t = some l → l.Sound) (hi : I c) : I c' := by
  induction h with
  | stay => exact hi
  | settle h => exact hI.settle hs hi h
  | move h _ ih => exact ih (h.stage_sound hs) (hI.move hs hi h)

/-- What getting in line and every move of a lifecycle request keep holds after a whole stretch of
work, which begins by getting in line at most. -/
theorem stretch (hI : LinkInvariant I) {start : Start} (h : Stretch t c start p c')
    (hs : ∀ l, c.stage t = some l → l.Sound) (hi : I c) : I c' := by
  cases h with
  | refuse => exact hi
  | @connect target ticket _ _ hst _ ht =>
    refine hI.travel ht ?_ (hI.enter _ hst (.inr ⟨target, ticket, rfl⟩) hi)
    intro l hl
    rw [show (c.enter t (.queued target ticket)).stage t = _ from put_stage_self _ _ _] at hl
    cases hl
    exact trivial
  | disconnect hst ht =>
    refine hI.travel ht ?_ (hI.enter _ hst (.inl rfl) hi)
    intro l hl
    rw [show (c.enter t .leaving).stage t = _ from put_stage_self _ _ _] at hl
    cases hl
    exact trivial
  | resume _ ht => exact hI.travel ht hs hi

/-- So it holds after every step: what a step does besides the stretch leaves the link alone. -/
theorem step (hI : LinkInvariant I) {acts : List Act} (h : Step c acts c') (hc : c.Sound)
    (hi : I c) : I c' := by
  cases h with
  | aside h => exact hI.same h.sameLink hi
  | turn | retire | takeAsk | takeLeave =>
    refine hI.same ?_ hi
    exact ⟨rfl, rfl, rfl, rfl, rfl, rfl, rfl⟩
  | ask _ _ hs | resume _ _ hs | carry _ hs =>
    refine hI.same ?_ (hI.stretch hs (hc.stage_sound _) hi)
    exact ⟨rfl, rfl, rfl, rfl, rfl, rfl, rfl⟩
  | leave _ hs =>
    have hi' : I { c with epoch := c.epoch + 1 } := by
      refine hI.same ?_ hi
      exact ⟨rfl, rfl, rfl, rfl, rfl, rfl, rfl⟩
    refine hI.same ?_ (hI.stretch hs (hc.stage_sound _) hi')
    exact ⟨rfl, rfl, rfl, rfl, rfl, rfl, rfl⟩
  | @begin _ b _ _ rest _ _ _ _ _ hs =>
    have hi' : I (c.takeJob b rest) := by
      refine hI.same ?_ hi
      exact ⟨rfl, rfl, rfl, rfl, rfl, rfl, rfl⟩
    refine hI.same ?_ (hI.stretch hs (hc.stage_sound _) hi')
    exact ⟨rfl, rfl, rfl, rfl, rfl, rfl, rfl⟩

/-- A property of the connection that every move keeps holds throughout every run. -/
theorem after (hI : LinkInvariant I) {w : Client} (hw : w.core.Sound) (hi : I w.core)
    (events : List Event) : I (w.after events).core :=
  (Client.invariant_after (I := fun _ c => I c) (P := fun _ => True)
    (fun _ _ _ _ hc hi h => hI.step h hc hi)
    (fun _ _ _ _ _ _ hi h => hI.same h.sameLink hi) hw [] hi events fun _ _ => trivial).2

end LinkInvariant

end Core

end TunnelSession
