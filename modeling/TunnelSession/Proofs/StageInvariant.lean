/-
  What a request finds when it goes on.

  INVARIANT.  A request that has called the backend finds the state that it made (`Lifecycle.Fits`),
  and while the state is `disconnecting` the disconnect that made it is still at the backend
  (`Core.Fitting`).  For only who has the connection changes the state.

  USE.  So a connect that is handed the connection never finds a disconnect half done, whatever the
  one before it came to: settled, failed or superseded.  That is what the effects of a request rely
  on (`stageHolds_resume`, `stageHolds_begin`).
-/
import TunnelSession.Proofs.Agreement
import TunnelSession.Proofs.Attempts
import TunnelSession.Proofs.Exclusion
import TunnelSession.Proofs.ConnectionEffects

namespace TunnelSession

/-- Is the state the one that a request at this stage has made? -/
def Lifecycle.Fits (s : ConnectionState) : Lifecycle → Prop
  | .queued .. | .leaving => True
  | .dialing .. => s.isDialing = true
  | .sampling .. => s = .connected
  | .hangingUp _ => s = .disconnecting

theorem Lifecycle.fits_of_inactive {s : ConnectionState} {l : Lifecycle} (h : ¬ l.IsActive) :
    l.Fits s := by
  cases l <;> first | exact trivial | exact absurd trivial h

/-- A connect that waits for the backend does not make the state of a disconnect. -/
theorem ConnectionState.ne_disconnecting_of_isDialing {s : ConnectionState}
    (h : s.isDialing = true) : s ≠ .disconnecting := by
  rintro rfl
  cases h

/-- A connect makes a state in which it waits for the backend. -/
theorem Session.isDialing_of_aim {s : Session} {target : Target} {state : ConnectionState}
    {ask : Ask Server} (h : s.aim target = some (state, ask)) : state.isDialing = true := by
  rcases Session.state_of_aim h with rfl | ⟨rfl, -⟩ <;> rfl

namespace Core

variable {t : TaskId} {c c' : Core}

/-- Every request finds the state that it made. -/
structure Fitting (c : Core) : Prop where
  orderly : c.Orderly
  fits : ∀ t l, c.stage t = some l → l.Fits c.session.state
  hangs : c.session.state = .disconnecting → ∃ t call, c.stage t = some (.hangingUp call)

/-- Only one task has called the backend, and it finds its state. -/
theorem fitting_of_only {l : Lifecycle} (ho : c.Orderly)
    (hh : ∀ u k, c.stage u = some k → k.IsActive → u = t) (hs : c.stage t = some l)
    (hl : l.Fits c.session.state)
    (hd : c.session.state = .disconnecting → ∃ call, l = .hangingUp call) : c.Fitting where
  orderly := ho
  fits u k hu := by
    by_cases ha : k.IsActive
    · obtain rfl := hh u k hu ha
      rw [hs] at hu
      cases hu
      exact hl
    · exact Lifecycle.fits_of_inactive ha
  hangs hk := by
    obtain ⟨call, rfl⟩ := hd hk
    exact ⟨t, call, hs⟩

/-- Nobody has called the backend. -/
theorem fitting_of_idle (ho : c.Orderly) (hh : ∀ u k, c.stage u = some k → ¬ k.IsActive)
    (hd : c.session.state ≠ .disconnecting) : c.Fitting where
  orderly := ho
  fits u k hu := Lifecycle.fits_of_inactive (hh u k hu)
  hangs hk := absurd hk hd

/-- A task in line goes, and leaves the state to the others. -/
theorem Fitting.leave (h : c.Fitting) {l : Lifecycle} (ho : c'.Orderly) (hl : c.stage t = some l)
    (hn : ¬ l.IsActive) (hst : c'.stage = Function.update c.stage t none)
    (hs : c'.session = c.session) : c'.Fitting where
  orderly := ho
  -- who is left is where it was, and finds what it found
  fits u k hu := by
    rw [hs]
    refine h.fits u k ?_
    by_cases he : u = t
    · subst he
      rw [hst, Function.update_self] at hu
      cases hu
    · rwa [hst, Function.update_of_ne he] at hu
  -- the disconnect at the backend is not the one that goes
  hangs hd := by
    rw [hs] at hd
    obtain ⟨u, call, hu⟩ := h.hangs hd
    have he : u ≠ t := by
      rintro rfl
      rw [hl] at hu
      cases hu
      exact hn trivial
    exact ⟨u, call, by rw [hst, Function.update_of_ne he, hu]⟩

/-- Who joins the line has made no state yet. -/
theorem Fitting.enter (h : c.Fitting) (l : Lifecycle) (hs : c.stage t = none)
    (hl : ¬ l.IsActive) : (c.enter t l).Fitting where
  orderly := h.orderly.enter hs hl
  fits u k hu := by
    by_cases he : u = t
    · subst he
      rw [show (c.enter u l).stage u = _ from put_stage_self _ _ _] at hu
      cases hu
      exact Lifecycle.fits_of_inactive hl
    · rw [show (c.enter t l).stage u = _ from put_stage_of_ne _ _ he] at hu
      exact h.fits u k hu
  hangs hd := by
    obtain ⟨u, call, hu⟩ := h.hangs hd
    have he : u ≠ t := by
      rintro rfl
      rw [hs] at hu
      cases hu
    exact ⟨u, call, (put_stage_of_ne _ _ he).trans hu⟩

/-- Who moves has the connection, so it alone has called the backend, and it makes the state of its
new stage. -/
theorem Fitting.move (h : c.Fitting) (hm : Move t c c') : c'.Fitting := by
  have ho := h.orderly.move hm
  have honly : ∀ u k, c'.stage u = some k → k.IsActive → u = t :=
    fun u k => h.orderly.only_active_of_move hm
  cases hm with
  | dial _ _ _ ha =>
    have hd := Session.isDialing_of_aim ha
    exact fitting_of_only ho honly (put_stage_self _ _ _) hd fun hk =>
      absurd hk (ConnectionState.ne_disconnecting_of_isDialing hd)
  | connect => exact fitting_of_only ho honly (put_stage_self _ _ _) rfl fun hk => nomatch hk
  | look _ hl =>
    -- a look changes neither the state nor any stage
    refine ⟨ho, ?_, ?_⟩
    · rw [hl.sameLink.state, hl.stage_eq]
      exact h.fits
    · rw [hl.sameLink.state, hl.stage_eq]
      exact h.hangs
  | hangUp => exact fitting_of_only ho honly (put_stage_self _ _ _) rfl fun _ => ⟨_, rfl⟩

/-- Who settles leaves nobody at the backend, and never in the state of a disconnect: only the
holder can have called the backend, and it is gone. -/
theorem Fitting.settle {s : Settled} (h : c.Fitting) (hm : Settle t c s c') : c'.Fitting := by
  have ho := h.orderly.settle hm
  obtain ⟨-, -, hst⟩ := hm.frame (h.orderly.active t)
  -- with the task that had the connection, nobody is left who has called the backend
  have hnone : ∀ l, c.stage t = some l → l.IsActive → ∀ u k, c'.stage u = some k →
      ¬ k.IsActive := by
    intro l hl ha u k hu hk
    have he : u ≠ t := by
      rintro rfl
      rw [hst, Function.update_self] at hu
      cases hu
    rw [hst, Function.update_of_ne he] at hu
    exact he (h.orderly.unique hu hl hk ha)
  cases hm with
  | drop hs | noServer hs => exact h.leave ho hs id hst rfl
  | abort hs =>
    exact fitting_of_idle ho (hnone _ hs trivial)
      (ConnectionState.ne_disconnecting_of_isDialing (h.fits t _ hs))
  | arrive _ hs =>
    -- a connect with a tunnel had made the state connected
    have hup : c.session.state = .connected := h.fits t _ hs
    refine fitting_of_idle ho (hnone _ hs trivial) ?_
    show c.session.state ≠ .disconnecting
    rw [hup]
    exact nofun
  | refuse hs | close hs | fail hs => exact fitting_of_idle ho (hnone _ hs trivial) nofun

/-- Every move keeps the requests and the state together. -/
theorem linkInvariant_fitting : LinkInvariant Fitting where
  same h hi := by
    refine ⟨linkInvariant_orderly.same h hi.orderly, ?_, ?_⟩
    · rw [h.stage, h.state]
      exact hi.fits
    · rw [h.stage, h.state]
      exact hi.hangs
  enter l hs hl h := by
    refine h.enter l hs ?_
    rcases hl with rfl | ⟨_, _, rfl⟩ <;> exact id
  move _ h hm := h.move hm
  settle _ h hm := h.settle hm

/-- A request waits only where it cannot go on. -/
theorem Travel.waits {p : Progress Lifecycle Settled} (h : Travel t c p c') :
    ∀ l, p = .waiting l → c'.Waits t l := by
  induction h with
  | stay _ hw =>
    intro l hl
    cases hl
    exact hw
  | settle => exact nofun
  | move _ _ ih => exact ih

theorem Stretch.waits {start : Start} {p : Progress Lifecycle Settled}
    (h : Stretch t c start p c') : ∀ l, p = .waiting l → c'.Waits t l := by
  cases h with
  | refuse => exact nofun
  | connect _ _ ht | disconnect _ ht | resume _ ht => exact ht.waits

/-- Nobody waits with a void ticket. -/
theorem Stretch.stage?_of_void {l : Lifecycle} {p : Progress Lifecycle Settled} {k : Nat}
    (h : Stretch t c (.resume l) p c') (hk : l.ticket? = some k) (hv : k < c.epoch) :
    p.stage? = none := by
  cases hp : p with
  | done => rfl
  | waiting b =>
    have hb := (h.ticket_rank b hp).1.trans hk
    have hw := h.waits b hp
    rw [← h.near.epoch] at hv
    cases b with
    | queued | dialing | sampling =>
      cases hb
      exact absurd hv hw.1
    | leaving | hangingUp => cases hb

theorem Orderly.congr (h : c.Orderly) (ht : c'.transition = c.transition)
    (hs : c'.stage = c.stage) : c'.Orderly :=
  ⟨by rw [ht]; exact h.wellFormed, by rw [ht]; exact h.nodup, by rw [ht, hs]; exact h.mem,
    by rw [ht, hs]; exact h.active⟩

/-- Only who has the connection gets or keeps a tunnel. -/
theorem Travel.holder_of_hasTunnel {p : Progress Lifecycle Settled} (h : Travel t c p c')
    (ho : c.Orderly) (hp : p.HasTunnel) : c.transition.holder = some t := by
  cases h with
  | stay hs =>
    rcases hp with ⟨_, _, _, hp⟩ | ⟨_, hp⟩
    · cases hp
      exact ho.active t _ hs trivial
    · cases hp
  | settle h =>
    rcases hp with ⟨_, _, _, hp⟩ | ⟨_, hp⟩
    · cases hp
    · cases hp
      cases h with
      | arrive _ hs => exact ho.active t _ hs trivial
  | move h => exact (h.frame (ho.active t)).1

/-- Who gets or keeps a tunnel has the connection already, or nobody has it. -/
theorem Stretch.holder_of_hasTunnel {start : Start} {p : Progress Lifecycle Settled}
    (h : Stretch t c start p c') (ho : c.Orderly) (hp : p.HasTunnel) :
    c.transition.holder = none ∨ c.transition.holder = some t := by
  -- who asks and has the connection afterwards found it free, or had it
  have henter : ∀ l, (c.enter t l).transition.holder = some t →
      c.transition.holder = none ∨ c.transition.holder = some t := by
    intro l hh
    cases hc : c.transition.holder with
    | none => exact .inl rfl
    | some u =>
      right
      rw [show (c.enter t l).transition = c.transition.request t from rfl, Lock.request, hc] at hh
      exact hh
  cases h with
  | refuse => rcases hp with ⟨_, _, _, hp⟩ | ⟨_, hp⟩ <;> cases hp
  | connect hs _ ht =>
    exact henter _ (ht.holder_of_hasTunnel (ho.enter hs id) hp)
  | disconnect hs ht =>
    exact henter _ (ht.holder_of_hasTunnel (ho.enter hs id) hp)
  | resume _ ht => exact .inr (ht.holder_of_hasTunnel ho hp)

/-- While the state is `disconnecting`, who has the connection is at the backend. -/
theorem Fitting.free (h : c.Fitting) (hh : ∀ u l, c.transition.holder = some u →
    c.stage u = some l → ¬ l.IsActive) : c.session.state ≠ .disconnecting := by
  intro hd
  obtain ⟨u, call, hu⟩ := h.hangs hd
  exact hh u _ (h.orderly.active u _ hu trivial) hu trivial

end Core

namespace Client

open TunnelSession.Core

variable {w : Client} {c : Core} {t : TaskId}

/-- What is known of a client between two stretches of work. -/
structure Fit (w : Client) : Prop where
  sound : w.core.Sound
  fitting : w.core.Fitting
  agrees : Agrees w.core.session w.core.backend

theorem Fit.steps {w' : Client} {acts : List Act} (h : w.Fit) (hs : Steps w.core acts w'.core) :
    w'.Fit := by
  obtain ⟨hf, ha⟩ := @invariant_steps (fun _ c => c.Fitting ∧ Agrees c.session c.backend)
    (fun _ _ _ _ hc hi h => ⟨linkInvariant_fitting.step h hc hi.1,
      linkInvariant_agrees.step h hc hi.2⟩) [] _ _ _ h.sound ⟨h.fitting, h.agrees⟩ hs
  exact ⟨h.sound.steps hs, hf, ha⟩

theorem Fit.outside {w' : Client} {e : Event} (h : w.Fit) (ho : Outside w.core e w'.core) :
    w'.Fit :=
  ⟨h.sound.outside ho, linkInvariant_fitting.same ho.sameLink h.fitting,
    linkInvariant_agrees.same ho.sameLink h.agrees⟩

theorem fit_make (config : Config) (servers : List Server) (latency : Nat) (version : String) :
    (fresh config servers latency version).Fit where
  sound := sound_make config (Backend.prompt_make _ _ _)
  fitting := ⟨orderly_make config _, (fun _ _ h => nomatch h), (fun h => nomatch h)⟩
  agrees := agrees_make config.settings servers latency version

/-- A request that goes on finds what it relies on. -/
theorem stageHolds_resume (h : c.Fitting) (ha : Agrees c.session c.backend) {l : Lifecycle}
    (hl : c.stage t = some l) (ht : w.transition = c.transition) (hs : w.session = c.session) :
    w.StageHolds t l := by
  have hfits := h.fits t l hl
  have hactive := h.orderly.active t l hl
  rw [← hs] at hfits ha
  rw [← ht] at hactive
  cases l with
  | queued target ticket =>
    refine fun hh => ⟨?_, ha.disconnected⟩
    rw [hs]
    refine h.free fun u k hu hk => ?_
    -- the task that has the connection is this one, which has not called the backend
    obtain rfl : u = t := Option.some.inj (hu.symm.trans (ht ▸ hh))
    rw [hl] at hk
    cases hk
    exact id
  | dialing | sampling | hangingUp => exact ⟨hactive trivial, hfits⟩
  | leaving => exact trivial

/-- A connect that is handed the connection as soon as it asks finds what it relies on. -/
theorem stageHolds_begin (h : c.Fitting) (ha : Agrees c.session c.backend) (hl : c.stage t = none)
    (ht : w.transition = c.transition) (hs : w.session = c.session) (target : Target)
    (ticket : Nat) :
    StageHolds { w with transition := w.transition.request t } t (.queued target ticket) := by
  intro hh
  rw [← hs] at ha
  refine ⟨?_, ha.disconnected⟩
  show w.session.state ≠ .disconnecting
  rw [hs]
  refine h.free fun u l hu hk => ?_
  -- who has the connection keeps it when somebody asks
  rw [show ({ w with transition := w.transition.request t } : Client).transition =
    w.transition.request t from rfl, ht, Lock.request, hu] at hh
  obtain rfl : u = t := Option.some.inj hh
  rw [hl] at hk
  cases hk

end Client

end TunnelSession
