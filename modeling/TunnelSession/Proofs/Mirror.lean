/-
  The kill switch mirrors the session.

  TWO BITS.  The kill switch holds whether it is on, which belongs to the settings and changes
  under their lock, and whether the tunnel is up, which belongs to the connection and changes under
  the other one.  Neither bit is read off the session; both are told.

  MIRROR.  A connect or a disconnect lowers the tunnel in the move that leaves the old connection
  behind, and a connect raises it in the move that makes the new one.  What comes between, an
  error of the backend or a request that was superseded, says nothing to the kill switch.  It must
  therefore not find the connection up (`Core.Mirrors.between`), and it does not, since nobody
  else has the connection meanwhile.
-/
import TunnelSession.Proofs.Agreement
import TunnelSession.Proofs.Exclusion

namespace TunnelSession

/-- Does the request wait for the backend to change the tunnel? -/
def Lifecycle.IsBetween : Lifecycle → Prop
  | .dialing .. | .hangingUp _ => True
  | _ => False

theorem Lifecycle.IsBetween.isActive {l : Lifecycle} (h : l.IsBetween) : l.IsActive := by
  cases l <;> first | exact trivial | cases h

/-- What the kill switch does, by the session alone. -/
def Session.mirror (s : Session) : KillSwitch.State :=
  if s.settings.killSwitch then if s.state = .connected then .armed else .blocking else .disabled

namespace Core

variable {t : TaskId} {c c' : Core}

/-! ## The tunnel -/

/-- The kill switch knows whether the connection is up. -/
structure Mirrors (c : Core) : Prop where
  orderly : c.Orderly
  up : c.killSwitch.tunnelUp = true ↔ c.session.state = .connected
  between : ∀ t l, c.stage t = some l → l.IsBetween → c.session.state ≠ .connected

theorem Mirrors.same (hm : Mirrors c) (h : SameLink c c') : Mirrors c' where
  orderly := linkInvariant_orderly.same h hm.orderly
  up := by rw [h.tunnelUp, h.state]; exact hm.up
  between := by rw [h.stage, h.state]; exact hm.between

/-- The connection is left behind. -/
theorem mirrors_lowered (ho : c.Orderly) (hk : c.killSwitch.tunnelUp = false)
    (hs : c.session.state ≠ .connected) : Mirrors c where
  orderly := ho
  up := by simp [hk, hs]
  between _ _ _ _ := hs

/-- Who joins the line does not wait for the backend yet. -/
theorem Mirrors.enter (hm : Mirrors c) (ho : (c.enter t l).Orderly) (hl : ¬ l.IsBetween) :
    Mirrors (c.enter t l) where
  orderly := ho
  up := hm.up
  between u k hk hb := by
    by_cases hu : u = t
    · subst hu
      rw [show (c.enter u l).stage u = _ from put_stage_self _ _ _] at hk
      cases hk
      exact absurd hb hl
    · rw [show (c.enter t l).stage u = _ from put_stage_of_ne _ _ hu] at hk
      exact hm.between u k hk hb

/-- The old connection is lowered in the move that leaves it, the new one is raised in the move that
makes it. -/
theorem Mirrors.move (hm : Mirrors c) (h : Move t c c') : Mirrors c' := by
  have ho := hm.orderly.move h
  obtain ⟨hh, ht, -⟩ := h.frame (hm.orderly.active t)
  cases h with
  | dial _ _ _ haim =>
    refine mirrors_lowered ho rfl ?_
    -- neither connecting nor reconnecting is up
    rcases Session.state_of_aim haim with rfl | ⟨rfl, -⟩
    · exact nofun
    · exact nofun
  | connect hs _ hv ha =>
    refine ⟨ho, ⟨fun _ => rfl, fun _ => rfl⟩, fun u l hk hb => ?_⟩
    -- the task itself is at the statistics now, and no other one has called the backend
    have hu : u = t := Option.some.inj ((ho.active u l hk hb.isActive).symm.trans hh)
    subst hu
    rw [put_stage_self] at hk
    cases hk
    cases hb
  | look _ hl => exact hm.same hl.sameLink
  | hangUp hs hh => exact mirrors_lowered ho rfl nofun

/-- A request that does not change the session goes. -/
theorem Mirrors.leave (hm : Mirrors c) (ho : c'.Orderly)
    (hst : c'.stage = Function.update c.stage t none)
    (hk : c'.killSwitch = c.killSwitch) (hs : c'.session = c.session) : Mirrors c' where
  orderly := ho
  up := by rw [hk, hs]; exact hm.up
  between u l hu hb := by
    rw [hs]
    refine hm.between u l ?_ hb
    by_cases he : u = t
    · subst he
      rw [hst, Function.update_self] at hu
      cases hu
    · rwa [hst, Function.update_of_ne he] at hu

/-- A request that settles without a tunnel finds the kill switch lowered already. -/
theorem Mirrors.settle {s : Settled} (hm : Mirrors c) (h : Settle t c s c') : Mirrors c' := by
  have ho := hm.orderly.settle h
  obtain ⟨-, -, hst⟩ := h.frame (hm.orderly.active t)
  -- while a request waits for the backend, the tunnel counts as down
  have hdown : ∀ l, c.stage t = some l → l.IsBetween → c.killSwitch.tunnelUp = false := by
    intro l hl hb
    have hne := hm.between t l hl hb
    rw [← Bool.not_eq_true, hm.up]
    exact hne
  cases h with
  | drop | noServer | abort | arrive => exact hm.leave ho hst rfl rfl
  | refuse hs | close hs | fail hs => exact mirrors_lowered ho (hdown _ hs trivial) nofun

/-- Every move keeps the mirror. -/
theorem linkInvariant_mirrors : LinkInvariant Mirrors where
  same h hm := hm.same h
  enter l hs hl hm := by
    refine hm.enter (linkInvariant_orderly.enter l hs hl hm.orderly) ?_
    rcases hl with rfl | ⟨_, _, rfl⟩ <;> exact id
  move _ hm h := hm.move h
  settle _ hm h := hm.settle h

/-! ## The setting -/

/-- The kill switch is on if the settings say so. -/
def Obeys (c : Core) : Prop := c.killSwitch.enabled = c.session.settings.killSwitch

theorem Stretch.obeys {start : Start} {p : Progress Lifecycle Settled}
    (h : Stretch t c start p c') (ho : c.Obeys) : c'.Obeys := by
  have hn := h.near
  unfold Obeys
  rw [hn.enabled, hn.settings]
  exact ho

/-- Every step keeps the setting. -/
theorem Step.obeys {acts : List Act} (h : Step c acts c') (ho : c.Obeys) : c'.Obeys := by
  cases h with
  | aside h =>
    cases h with
    | look h => cases h <;> exact ho
    | settings => exact rfl
    | _ => exact ho
  | turn | retire | takeAsk | takeLeave => exact ho
  | ask _ _ hs | resume _ _ hs | carry _ hs => exact hs.obeys ho
  | leave _ hs => exact hs.obeys (c := { c with epoch := c.epoch + 1 }) ho
  | @begin _ b _ _ rest _ _ _ _ _ hs => exact hs.obeys (c := c.takeJob b rest) ho

theorem Outside.obeys {e : Event} (h : Outside c e c') (ho : c.Obeys) : c'.Obeys := by
  cases h <;> exact ho

/-- At first there is no connection, and the kill switch knows of none. -/
theorem mirrors_make (config : Config) (backend : Backend) :
    (Client.make config backend).core.Mirrors where
  orderly := orderly_make config backend
  up := ⟨nofun, nofun⟩
  between _ _ h := by cases h

/-- What both bits together say. -/
theorem Mirrors.state_eq (hm : c.Mirrors) (ho : c.Obeys) :
    c.killSwitch.state = c.session.mirror := by
  have hup := hm.up
  unfold KillSwitch.state Session.mirror
  rw [show c.killSwitch.enabled = c.session.settings.killSwitch from ho]
  simp only [hup]

end Core

/-- The mirror and the setting, throughout every run. -/
theorem Client.mirrors_after (config : Config) {backend : Backend} (hb : backend.Prompt)
    (events : List Event) :
    ((make config backend).after events).core.Mirrors ∧
      ((make config backend).after events).core.Obeys := by
  have hs := sound_make config hb
  refine ⟨Core.linkInvariant_mirrors.after hs (Core.mirrors_make config backend) events, ?_⟩
  exact (invariant_after (I := fun _ c => c.Obeys) (P := fun _ => True)
    (fun _ _ _ _ _ ho h => h.obeys ho) (fun _ _ _ _ _ _ ho h => h.obeys ho) hs [] rfl events
    fun _ _ => trivial).2

/-- At any point of any run, the kill switch does what the session alone says: it is disabled if
the settings say so, armed if the connection is up, and blocking otherwise.  So traffic is never
allowed while the setting is on and the connection is not up. -/
theorem killSwitch_after (config : Config) (backend : Backend) (hb : backend.Prompt)
    (events : List Event) :
    let w := (Client.make config backend).after events
    w.killSwitch.state = w.session.mirror ∧
      (w.killSwitch.allows = true → w.session.settings.killSwitch = true →
        w.session.state = .connected) := by
  obtain ⟨hm, ho⟩ := Client.mirrors_after config hb events
  refine ⟨hm.state_eq ho, fun hallows hset => hm.up.1 ?_⟩
  exact (KillSwitch.allows_iff _).1 hallows (Eq.trans ho hset)

/-- A connect that was refused leaves the kill switch blocking. -/
theorem killSwitch_after_refused :
    let backend := Backend.make [] 5 "1"
    let w := (Client.make Config.default backend).after
      [.fail .connect (.rejected "no"), .call (.connect "x"), .pass 5, .poll 0]
    backend.Prompt ∧ w.session.state = .error ∧ w.killSwitch.state = .blocking := by
  refine ⟨rfl, rfl, ?_⟩
  exact (killSwitch_after _ _ (Backend.prompt_make _ _ _) _).1.trans rfl

end TunnelSession
