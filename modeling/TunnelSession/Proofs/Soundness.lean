/-
  What every step keeps.

  FRAME.  A stretch of work of one task leaves everything alone that is not the connection's: the
  clock, the settings lock, the epoch, the bridges, all entries, and the stages of other tasks
  (`Core.Near`).

  SOUND.  A core is `Sound` if its backend holds nothing back, every task waits for the call of its
  stage, and entries and stages agree.  Every step and every outside change keeps that.
-/
import TunnelSession.Proofs.Steps

namespace TunnelSession

/-- What a connect asks for, to whatever it connects, is a tunnel. -/
theorem Session.isDial_of_aim {s : Session} {target : Target} {state : ConnectionState}
    {ask : Ask Server} (h : s.aim target = some (state, ask)) : ask.IsDial := by
  cases target with
  | server id =>
    cases h
    exact .inl ⟨id, rfl⟩
  | best =>
    cases h
    exact .inr rfl
  | last =>
    obtain ⟨server, -, he⟩ := Option.map_eq_some_iff.1 h
    cases he
    exact .inl ⟨server.id, rfl⟩

/-- A connect makes the session connecting, or reconnecting if there is a server. -/
theorem Session.state_of_aim {s : Session} {target : Target} {state : ConnectionState}
    {ask : Ask Server} (h : s.aim target = some (state, ask)) :
    state = .connecting ∨ state = .reconnecting ∧ s.server.isSome := by
  cases target with
  | server | best =>
    cases h
    exact .inl rfl
  | last =>
    obtain ⟨server, hs, he⟩ := Option.map_eq_some_iff.1 h
    cases he
    exact .inr ⟨rfl, by rw [hs]; rfl⟩

namespace Core

/-- What a stretch of work of one task leaves alone. -/
structure Near (t : TaskId) (c c' : Core) : Prop where
  now : c'.now = c.now
  writes : c'.writes = c.writes
  epoch : c'.epoch = c.epoch
  bridges : c'.bridges = c.bridges
  entry : c'.entry = c.entry
  looking : c'.looking = c.looking
  size : c.size ≤ c'.size
  stage : ∀ u, u ≠ t → c'.stage u = c.stage u
  enabled : c'.killSwitch.enabled = c.killSwitch.enabled
  settings : c'.session.settings = c.session.settings
  catalog : c'.session.catalog = c.session.catalog
  favorites : c'.session.favorites = c.session.favorites
  holds : c'.backend.holds = c.backend.holds
  servers : c'.backend.servers = c.backend.servers
  latency : c'.backend.latency = c.backend.latency

theorem Near.refl (t : TaskId) (c : Core) : Near t c c :=
  ⟨rfl, rfl, rfl, rfl, rfl, rfl, Nat.le_refl _, fun _ _ => rfl, rfl, rfl, rfl, rfl, rfl, rfl, rfl⟩

/-- Work that goes on leaves alone what both parts of it leave alone. -/
theorem Near.trans {t : TaskId} {c c₁ c' : Core} (h : Near t c c₁) (h' : Near t c₁ c') :
    Near t c c' where
  now := h'.now.trans h.now
  writes := h'.writes.trans h.writes
  epoch := h'.epoch.trans h.epoch
  bridges := h'.bridges.trans h.bridges
  entry := h'.entry.trans h.entry
  looking := h'.looking.trans h.looking
  size := Nat.le_trans h.size h'.size
  stage u hu := (h'.stage u hu).trans (h.stage u hu)
  enabled := h'.enabled.trans h.enabled
  settings := h'.settings.trans h.settings
  catalog := h'.catalog.trans h.catalog
  favorites := h'.favorites.trans h.favorites
  holds := h'.holds.trans h.holds
  servers := h'.servers.trans h.servers
  latency := h'.latency.trans h.latency

theorem near_enter (t : TaskId) (c : Core) (l : Lifecycle) : Near t c (c.enter t l) :=
  ⟨rfl, rfl, rfl, rfl, rfl, rfl, Nat.le_refl _, fun _ hu => put_stage_of_ne _ _ hu, rfl, rfl, rfl,
    rfl, rfl, rfl, rfl⟩

theorem near_exit (t : TaskId) (c : Core) : Near t c (c.exit t) :=
  ⟨rfl, rfl, rfl, rfl, rfl, rfl, Nat.le_refl _, fun _ hu => put_stage_of_ne _ _ hu, rfl, rfl, rfl,
    rfl, rfl, rfl, rfl⟩

theorem near_size (t : TaskId) (c : Core) (n : Nat) : Near t c { c with size := c.size + n } :=
  ⟨rfl, rfl, rfl, rfl, rfl, rfl, Nat.le_add_right _ _, fun _ _ => rfl, rfl, rfl, rfl, rfl, rfl, rfl,
    rfl⟩

/-- A change of the session that leaves the settings, the servers and the favorites alone is the
connection's. -/
theorem near_edit (t : TaskId) (c : Core) {f : Session → Session}
    (hs : ∀ s, (f s).settings = s.settings) (hc : ∀ s, (f s).catalog = s.catalog)
    (hf : ∀ s, (f s).favorites = s.favorites) : Near t c (c.edit f) :=
  ⟨rfl, rfl, rfl, rfl, rfl, rfl, Nat.le_refl _, fun _ _ => rfl, rfl, hs _, hc _, hf _, rfl, rfl,
    rfl⟩

/-- The backend keeps what it holds back, its servers and its latency when it answers. -/
theorem near_answered {α : Type} (t : TaskId) (c : Core) {ask : Ask α} {a : Except BackendError α}
    {b : Backend} (h : c.backend.answer c.now ask = (a, b)) : Near t c { c with backend := b } := by
  obtain ⟨hh, hs, hl, -⟩ := Backend.answer_frame c.backend c.now ask
  rw [h] at hh hs hl
  exact ⟨rfl, rfl, rfl, rfl, rfl, rfl, Nat.le_refl _, fun _ _ => rfl, rfl, rfl, rfl, rfl, hh, hs,
    hl⟩

theorem Look.near {t : TaskId} {c c' : Core} (h : Look c c') : Near t c c' := by
  cases h with
  | counted =>
    exact ⟨rfl, rfl, rfl, rfl, rfl, rfl, Nat.le_refl _, fun _ _ => rfl, rfl, rfl, rfl, rfl, rfl,
      rfl, rfl⟩
  | answered => exact near_answered t c rfl
  | kept stats _ => exact near_edit t c (fun _ => rfl) (fun _ => rfl) (fun _ => rfl)

/-- Every move of a request is the business of the connection alone. -/
theorem Move.near {t : TaskId} {c c' : Core} (h : Move t c c') : Near t c c' := by
  cases h with
  | dial hs hv hh ha =>
    exact ⟨rfl, rfl, rfl, rfl, rfl, rfl, Nat.le_refl _, fun _ hu => put_stage_of_ne _ _ hu, rfl,
      rfl, rfl, rfl, rfl, rfl, rfl⟩
  | connect hs hd hv ha =>
    -- the answer first, and then the session with the tunnel
    refine (near_answered t c ha).trans ?_
    exact ⟨rfl, rfl, rfl, rfl, rfl, rfl, Nat.le_refl _, fun _ hu => put_stage_of_ne _ _ hu, rfl,
      rfl, rfl, rfl, rfl, rfl, rfl⟩
  | look hs h => exact h.near
  | hangUp hs hh =>
    exact ⟨rfl, rfl, rfl, rfl, rfl, rfl, Nat.le_refl _, fun _ hu => put_stage_of_ne _ _ hu, rfl,
      rfl, rfl, rfl, rfl, rfl, rfl⟩

/-- Settling a request is near its task, whatever the request comes to: the stages of the others,
the settings and their lock stay. -/
theorem Settle.near {t : TaskId} {c c' : Core} {s : Settled} (h : Settle t c s c') :
    Near t c c' := by
  cases h with
  | drop hs hv =>
    exact ⟨rfl, rfl, rfl, rfl, rfl, rfl, Nat.le_refl _, fun _ hu => put_stage_of_ne _ _ hu, rfl,
      rfl, rfl, rfl, rfl, rfl, rfl⟩
  | noServer hs hv hh hn => exact near_exit t c
  | abort hs hv => exact near_exit t c
  | refuse hs hd hv ha =>
    -- answer, session, and then the lock: three changes one after the other
    refine (near_answered t c ha).trans (.trans ?_ (near_exit t _))
    exact near_edit t _ (fun _ => rfl) (fun _ => rfl) (fun _ => rfl)
  | arrive pollers hs => exact (near_size t c pollers).trans (near_exit t _)
  | close hs hd ha =>
    refine (near_answered t c ha).trans (.trans ?_ (near_exit t _))
    exact near_edit t _ (fun _ => rfl) (fun _ => rfl) (fun _ => rfl)
  | fail hs hd ha =>
    refine (near_answered t c ha).trans (.trans ?_ (near_exit t _))
    exact near_edit t _ (fun _ => rfl) (fun _ => rfl) (fun _ => rfl)

theorem Travel.near {t : TaskId} {c c' : Core} {p : Progress Lifecycle Settled}
    (h : Travel t c p c') : Near t c c' := by
  induction h with
  | stay => exact .refl _ _
  | settle h => exact h.near
  | move h _ ih => exact h.near.trans ih

/-- A whole stretch of work stays near its task. It begins with joining the line at most, and goes
on with moves. -/
theorem Stretch.near {t : TaskId} {c c' : Core} {start : Start} {p : Progress Lifecycle Settled}
    (h : Stretch t c start p c') : Near t c c' := by
  cases h with
  | refuse => exact .refl _ _
  | connect _ _ ht => exact (near_enter t c _).trans ht.near
  | disconnect _ ht => exact (near_enter t c _).trans ht.near
  | resume _ ht => exact ht.near

/-- A step writes one task at most, which has not ended and becomes no receiver. So what has ended
stays ended, in every run. -/
theorem Step.entry_cases {c c' : Core} {acts : List Act} (h : Step c acts c') (u : TaskId) :
    c'.entry u = c.entry u ∨ (∀ how, c.entry u ≠ some (.ended how)) ∧
      ∃ k, c'.entry u = some k ∧ ∀ b, k ≠ .receiver b := by
  -- writing `t` leaves every other entry, and that of `t` is no receiver's
  have hwrite : ∀ {d : Core} {t : TaskId} {task : Task}, d.entry = c.entry →
      (∀ how, c.entry t ≠ some (.ended how)) → (∀ b, task ≠ .receiver b) →
      (d.write t task).entry u = c.entry u ∨ (∀ how, c.entry u ≠ some (.ended how)) ∧
        ∃ k, (d.write t task).entry u = some k ∧ ∀ b, k ≠ .receiver b := by
    intro d t task hd ht hk
    by_cases hu : u = t
    · subst hu
      exact .inr ⟨ht, task, Function.update_self _ _ _, hk⟩
    · left
      rw [← hd]
      exact Function.update_of_ne hu _ _
  -- who has a turn has not ended
  have hold : ∀ {t : TaskId} {old : Task}, c.entry t = some old → old.isEnded = false →
      ∀ how, c.entry t ≠ some (.ended how) := by
    intro t old ho hk how he
    rw [ho] at he
    cases he
    cases hk
  cases h with
  | aside h => exact .inl (congrFun h.entry_eq u)
  | @turn t old task ho ht =>
    have hend : old.isEnded = false := by cases ht <;> rfl
    have hk : ∀ b, task ≠ .receiver b := by
      rintro b rfl
      cases ht
    exact hwrite (d := c) rfl (hold ho hend) hk
  | @retire t ho =>
    -- a poller has no entry, so nothing is overwritten when it ends
    have hk : ∀ b, Task.ended .finished ≠ .receiver b := fun _ => nofun
    refine hwrite (d := c) (t := t) rfl (fun how he => ?_) hk
    rw [ho] at he
    cases he
  | takeAsk | takeLeave => exact .inl rfl
  | @ask _ _ _ p _ ho _ hs =>
    exact hwrite hs.near.entry (hold ho rfl) fun b hb => by cases p <;> cases hb
  | @leave _ p _ ho hs =>
    exact hwrite hs.near.entry (hold ho rfl) fun b hb => by cases p <;> cases hb
  | @resume _ _ p _ starts ho hs =>
    exact hwrite hs.near.entry (hold ho (by cases starts <;> rfl)) fun b hb => by
      cases p <;> cases hb
  | @begin _ _ _ _ _ p _ ho _ _ hs =>
    exact hwrite hs.near.entry (hold ho rfl) fun b hb => by cases p <;> cases hb
  | @carry _ _ _ _ p _ ho hs =>
    exact hwrite hs.near.entry (hold ho rfl) fun b hb => by cases p <;> cases hb

/-- No task becomes a receiver. -/
theorem Steps.receiver {c c' : Core} {acts : List Act} (h : Steps c acts c') {u : TaskId}
    {b : BridgeId} (hu : c'.entry u = some (.receiver b)) : c.entry u = some (.receiver b) := by
  induction h with
  | refl => exact hu
  | head h _ ih =>
    rcases h.entry_cases u with he | ⟨-, task, he, hk⟩
    · rw [← he]
      exact ih hu
    · have hr := ih hu
      rw [he] at hr
      exact absurd (Option.some.inj hr) (hk b)

/-- Who has ended stays so. -/
theorem Step.ended {c c' : Core} {acts : List Act} {u : TaskId} {how : Ending}
    (h : Step c acts c') (he : c.entry u = some (.ended how)) :
    c'.entry u = some (.ended how) := by
  rcases h.entry_cases u with hu | ⟨hn, -⟩
  · rw [hu]
    exact he
  · exact absurd he (hn how)

theorem Steps.ended {c c' : Core} {acts : List Act} {u : TaskId} {how : Ending}
    (h : Steps c acts c') (he : c.entry u = some (.ended how)) :
    c'.entry u = some (.ended how) := by
  induction h with
  | refl => exact he
  | head h _ ih => exact ih (h.ended he)

/-! ## Where a stretch of work ends -/

/-- A connect that waits for the backend asked it for a tunnel. -/
theorem isDial_of_stage {t : TaskId} {c : Core} {ticket due : Nat} {ask : Ask Server}
    (hs : ∀ l, c.stage t = some l → l.Sound)
    (hk : c.stage t = some (.dialing ticket (.running ask due 0))) : ask.IsDial := by
  obtain ⟨_, hd, _, he⟩ := hs _ hk
  cases he
  exact hd

/-- A request that moves waits for the call of the stage that it comes to. -/
theorem Move.stage_sound {t : TaskId} {c c' : Core} (h : Move t c c')
    (hs : ∀ l, c.stage t = some l → l.Sound) : ∀ l, c'.stage t = some l → l.Sound := by
  cases h with
  | dial _ _ _ ha =>
    intro l hl
    rw [put_stage_self] at hl
    cases hl
    exact ⟨_, Session.isDial_of_aim ha, _, rfl⟩
  | connect =>
    intro l hl
    rw [put_stage_self] at hl
    cases hl
    exact ⟨_, rfl⟩
  | look _ h =>
    -- looks leave the stages alone
    intro l hl
    rw [h.stage_eq] at hl
    exact hs l hl
  | hangUp =>
    intro l hl
    rw [put_stage_self] at hl
    cases hl
    exact ⟨_, rfl⟩

theorem Settle.stage_self {t : TaskId} {c c' : Core} {s : Settled} (h : Settle t c s c') :
    c'.stage t = none := by
  cases h <;> exact put_stage_self _ _ _

theorem Travel.stage_self {t : TaskId} {c c' : Core} {p : Progress Lifecycle Settled}
    (h : Travel t c p c') : c'.stage t = p.stage? := by
  induction h with
  | stay hs => exact hs
  | settle h => exact h.stage_self
  | move _ _ ih => exact ih

/-- On the way every stage waits for its own call. -/
theorem Travel.stage_sound {t : TaskId} {c c' : Core} {p : Progress Lifecycle Settled}
    (h : Travel t c p c') (hs : ∀ l, c.stage t = some l → l.Sound) :
    ∀ l, c'.stage t = some l → l.Sound := by
  induction h with
  | stay => exact hs
  | settle h =>
    intro l hl
    rw [h.stage_self] at hl
    cases hl
  | move h _ ih => exact ih (h.stage_sound hs)

theorem Stretch.stage_self {t : TaskId} {c c' : Core} {start : Start}
    {p : Progress Lifecycle Settled} (h : Stretch t c start p c') : c'.stage t = p.stage? := by
  cases h with
  | refuse hs => exact hs
  | connect _ _ ht => exact ht.stage_self
  | disconnect _ ht => exact ht.stage_self
  | resume _ ht => exact ht.stage_self

/-- What a stretch of work waits for at its end is the call of its stage, with the operation that
this stage calls for. -/
theorem Stretch.stage_sound {t : TaskId} {c c' : Core} {start : Start}
    {p : Progress Lifecycle Settled} (h : Stretch t c start p c')
    (hs : ∀ l, c.stage t = some l → l.Sound) : ∀ l, p = .waiting l → l.Sound := by
  have he : ∀ l, c'.stage t = some l → l.Sound := by
    cases h with
    | refuse => exact hs
    | connect _ _ ht =>
      -- who is in line waits for no call
      refine ht.stage_sound fun l hl => ?_
      rw [show (c.enter t _).stage t = _ from put_stage_self _ _ _] at hl
      cases hl
      exact trivial
    | disconnect _ ht =>
      refine ht.stage_sound fun l hl => ?_
      rw [show (c.enter t _).stage t = _ from put_stage_self _ _ _] at hl
      cases hl
      exact trivial
    | resume _ ht => exact ht.stage_sound hs
  intro l hp
  refine he l ?_
  rw [h.stage_self, hp]
  rfl

/-! ## Sound cores -/

/-- Every task waits for the call of its stage, and entries and stages agree. -/
structure Sound (c : Core) : Prop where
  prompt : c.backend.Prompt
  entry : ∀ t task, c.entry t = some task → task.Sound
  agree : ∀ t, c.stage t = (c.entry t).bind Task.lifecycle?
  looking : ∀ t call, c.looking t = some call → call.Runs .stats
  apart : ∀ t, c.entry t ≠ none → c.looking t = none
  small : ∀ t, c.size ≤ t → c.entry t = none ∧ c.looking t = none

theorem Sound.lt_size {c : Core} (h : c.Sound) {t : TaskId} {task : Task}
    (he : c.entry t = some task) : t < c.size := by
  rcases Nat.lt_or_ge t c.size with hlt | hge
  · exact hlt
  · rw [(h.small t hge).1] at he
    cases he

theorem Sound.stage_of_entry {c : Core} (h : c.Sound) {t : TaskId} {task : Task}
    (he : c.entry t = some task) : c.stage t = task.lifecycle? := by
  rw [h.agree, he]
  rfl

/-- Entries wait for the right call, and stages agree with them. -/
theorem Sound.stage_sound {c : Core} (h : c.Sound) (t : TaskId) :
    ∀ l, c.stage t = some l → l.Sound := by
  intro l hl
  rw [h.agree] at hl
  obtain ⟨task, he, hk⟩ := Option.bind_eq_some_iff.1 hl
  have hs := h.entry t task he
  unfold Task.lifecycle? at hk
  split at hk <;> cases hk <;> exact hs

/-- A command that got so far with its request is at the stage that it got to. -/
theorem callTask_lifecycle? (starts : Bool) (p : Progress Lifecycle Settled) :
    (callTask starts p).lifecycle? = p.stage? := by
  cases p <;> cases starts <;> rfl

theorem jobTask_lifecycle? (b : BridgeId) (job : Job) (p : Progress Lifecycle Settled) :
    (jobTask b job p).lifecycle? = p.stage? := by
  cases p <;> rfl

theorem callTask_sound {starts : Bool} {p : Progress Lifecycle Settled}
    (h : ∀ l, p = .waiting l → l.Sound) : (callTask starts p).Sound := by
  cases p with
  | waiting l => cases starts <;> exact h l rfl
  | done s => exact trivial

theorem jobTask_sound {b : BridgeId} {job : Job} {p : Progress Lifecycle Settled}
    (h : ∀ l, p = .waiting l → l.Sound) : (jobTask b job p).Sound := by
  cases p with
  | waiting l => exact h l rfl
  | done s => exact trivial

/-- A stretch of work with its entry written at the end keeps a core sound. In between the stage of
the task is ahead of its entry, which is why the two are one lemma. -/
theorem Sound.stretch {c c' : Core} {t : TaskId} {old task : Task} {start : Start}
    {p : Progress Lifecycle Settled} (hc : c.Sound) (ho : c.entry t = some old)
    (hs : Stretch t c start p c') (hl : task.lifecycle? = p.stage?)
    (ht : (∀ l, p = .waiting l → l.Sound) → task.Sound) : (c'.write t task).Sound := by
  have hn := hs.near
  have hlt := hc.lt_size ho
  refine ⟨hn.holds.trans hc.prompt, ?_, ?_, ?_, ?_, ?_⟩
  · -- the entry that is written, and the others
    intro u k hu
    by_cases h : u = t
    · subst h
      simp only [write, Function.update_self] at hu
      cases hu
      exact ht (hs.stage_sound (hc.stage_sound u))
    · simp only [write, Function.update_of_ne h, hn.entry] at hu
      exact hc.entry u k hu
  · -- its stage agrees with it; other stages were left alone
    intro u
    by_cases h : u = t
    · subst h
      simp only [write, Function.update_self]
      exact hs.stage_self.trans hl.symm
    · simp only [write, Function.update_of_ne h, hn.entry]
      exact (hn.stage u h).trans (hc.agree u)
  · intro u call hu
    rw [show (c'.write t task).looking = c.looking from hn.looking] at hu
    exact hc.looking u call hu
  · -- who looks at the statistics is a poller, and no entry
    intro u hu
    rw [show (c'.write t task).looking = c.looking from hn.looking]
    refine hc.apart u fun he => hu ?_
    by_cases h : u = t
    · subst h
      rw [ho] at he
      cases he
    · simp only [write, Function.update_of_ne h, hn.entry]
      exact he
  · -- beyond the last task there is still nobody
    intro u hu
    have hle : c.size ≤ u := Nat.le_trans hn.size hu
    have hne : u ≠ t := Nat.ne_of_gt (Nat.lt_of_lt_of_le hlt hle)
    simp only [write, Function.update_of_ne hne, hn.entry, hn.looking]
    exact hc.small u hle

/-- A task is written, with the stage it is at. Entry and stage are written together, so that they
agree. -/
theorem Sound.put_write {c : Core} {t : TaskId} (hc : c.Sound) (task : Task) (ht : t < c.size)
    (hl : c.looking t = none) (hs : task.Sound) :
    ((c.put t task.lifecycle?).write t task).Sound := by
  refine ⟨hc.prompt, ?_, ?_, hc.looking, ?_, ?_⟩
  · -- only the task that is written has a new entry
    intro u k hu
    by_cases h : u = t
    · subst h
      simp only [Core.write, Function.update_self] at hu
      cases hu
      exact hs
    · simp only [Core.write, Function.update_of_ne h] at hu
      exact hc.entry u k hu
  · -- its stage was put first, so the two agree
    intro u
    by_cases h : u = t
    · subst h
      simp [Core.write, Core.put]
    · simp only [Core.write, Core.put, Function.update_of_ne h]
      exact hc.agree u
  · intro u hu
    by_cases h : u = t
    · subst h
      exact hl
    · simp only [Core.write, Function.update_of_ne h] at hu
      exact hc.apart u hu
  · -- beyond the last task there is nobody to write
    intro u hu
    have hne : u ≠ t := Nat.ne_of_gt (Nat.lt_of_lt_of_le ht hu)
    simp only [Core.write, Function.update_of_ne hne]
    exact hc.small u hu

/-- A task that stays at its stage is written. -/
theorem Sound.write {c : Core} {t : TaskId} (hc : c.Sound) (task : Task) (ht : t < c.size)
    (hl : c.looking t = none) (hs : task.Sound) (hk : task.lifecycle? = c.stage t) :
    (c.write t task).Sound := by
  have h := hc.put_write task ht hl hs
  rwa [put_self hk.symm] at h

/-- What leaves the connection alone leaves entries and stages alone; a look of a poller is the only
thing that is written. -/
theorem Sound.aside {c c' : Core} (hc : c.Sound) (h : Aside c c') : c'.Sound := by
  cases h with
  | look h =>
    cases h with
    | counted => exact ⟨hc.prompt, hc.entry, hc.agree, hc.looking, hc.apart, hc.small⟩
    | answered =>
      exact ⟨hc.prompt.answer _ _, hc.entry, hc.agree, hc.looking, hc.apart, hc.small⟩
    | kept => exact ⟨hc.prompt, hc.entry, hc.agree, hc.looking, hc.apart, hc.small⟩
  | answered => exact ⟨hc.prompt.answer _ _, hc.entry, hc.agree, hc.looking, hc.apart, hc.small⟩
  | called | settings | autoConnect | catalog | favorites | writes | bridge =>
    exact ⟨hc.prompt, hc.entry, hc.agree, hc.looking, hc.apart, hc.small⟩
  | @looking t call ho ht hr =>
    -- the look is that of a poller, which has no entry and exists
    refine ⟨hc.prompt, hc.entry, hc.agree, ?_, ?_, ?_⟩
    · intro u k hu
      by_cases h : u = t
      · subst h
        simp only [Function.update_self] at hu
        exact hr k hu
      · simp only [Function.update_of_ne h] at hu
        exact hc.looking u k hu
    · intro u hu
      have hne : u ≠ t := by
        intro h
        subst h
        exact hu ho
      simp only [Function.update_of_ne hne]
      exact hc.apart u hu
    · intro u hu
      have hne : u ≠ t := Nat.ne_of_gt (Nat.lt_of_lt_of_le ht hu)
      simp only [Function.update_of_ne hne]
      exact hc.small u hu

theorem Sound.bridges {c : Core} (hc : c.Sound) (bs : List Bridge) :
    Sound { c with bridges := bs } :=
  ⟨hc.prompt, hc.entry, hc.agree, hc.looking, hc.apart, hc.small⟩

theorem Sound.quiet {c c' : Core} (hc : c.Sound) (h : Quiet c c') : c'.Sound := by
  induction h with
  | refl => exact hc
  | tail _ h ih => exact ih.aside h

theorem Sound.later {c : Core} (hc : c.Sound) : Sound { c with epoch := c.epoch + 1 } :=
  ⟨hc.prompt, hc.entry, hc.agree, hc.looking, hc.apart, hc.small⟩

/-- Every step keeps a core sound. -/
theorem Sound.step {c c' : Core} {acts : List Act} (hc : c.Sound) (h : Step c acts c') :
    c'.Sound := by
  cases h with
  | aside h => exact hc.aside h
  | turn ho h hs =>
    refine hc.write _ (hc.lt_size ho) (hc.apart _ (by simp [ho])) hs ?_
    rw [hc.agree, ho]
    cases h with
    | wait h h' _ => exact h'.trans h.symm
    | reply h r => exact h.symm
    | receiver | worker => rfl
  | retire ho ht =>
    -- a poller gives up its look before it ends
    have hl : Sound { c with looking := Function.update c.looking _ none } :=
      hc.aside (.looking ho ht fun _ hk => nomatch hk)
    refine hl.write _ ht (by simp) trivial ?_
    show none = c.stage _
    rw [hc.agree, ho]
    rfl
  | takeAsk | takeLeave => exact ⟨hc.prompt, hc.entry, hc.agree, hc.looking, hc.apart, hc.small⟩
  | ask ho _ hs => exact hc.stretch ho hs (callTask_lifecycle? _ _) callTask_sound
  -- the disconnect is counted first, and then the task waits in line
  | leave ho hs => exact hc.later.stretch ho hs (callTask_lifecycle? _ _) callTask_sound
  | resume starts ho hs => exact hc.stretch ho hs (callTask_lifecycle? _ _) callTask_sound
  | @begin t b bridge job rest p c' ho hb hj hs =>
    have he : (c.takeJob b rest).Sound := hc.bridges _
    exact he.stretch ho hs (jobTask_lifecycle? _ _ _) jobTask_sound
  | carry ho hs => exact hc.stretch ho hs (jobTask_lifecycle? _ _ _) jobTask_sound

theorem Sound.steps {c c' : Core} {acts : List Act} (hc : c.Sound) (h : Steps c acts c') :
    c'.Sound := by
  induction h with
  | refl => exact hc
  | head h _ ih => exact ih (hc.step h)

/-- A task is made behind all others. -/
theorem Sound.grow {c : Core} (hc : c.Sound) (n : Nat) : Sound { c with size := c.size + n } :=
  ⟨hc.prompt, hc.entry, hc.agree, hc.looking, hc.apart,
    fun t ht => hc.small t (Nat.le_trans (Nat.le_add_right _ _) ht)⟩

theorem Sound.stage_small {c : Core} (hc : c.Sound) {t : TaskId} (ht : c.size ≤ t) :
    c.stage t = none := by
  rw [hc.agree, (hc.small t ht).1]
  rfl

theorem Sound.spawnCall {c : Core} (hc : c.Sound) (command : Command) :
    (c.spawnCall command).Sound :=
  (hc.grow 1).write _ (Nat.lt_succ_self _) (hc.small _ (Nat.le_refl _)).2 trivial
    (hc.stage_small (Nat.le_refl _)).symm

/-- Every change from outside keeps a core sound. -/
theorem Sound.outside {c c' : Core} {e : Event} (hc : c.Sound) (h : Outside c e c') :
    c'.Sound := by
  cases h with
  | call | go => exact hc.spawnCall _
  | pass | fail | pin | bridge =>
    exact ⟨hc.prompt, hc.entry, hc.agree, hc.looking, hc.apart, hc.small⟩
  | startPolling => exact hc.grow 1
  | stopPolling => exact hc
  | @openBridge bridge _ _ =>
    -- two tasks are made, the worker first and then the receiver
    have hw := ((hc.grow 2).bridges (c.bridges ++ [bridge])).write (t := c.size)
      (.worker c.bridges.length none) (Nat.lt_add_of_pos_right Nat.two_pos)
      (hc.small _ (Nat.le_refl _)).2 trivial
      (hc.stage_small (Nat.le_refl _)).symm
    exact hw.write _ (Nat.add_lt_add_left Nat.one_lt_two _) (hc.small _ (Nat.le_succ _)).2 trivial
      (hc.stage_small (Nat.le_succ _)).symm

end Core

end TunnelSession
