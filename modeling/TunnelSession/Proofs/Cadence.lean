/-
  The cadence of a poller.

  LOOKS.  `Client.looks` lists when a poller called the backend: one entry for each call that was
  counted in a turn of it.

  TURN.  In a turn a poller first waits on for the call that it has under way, if it has one.  Then
  it makes the looks that are due by now, the first of which is due when the poller says, and each
  other one a period later at least (`Poller.Advances`); with a latency the first one ends the turn.

  ANY ORDER.  So no look is ever early, and none starts before the latency of the one before it is
  over (`Client.Cadenced`), whoever has a turn when, and however much time passes between two turns.

  SCHEDULE.  Time passes only when nobody is ready, and not past a timer (`Client.Scheduled`).  Then
  a poller wakes at the instant it waits for; if the latency is less than the period, that is never
  after the next look is due, and so every look is on time (`Client.Punctual`).
-/
import Mathlib.Data.List.Chain
import TunnelSession.Proofs.Deeds

namespace TunnelSession

/-- When the poller goes on: when its call is over, or else when its next look is due. -/
def Poller.wake (p : Poller) : Nat := p.call.elim p.due Call.due

/-- The poller made `n` looks in a turn, all of them at one instant. -/
structure Poller.Advances (now latency n : Nat) (p q : Poller) : Prop where
  going : q.cancelled = p.cancelled
  period : q.period = p.period
  reached : ∀ i < n, p.due + i * p.period ≤ now
  later : p.due + n * p.period ≤ q.due
  exact : now ≤ p.due + Client.slack → q.due = p.due + n * p.period
  asked : q.call = none ∧ (n = 0 ∨ latency = 0) ∨
    n = 1 ∧ 0 < latency ∧ ∃ call, q.call = some call ∧ call.due = now + latency

/-- The next look is due a period later at least, and no more than that if it started in time. -/
theorem nextLook_bounds {due now : Nat} (period : Nat) (h : due ≤ now) :
    due + period ≤ Client.nextLook due period now ∧
      (now ≤ due + Client.slack → Client.nextLook due period now = due + period) := by
  unfold Client.nextLook
  split
  · exact ⟨Nat.add_le_add_right h period, fun hle => by omega⟩
  · exact ⟨Nat.le_refl _, fun _ => rfl⟩

/-- One more look, without latency: what the looks after it advance by is reached one look later, at
its due time and a period on. -/
theorem Poller.Advances.after_look {now latency n : Nat} {p r q : Poller}
    (h : Poller.Advances now latency n r q) (hl : latency = 0) (hdue : p.due ≤ now)
    (hr : r.due = Client.nextLook p.due p.period now) (hp : r.period = p.period)
    (hc : r.cancelled = p.cancelled) : Poller.Advances now latency (n + 1) p q where
  going := h.going.trans hc
  period := h.period.trans hp
  reached i hi := by
    -- the look that was just made, or one of those after it
    cases i with
    | zero => rwa [Nat.zero_mul, Nat.add_zero]
    | succ i =>
      have hreach := h.reached i (Nat.lt_of_succ_lt_succ hi)
      have hnext := (nextLook_bounds p.period hdue).1
      rw [hr, hp] at hreach
      rw [Nat.succ_mul]
      omega
  later := by
    have hlater := h.later
    have hnext := (nextLook_bounds p.period hdue).1
    rw [hr, hp] at hlater
    rw [Nat.succ_mul]
    omega
  exact hle := by
    have hnext := (nextLook_bounds p.period hdue).2 hle
    have hexact := h.exact (by rw [hr, hnext]; omega)
    rw [hr, hp, hnext] at hexact
    rw [hexact, Nat.succ_mul]
    omega
  asked := by
    rcases h.asked with ⟨hq, -⟩ | ⟨-, hpos, -⟩
    · exact .inl ⟨hq, .inr hl⟩
    · omega

theorem Deed.lapse_eq_zero {d : Deed} (h : ∀ ms, d ≠ .event (.pass ms)) : d.lapse = 0 := by
  cases d with
  | drop => rfl
  | event e =>
    cases e with
    | pass ms => exact absurd rfl (h ms)
    | _ => rfl

namespace Client

open TunnelSession.Core

variable {w w' w₁ v : Client} {t u : TaskId} {d : Deed} {p q : Poller} {n : Nat}

/-! ## Looks -/

/-- How often the backend was asked for statistics. -/
def statsCalls (w : Client) : Nat := w.backend.calls.get .getStats

/-- When the task called the backend for statistics in a deed. -/
def looksIn (w : Client) (t : TaskId) : Deed → List Nat
  | .event (.poll u) =>
    if u = t then List.replicate ((w.poll t).statsCalls - w.statsCalls) w.now else []
  | _ => []

/-- When the task called the backend for statistics. -/
def looks (w : Client) (t : TaskId) : List Deed → List Nat
  | [] => []
  | d :: deeds => w.looksIn t d ++ (w.does d).looks t deeds

/-- Something holds at every point of a run. -/
def Always (P : Client → Prop) (w : Client) : List Deed → Prop
  | [] => P w
  | d :: deeds => P w ∧ (w.does d).Always P deeds

/-- Time passes only when nobody is ready, and not past a timer. -/
def Scheduled (w : Client) : List Deed → Prop
  | [] => True
  | d :: deeds =>
    (0 < d.lapse → w.ready = [] ∧ ∀ x ∈ w.timers, w.now + d.lapse ≤ x.1) ∧
      (w.does d).Scheduled deeds

/-- The poller has the slot, and the connection is up. -/
def Watched (t : TaskId) (w : Client) : Prop := w.poller = some t ∧ w.session.state = .connected

instance (t : TaskId) : DecidablePred (Watched t) :=
  fun w => inferInstanceAs (Decidable (w.poller = some t ∧ w.session.state = .connected))

instance decidableAlways (P : Client → Prop) [DecidablePred P] (w : Client) :
    (deeds : List Deed) → Decidable (w.Always P deeds)
  | [] => inferInstanceAs (Decidable (P w))
  | d :: deeds =>
    have := decidableAlways P (w.does d) deeds
    inferInstanceAs (Decidable (P w ∧ (w.does d).Always P deeds))

instance decidableScheduled (w : Client) : (deeds : List Deed) → Decidable (w.Scheduled deeds)
  | [] => inferInstanceAs (Decidable True)
  | d :: deeds =>
    have := decidableScheduled (w.does d) deeds
    inferInstanceAs (Decidable ((0 < d.lapse → w.ready = [] ∧ ∀ x ∈ w.timers,
      w.now + d.lapse ≤ x.1) ∧ (w.does d).Scheduled deeds))

theorem Always.here {P : Client → Prop} {deeds : List Deed} (h : w.Always P deeds) : P w := by
  cases deeds with
  | nil => exact h
  | cons => exact h.1

/-! ## One turn -/

/-- A turn of a poller is over: it waits, with its timer set, and called the backend `n` times. -/
structure MakesLooks (t : TaskId) (n : Nat) (q : Poller) (w w' : Client) : Prop where
  task : w'.task? t = some (.poller q)
  calls : w'.statsCalls = w.statsCalls + n
  latency : w'.backend.latency = w.backend.latency
  timer : (q.wake, t) ∈ w'.timers
  wakes : w.now < q.wake

/-- To take statistics in is not the backend's business. -/
theorem backend_commitStats (w : Client) (a : Except BackendError Stats) :
    (w.commitStats a).1.backend = w.backend := by
  cases a with
  | error e => rfl
  | ok stats =>
    unfold commitStats
    dsimp only
    split
    · exact congrArg Core.backend (core_update w fun s => { s with stats := some stats })
    · rfl

theorem backend_reportLook (w : Client) (kept : Bool) :
    (w.reportLook kept).backend = w.backend := by
  cases kept <;> rfl

/-- A look that starts while the connection is up calls the backend once, and is over at once only
if there is no latency. -/
theorem fetchStats_up (w : Client) (t : TaskId) (hup : w.session.state = .connected)
    (hp : w.backend.Prompt) :
    let r := w.fetchStats t
    (r.1.backend.Prompt ∧ r.1.backend.latency = w.backend.latency ∧
      r.1.statsCalls = w.statsCalls + 1) ∧
    (w.backend.latency = 0 ∧ (∃ kept, r.2 = .done kept) ∨
      0 < w.backend.latency ∧ (w.now + w.backend.latency, t) ∈ r.1.timers ∧
        r.2 = .waiting (.running .stats (w.now + w.backend.latency) 0)) := by
  have hfetch : w.fetchStats t = settleStats (w.startCall t .stats) :=
    if_pos (by rw [hup]; rfl)
  -- the call is under way, with a timer for its end, or was answered at once
  rcases startCall_cases w t .stats hp with ⟨w', h, hlt, hc⟩ | ⟨w', a, b, h, hle, ha, hc⟩
  · have hb : w'.backend = w.backend.count .getStats := congrArg Core.backend hc
    have hreach : Reaches t [.connection] w none _ _ _ := reaches_startCall w t .stats
    rw [h] at hreach
    have hnaps := hreach.naps nofun _ rfl
    rw [hfetch, h]
    dsimp only [settleStats]
    unfold statsCalls
    rw [hb]
    exact ⟨⟨hp, rfl, rfl⟩, .inr ⟨Nat.lt_add_right_iff_pos.1 hlt, hnaps.timer, rfl⟩⟩
  · have hb : w'.backend = b := congrArg Core.backend hc
    obtain ⟨hholds, -, hlatency, -, -, hcalls⟩ :=
      Backend.answer_frame (w.backend.count .getStats) w.now .stats
    have hb' : ((w.backend.count .getStats).answer w.now .stats).2 = b := congrArg Prod.snd ha
    rw [hb'] at hholds hlatency hcalls
    rw [hfetch, h]
    dsimp only [settleStats]
    unfold statsCalls
    rw [backend_commitStats, hb, hcalls]
    refine ⟨⟨hholds.trans hp, hlatency, rfl⟩, .inl ⟨?_, _, rfl⟩⟩
    exact Nat.eq_zero_of_not_pos fun hpos => Nat.not_lt.2 hle (Nat.lt_add_of_pos_right hpos)

/-- A poller finds the connection up, and a backend that holds nothing back. -/
structure FindsUp (t : TaskId) (w : Client) : Prop where
  up : w.session.state = .connected
  shown : w.published = w.session.state
  prompt : w.backend.Prompt
  there : t < w.tasks.length

/-- What leaves the connection alone leaves it up. -/
theorem FindsUp.connKept (h : FindsUp t w) (hl : ConnKept w w') (hp : w'.backend.Prompt) :
    FindsUp t w' where
  up := hl.state.trans h.up
  shown := (hl.published h.shown).1
  prompt := hp
  there := by
    rw [hl.tasks]
    exact h.there

/-- A poller that finds the connection up does not end, whether it has seen the last version or
not. -/
theorem FindsUp.goes_on (h : FindsUp t w) (p : Poller) :
    ¬ (p.seen ≠ w.version ∧ w.published.isConnected = false) := by
  rintro ⟨-, hdown⟩
  rw [h.shown, h.up] at hdown
  cases hdown

/-- The next look is later: the poller waits for it, with its timer set, and makes none. -/
theorem makesLooks_wait (h : FindsUp t w) (hcall : p.call = none) (hlt : w.now < p.due)
    (seen : Nat) :
    MakesLooks t 0 { p with seen := seen } w
        ((w.arm p.due t).setTask t (.poller { p with seen := seen })) ∧
      p.Advances w.now w.backend.latency 0 { p with seen := seen } := by
  have hwake : ({ p with seen := seen } : Poller).wake = p.due := by
    unfold Poller.wake
    rw [show ({ p with seen := seen } : Poller).call = none from hcall]
    rfl
  have hb : (w.arm p.due t).backend = w.backend := congrArg Core.backend (core_arm w p.due t)
  have hzero : p.due = p.due + 0 * p.period := by rw [Nat.zero_mul, Nat.add_zero]
  refine ⟨⟨?_, ?_, ?_, ?_, ?_⟩, ⟨rfl, rfl, nofun, Nat.le_of_eq hzero.symm, fun _ => hzero,
    .inl ⟨hcall, .inl rfl⟩⟩⟩
  · rw [task?_setTask _ _ _ (by rw [(connKept_arm w p.due t).tasks]; exact h.there), if_pos rfl]
  · exact congrArg (·.calls.get .getStats) hb
  · exact congrArg Backend.latency hb
  · rw [hwake]
    exact mem_timers_arm w p.due t
  · rwa [hwake]

/-- A look is under way: the poller waits for its answer, and knows when the next one is due. -/
theorem makesLooks_asked (h : FindsUp t w) (hpos : 0 < w.backend.latency) (hdue : p.due ≤ w.now)
    (hq : q = { p with
      seen := w.version
      due := nextLook p.due p.period w.now
      call := some (.running .stats (w.now + w.backend.latency) 0) })
    (hl : ConnKept w v) (hcalls : v.statsCalls = w.statsCalls + 1)
    (hlatency : v.backend.latency = w.backend.latency)
    (ht : (w.now + w.backend.latency, t) ∈ v.timers) :
    MakesLooks t 1 q w (v.setTask t (.poller q)) ∧ p.Advances w.now w.backend.latency 1 q := by
  obtain ⟨hnext, hexact⟩ := nextLook_bounds p.period hdue
  subst hq
  refine ⟨⟨?_, hcalls, hlatency, ht, Nat.lt_add_of_pos_right hpos⟩, ⟨rfl, rfl, fun i hi => ?_, ?_,
    fun hle => ?_, .inr ⟨rfl, hpos, _, rfl, rfl⟩⟩⟩
  · rw [task?_setTask _ _ _ (by rw [hl.tasks]; exact h.there), if_pos rfl]
  · rw [Nat.lt_one_iff.1 hi, Nat.zero_mul]
    exact hdue
  · rw [Nat.one_mul]
    exact hnext
  · rw [Nat.one_mul]
    exact hexact hle

/-- A poller that is in no call makes the looks that are due by now: one if there is a latency, and
as many as periods have passed if there is none. -/
theorem makesLooks_pollerTurn (t : TaskId) (looks : Nat) (p : Poller) (w : Client) (h : FindsUp t w)
    (hcall : p.call = none) (hlooks : w.now < p.due + looks) (hperiod : 0 < p.period) :
    ∃ n q, MakesLooks t n q w (pollerTurn t looks p w) ∧
      p.Advances w.now w.backend.latency n q := by
  -- the induction is on the looks that the turn may take
  induction looks generalizing p w with
  | zero =>
    unfold pollerTurn
    rw [if_neg (h.goes_on p)]
    exact ⟨0, _, makesLooks_wait h hcall hlooks w.version⟩
  | succ looks ih =>
    unfold pollerTurn
    rw [if_neg (h.goes_on p)]
    dsimp only
    split
    · rename_i hlt
      exact ⟨0, _, makesLooks_wait h hcall hlt w.version⟩
    · rename_i hge
      have hdue : p.due ≤ w.now := Nat.le_of_not_lt hge
      have hnext := (nextLook_bounds p.period hdue).1
      obtain ⟨⟨hprompt, hlatency, hcalls⟩, hend⟩ := fetchStats_up w t h.up h.prompt
      have hl := connKept_fetchStats w t
      rcases hr : w.fetchStats t with ⟨v, call | kept⟩
      · rw [hr] at hlatency hcalls hend hl
        obtain ⟨-, _, hdone⟩ | ⟨hpos, htimer, hwaits⟩ := hend
        · cases hdone
        · cases hwaits
          exact ⟨1, _, makesLooks_asked h hpos hdue rfl hl hcalls hlatency htimer⟩
      · rw [hr] at hprompt hlatency hcalls hend hl
        obtain ⟨hzero, -⟩ | ⟨-, -, hwaits⟩ := hend
        · -- without latency the next look may be due as well
          have hb := backend_reportLook v kept
          have hl' := hl.trans (connKept_reportLook v kept)
          obtain ⟨n, q, hs, ha⟩ := ih
            { p with seen := w.version, due := nextLook p.due p.period w.now, call := none }
            (v.reportLook kept) (h.connKept hl' (by rw [hb]; exact hprompt)) rfl
            (by rw [hl'.now]; dsimp only; omega) hperiod
          rw [hl'.now, hb, hlatency] at ha
          refine ⟨n + 1, q, ⟨hs.task, ?_, ?_, hs.timer, by rw [← hl'.now]; exact hs.wakes⟩,
            ha.after_look hzero hdue rfl rfl rfl⟩
          · rw [hs.calls, statsCalls, hb, show v.backend.calls.get .getStats = _ from hcalls]
            omega
          · rw [hs.latency, hb, hlatency]
        · cases hwaits

/-- The call is not over yet. -/
theorem makesLooks_hold (h : FindsUp t w) {due : Nat}
    (hcall : p.call = some (.running .stats due 0))
    (hlt : w.now < due) : MakesLooks t 0 p w ((w.arm due t).setTask t (.poller p)) := by
  have hwake : p.wake = due := by
    unfold Poller.wake
    rw [hcall]
    rfl
  have hb : (w.arm due t).backend = w.backend := congrArg Core.backend (core_arm w due t)
  refine ⟨?_, congrArg (·.calls.get .getStats) hb, congrArg Backend.latency hb, ?_, hwake ▸ hlt⟩
  · rw [task?_setTask _ _ _ (by rw [(connKept_arm w due t).tasks]; exact h.there), if_pos rfl]
  · rw [hwake]
    exact mem_timers_arm w due t

/-- The call is over: it is answered, and counts no more. -/
theorem resumeStats_over (w : Client) (t : TaskId) {due : Nat} (hle : due ≤ w.now)
    (hp : w.backend.Prompt) :
    ∃ v kept, w.resumeStats t (.running .stats due 0) = (v, .done kept) ∧ v.backend.Prompt ∧
      v.backend.latency = w.backend.latency ∧ v.statsCalls = w.statsCalls := by
  obtain ⟨hholds, -, hlatency, -, -, hcalls⟩ := Backend.answer_frame w.backend w.now .stats
  have hover : ¬ w.now < (.running .stats due 0 : Call Stats).due := Nat.not_lt.2 hle
  unfold resumeStats resumeCall answerCall
  rw [if_neg hover]
  dsimp only
  rw [if_pos rfl]
  refine ⟨_, _, rfl, ?_, ?_, ?_⟩
  · rw [backend_commitStats]
    exact hholds.trans hp
  · rw [backend_commitStats]
    exact hlatency
  · unfold statsCalls
    rw [backend_commitStats]
    exact congrArg (Operation.Table.get · .getStats) hcalls

/-- A poller waits on for its call, or makes the looks that are due by now. Which one it is depends
on whether the call is over. -/
theorem makesLooks_poll (h : w.Steady) (hup : w.session.state = .connected)
    (hp : w.task? t = some (.poller p)) (hgoing : p.cancelled = false) (hperiod : 0 < p.period) :
    (∃ call, p.call = some call ∧ MakesLooks t 0 p w (w.poll t)) ∨
      (∀ call, p.call = some call → call.due ≤ w.now) ∧
        ∃ n q, MakesLooks t n q w (w.poll t) ∧ p.Advances w.now w.backend.latency n q := by
  have hlt : t < w.tasks.length := (List.getElem?_eq_some_iff.1 hp).1
  have hrun : w.poll t = ({ w with ready := w.ready.erase t } : Client).runPoller t p := by
    unfold poll run
    rw [show ({ w with ready := w.ready.erase t } : Client).task? t = _ from hp]
  -- the client that it finds
  generalize hu : ({ w with ready := w.ready.erase t } : Client) = u at hrun
  have hsame : u.now = w.now ∧ u.backend = w.backend := hu ▸ ⟨rfl, rfl⟩
  have hfinds : FindsUp t u := hu ▸ ⟨hup, h.shown, h.sound.prompt, hlt⟩
  have hlooks₀ : ∀ {n q w'}, MakesLooks t n q u w' → MakesLooks t n q w w' := by
    subst hu
    exact fun hs => ⟨hs.task, hs.calls, hs.latency, hs.timer, hs.wakes⟩
  rw [hrun, ← hsame.1, ← hsame.2]
  unfold runPoller
  rw [if_neg (Nat.pos_iff_ne_zero.1 hperiod), if_neg (by rw [hgoing]; exact Bool.false_ne_true)]
  cases hcall : p.call with
  | none =>
    -- no look is under way: those that are due by now are made
    obtain ⟨n, q, hs, ha⟩ := makesLooks_pollerTurn t (u.now + 1 - p.due) p u hfinds hcall (by omega)
      hperiod
    exact .inr ⟨nofun, n, q, hlooks₀ hs, ha⟩
  | some call =>
    obtain ⟨due, rfl⟩ : call.Runs .stats := h.sound.looking t call (by
      show (w.task? t).bind Task.look? = _
      rw [hp]
      exact hcall)
    dsimp only
    rcases Nat.lt_or_ge u.now due with hlt | hle
    · -- the call is not over, and the poller waits on as it is
      have hr : u.resumeStats t (.running .stats due 0) =
          (u.arm due t, .waiting (.running .stats due 0)) := by
        have hearly : u.now < (.running .stats due 0 : Call Stats).due := hlt
        unfold resumeStats resumeCall
        rw [if_pos hearly]
        rfl
      have hq : ({ p with call := some (.running .stats due 0) } : Poller) = p := by
        rw [← hcall]
      rw [hr]
      dsimp only
      rw [hq]
      exact .inl ⟨_, rfl, hlooks₀ (makesLooks_hold hfinds hcall hlt)⟩
    · -- the call is over: its answer is reported, and then come the looks that are due
      obtain ⟨v, kept, hr, hprompt, hlatency, hcalls⟩ :=
        resumeStats_over u t hle hfinds.prompt
      have hl := connKept_resumeStats u t (.running .stats due 0)
      rw [hr] at hl ⊢
      have hl' := hl.trans (connKept_reportLook v kept)
      have hb := backend_reportLook v kept
      dsimp only
      have hbudget : (v.reportLook kept).now < p.due + (v.now + 1 - p.due) := by
        rw [hl'.now, show v.now = u.now from hl.now]
        omega
      obtain ⟨n, q, hs, ha⟩ := makesLooks_pollerTurn t (v.now + 1 - p.due) { p with call := none }
        (v.reportLook kept) (hfinds.connKept hl' (by rw [hb]; exact hprompt)) rfl hbudget hperiod
      rw [hl'.now, hb, hlatency] at ha
      refine .inr ⟨fun call hc => ?_, n, q, hlooks₀ ⟨hs.task, ?_, ?_, hs.timer, ?_⟩,
        ha.going, ha.period, ha.reached, ha.later, ha.exact, ha.asked⟩
      · cases hc
        exact hle
      · rw [hs.calls, statsCalls, hb]
        exact congrArg (· + n) hcalls
      · rw [hs.latency, hb, hlatency]
      · rw [← hl'.now]
        exact hs.wakes

/-! ## Any order -/

/-- The looks of a poller that was started at `start`, in any order of turns: none is early, and
none starts before the one before it is over. -/
structure Cadenced (start period latency : Nat) (t : TaskId) (looks : List Nat) (p : Poller)
    (w : Client) : Prop where
  task : w.task? t = some (.poller p)
  going : p.cancelled = false
  beat : p.period = period
  lag : w.backend.latency = latency
  since : start ≤ w.now
  next : start + (looks.length + 1) * period ≤ p.due
  past : ∀ l ∈ looks, l ≤ w.now
  late : ∀ k l, looks[k]? = some l → start + (k + 1) * period ≤ l
  apart : looks.IsChain fun a b => a + latency ≤ b
  asked : ∀ call, p.call = some call → ∃ l, looks.getLast? = some l ∧ call.due = l + latency
  through : p.call = none → ∀ l, looks.getLast? = some l → l + latency ≤ w.now

section Cadenced

variable {start period latency : Nat} {looks : List Nat}

/-- Nothing happens to the poller, but time may pass. -/
theorem Cadenced.wait (h : Cadenced start period latency t looks p w)
    (hk : w'.task? t = w.task? t) (hl : w'.backend.latency = w.backend.latency)
    (hn : w.now ≤ w'.now) : Cadenced start period latency t looks p w' where
  task := hk.trans h.task
  going := h.going
  beat := h.beat
  lag := hl.trans h.lag
  since := Nat.le_trans h.since hn
  next := h.next
  past l hl := Nat.le_trans (h.past l hl) hn
  late := h.late
  apart := h.apart
  asked := h.asked
  through hc l hl := Nat.le_trans (h.through hc l hl) hn

/-- The call of the last look is over. -/
theorem Cadenced.last_through (h : Cadenced start period latency t looks p w)
    (hover : ∀ call, p.call = some call → call.due ≤ w.now) {l : Nat}
    (hl : looks.getLast? = some l) : l + latency ≤ w.now := by
  cases hc : p.call with
  | none => exact h.through hc l hl
  | some call =>
    obtain ⟨l', hl', hdue⟩ := h.asked call hc
    rw [hl] at hl'
    cases hl'
    exact hdue ▸ hover call hc

/-- Several looks at one instant keep their distance only without latency. -/
theorem isChain_replicate {x latency : Nat} (h : n ≤ 1 ∨ latency = 0) :
    (List.replicate n x).IsChain fun a b => a + latency ≤ b := by
  induction n with
  | zero => exact .nil
  | succ n ih =>
    cases n with
    | zero => exact .singleton x
    | succ n =>
      have hzero : latency = 0 := h.resolve_left (by omega)
      exact .cons_cons (Nat.le_of_eq (by rw [hzero]; rfl)) (ih (.inr hzero))

/-- A poller made the looks that were due: none early, and each after the latency of the one before
it. -/
theorem Cadenced.advance (h : Cadenced start period latency t looks p w)
    (hover : ∀ call, p.call = some call → call.due ≤ w.now) (hs : MakesLooks t n q w w')
    (hn : w'.now = w.now) (ha : p.Advances w.now w.backend.latency n q) :
    Cadenced start period latency t (looks ++ List.replicate n w.now) q w' := by
  have hlast := fun l => h.last_through (l := l) hover
  have hnext := h.next
  rw [h.lag] at ha
  -- several looks in one turn are made only without latency
  have hone : n ≤ 1 ∨ latency = 0 := by
    rcases ha.asked with ⟨-, rfl | hz⟩ | ⟨rfl, -⟩
    · exact .inl (Nat.zero_le _)
    · exact .inr hz
    · exact .inl (Nat.le_refl _)
  -- field by field: the looks of this turn stand behind those before
  refine ⟨hs.task, ha.going.trans h.going, ha.period.trans h.beat, hs.latency.trans h.lag, ?_, ?_,
    fun l hl => ?_, fun k l hl => ?_, ?_, fun call hc => ?_, fun hc l hl => ?_⟩
  · exact hn ▸ h.since
  · have hlater := ha.later
    rw [h.beat] at hlater
    rw [List.length_append, List.length_replicate]
    calc start + (looks.length + n + 1) * period
        = start + (looks.length + 1) * period + n * period := by
          rw [Nat.add_right_comm looks.length, Nat.add_mul _ n, ← Nat.add_assoc]
      _ ≤ p.due + n * period := Nat.add_le_add_right hnext _
      _ ≤ q.due := hlater
  · rw [hn]
    rcases List.mem_append.1 hl with hl | hl
    · exact h.past l hl
    · exact Nat.le_of_eq (List.eq_of_mem_replicate hl)
  · rcases Nat.lt_or_ge k looks.length with hk | hk
    · rw [List.getElem?_append_left hk] at hl
      exact h.late k l hl
    · rw [List.getElem?_append_right hk, List.getElem?_replicate] at hl
      split at hl
      · rename_i hi
        cases hl
        have hreach := ha.reached _ hi
        rw [h.beat] at hreach
        calc start + (k + 1) * period
            = start + (looks.length + 1) * period + (k - looks.length) * period := by
              rw [Nat.add_assoc, ← Nat.add_mul, Nat.add_right_comm, Nat.add_sub_cancel' hk]
          _ ≤ p.due + (k - looks.length) * period := Nat.add_le_add_right hnext _
          _ ≤ w.now := hreach
      · cases hl
  · -- looks of before are over by now, so they stay apart from those of this turn
    refine List.isChain_append.2 ⟨h.apart, isChain_replicate hone, fun x hx y hy => ?_⟩
    have hy' : y = w.now := List.eq_of_mem_replicate (List.mem_of_mem_head? hy)
    rw [hy']
    exact hlast x hx
  · -- what is under way after the turn was asked for now
    rcases ha.asked with ⟨hq, -⟩ | ⟨rfl, -, call', hq, hdue⟩
    · rw [hq] at hc
      cases hc
    · rw [hq] at hc
      cases hc
      exact ⟨w.now, List.getLast?_concat, hdue⟩
  · rw [hn]
    rcases Nat.eq_zero_or_pos n with rfl | hpos
    · rw [List.replicate_zero, List.append_nil] at hl
      exact hlast l hl
    · rcases ha.asked with ⟨-, hz | hz⟩ | ⟨-, -, call, hq, -⟩
      · omega
      · rw [hz]
        rcases List.mem_append.1 (List.mem_of_getLast? hl) with hl | hl
        · exact h.past l hl
        · exact Nat.le_of_eq (List.eq_of_mem_replicate hl)
      · rw [hq] at hc
        cases hc

/-- In its own turn the poller waits on, or makes the looks that are due by now. -/
theorem Cadenced.poll (h : Cadenced start period latency t looks p w) (hperiod : 0 < period)
    (hw : w.Steady) (hup : w.session.state = .connected) :
    ∃ n q, w.looksIn t (.event (.poll t)) = List.replicate n w.now ∧ MakesLooks t n q w (w.poll t) ∧
      (n = 0 ∧ q = p ∨ (∀ call, p.call = some call → call.due ≤ w.now) ∧
        p.Advances w.now w.backend.latency n q) := by
  have hlooks : ∀ {n q}, MakesLooks t n q w (w.poll t) →
      w.looksIn t (.event (.poll t)) = List.replicate n w.now := fun hs => by
    unfold looksIn
    dsimp only
    rw [if_pos rfl, hs.calls, Nat.add_sub_cancel_left]
  rcases makesLooks_poll hw hup h.task h.going (h.beat ▸ hperiod) with
    ⟨-, -, hs⟩ | ⟨hover, n, q, hs, ha⟩
  · exact ⟨0, p, hlooks hs, hs, .inl ⟨rfl, rfl⟩⟩
  · exact ⟨n, q, hlooks hs, hs, .inr ⟨hover, ha⟩⟩

/-- Any other deed leaves the poller alone, and is no look. -/
theorem deed_cases (hk : w.task? t = some (.poller p)) (d : Deed) :
    d = .event (.poll t) ∨ w.looksIn t d = [] ∧ (w.does d = w ∨ d.visits ≠ some t) := by
  cases d with
  | drop u =>
    refine .inr ⟨rfl, ?_⟩
    -- to drop a poller does nothing; to drop another one does not visit it
    by_cases hu : u = t
    · subst hu
      left
      show w.abort u = w
      unfold abort
      rw [hk]
    · exact .inr fun he => hu (Option.some.inj he)
  | event e =>
    cases e with
    | poll u =>
      -- its own turn, or that of another
      by_cases hu : u = t
      · exact .inl (by rw [hu])
      · exact .inr ⟨if_neg hu, .inr fun he => hu (Option.some.inj he)⟩
    | _ => exact .inr ⟨rfl, .inr nofun⟩

/-- A deed, while the poller keeps the slot and the connection is up. -/
theorem Cadenced.does (h : Cadenced start period latency t looks p w) (hperiod : 0 < period)
    (hw : w.Steady) (hup : w.session.state = .connected) (d : Deed)
    (hslot : (w.does d).poller = some t) :
    ∃ q, Cadenced start period latency t (looks ++ w.looksIn t d) q (w.does d) := by
  have hnow := now_does hw.assured d
  have hlatency := latency_does hw.sound d
  have hlt : t < w.tasks.length := (List.getElem?_eq_some_iff.1 h.task).1
  -- its own turn, or a deed that leaves it alone
  rcases deed_cases h.task d with rfl | ⟨hl, hd⟩
  · obtain ⟨n, q, hl, hs, ⟨rfl, rfl⟩ | ⟨hover, ha⟩⟩ := h.poll hperiod hw hup
    · rw [hl, List.replicate_zero, List.append_nil]
      exact ⟨q, h.wait (hs.task.trans h.task.symm) hlatency (Nat.le_of_eq hnow.symm)⟩
    · rw [hl]
      exact ⟨q, h.advance hover hs hnow ha⟩
  · rw [hl, List.append_nil]
    refine ⟨p, h.wait ?_ hlatency (hnow ▸ Nat.le_add_right _ _)⟩
    rcases hd with hd | hd
    · rw [hd]
    · exact ((deedKeepsSlot_does hw.sound d).kept t hlt hslot).2 hd

/-- A run of deeds, while the poller keeps the slot and the connection is up: the looks of the run
stand behind those before it. -/
theorem Cadenced.doing (h : Cadenced start period latency t looks p w) (hperiod : 0 < period)
    (hw : w.Steady) (deeds : List Deed) (halways : w.Always (Watched t) deeds) :
    ∃ q, Cadenced start period latency t (looks ++ w.looks t deeds) q (w.doing deeds) := by
  induction deeds generalizing looks p w with
  | nil => exact ⟨p, by rw [Client.looks, List.append_nil]; exact h⟩
  | cons d deeds ih =>
    obtain ⟨⟨-, hup⟩, hrest⟩ := halways
    obtain ⟨q, hq⟩ := h.does hperiod hw hup d hrest.here.1
    rw [Client.looks, ← List.append_assoc]
    exact ih hq (hw.does d) hrest

end Cadenced

/-! ## On time -/

/-- The looks of a poller that is woken at the instants it waits for, if the latency is less than
the period. -/
structure Punctual (start period latency : Nat) (t : TaskId) (looks : List Nat) (p : Poller)
    (w : Client) : Prop extends Cadenced start period latency t looks p w where
  sharp : ∀ k l, looks[k]? = some l → l = start + (k + 1) * period
  onTime : p.due = start + (looks.length + 1) * period
  soon : w.now ≤ p.wake
  timed : t ∈ w.ready ∨ (p.wake, t) ∈ w.timers ∧ w.now < p.wake

section Punctual

variable {start period latency : Nat} {looks : List Nat}

/-- The call under way is over before the next look is due. -/
theorem Punctual.wake_le (h : Punctual start period latency t looks p w) (hl : latency < period) :
    p.wake ≤ p.due := by
  unfold Poller.wake
  cases hc : p.call with
  | none => exact Nat.le_refl _
  | some call =>
    obtain ⟨l, hlast, hdue⟩ := h.asked call hc
    rw [List.getLast?_eq_getElem?] at hlast
    have hpos : 0 < looks.length := List.length_pos_of_mem (List.mem_of_getElem? hlast)
    have hsharp := h.sharp _ _ hlast
    rw [Nat.sub_add_cancel hpos] at hsharp
    show call.due ≤ p.due
    rw [hdue, hsharp, h.onTime, Nat.add_mul, Nat.one_mul, Nat.add_assoc]
    exact Nat.add_le_add_left (Nat.add_le_add_left (Nat.le_of_lt hl) _) _

/-- A punctual poller makes at most one look, when it is due. A second look would be due a period
later, and no time passes before the first one is made. -/
theorem Punctual.advance (h : Punctual start period latency t looks p w) (hl : latency < period)
    (hover : ∀ call, p.call = some call → call.due ≤ w.now) (hs : MakesLooks t n q w w')
    (hn : w'.now = w.now) (ha : p.Advances w.now w.backend.latency n q) :
    Punctual start period latency t (looks ++ List.replicate n w.now) q w' := by
  have hsoon : w.now ≤ p.due := Nat.le_trans h.soon (h.wake_le hl)
  have hreach := ha.reached
  rw [h.beat] at hreach
  -- a second look would be due a period later, but it runs when the first one is due
  have hone : n = 0 ∨ n = 1 ∧ w.now = p.due := by
    rcases n with - | - | n
    · exact .inl rfl
    · exact .inr ⟨rfl, Nat.le_antisymm hsoon (by simpa using hreach 0 Nat.one_pos)⟩
    · have := hreach 1 (by omega)
      omega
  refine ⟨h.toCadenced.advance hover hs hn ha, fun k l hk => ?_, ?_, ?_, .inr ⟨hs.timer, ?_⟩⟩
  · rcases hone with rfl | ⟨rfl, hnow⟩
    · rw [List.replicate_zero, List.append_nil] at hk
      exact h.sharp k l hk
    · rcases Nat.lt_or_ge k looks.length with hlt | hge
      · rw [List.getElem?_append_left hlt] at hk
        exact h.sharp k l hk
      · obtain ⟨hlt, rfl⟩ := List.getElem?_eq_some_iff.1 hk
        rw [List.length_append, List.length_replicate] at hlt
        obtain rfl : k = looks.length := Nat.le_antisymm (Nat.le_of_lt_succ hlt) hge
        rw [List.getElem_append_right (Nat.le_refl _), List.getElem_replicate, hnow, h.onTime]
  · rw [ha.exact (Nat.le_add_right_of_le hsoon), h.beat, h.onTime, List.length_append,
      List.length_replicate, Nat.add_assoc, ← Nat.add_mul, Nat.add_right_comm]
  · rw [hn]
    exact Nat.le_of_lt hs.wakes
  · rw [hn]
    exact hs.wakes

/-- When a timer is due its task is woken. -/
theorem timed_tickTo {due now : Nat} (ht : (due, t) ∈ w.timers) (he : w.hasEnded t = false) :
    t ∈ (w.tickTo now).ready ∨ (due, t) ∈ (w.tickTo now).timers ∧ now < due := by
  by_cases hle : due ≤ now
  · refine .inl (mem_ready_wakeAll (List.mem_map.2 ⟨(due, t), ?_, rfl⟩) he)
    exact List.mem_filter.2 ⟨ht, decide_eq_true hle⟩
  · refine .inr ⟨?_, Nat.lt_of_not_le hle⟩
    obtain ⟨more, h⟩ := wakeAll_eq
      { w with now := now, timers := w.timers.filter fun t => !decide (t.1 ≤ now) }
      ((w.timers.filter (·.1 ≤ now)).map (·.2))
    rw [show w.tickTo now = _ from h]
    exact List.mem_filter.2 ⟨ht, by simp [hle]⟩

/-- Time passes no further than to the instant that the poller waits for, so it is never late. -/
theorem Punctual.pass (h : Punctual start period latency t looks p w) (hw : w.Steady) (ms : Nat)
    (hpass : 0 < ms → w.ready = [] ∧ ∀ x ∈ w.timers, w.now + ms ≤ x.1)
    (hc : Cadenced start period latency t looks p (w.does (.event (.pass ms)))) :
    Punctual start period latency t looks p (w.does (.event (.pass ms))) := by
  have hnow : (w.does (.event (.pass ms))).now = w.now + ms := now_does hw.assured _
  refine ⟨hc, h.sharp, h.onTime, ?_, ?_⟩
  · rw [hnow]
    rcases Nat.eq_zero_or_pos ms with rfl | hpos
    · exact h.soon
    · obtain ⟨hready, htimers⟩ := hpass hpos
      -- as long as it is woken, no time passes
      rcases h.timed with hin | ⟨hin, -⟩
      · rw [hready] at hin
        cases hin
      · exact htimers _ hin
  · rw [hnow]
    rcases h.timed with hin | ⟨hin, -⟩
    · exact .inl ((outer_happen w (e := .pass ms) trivial).ready.subset hin)
    · refine timed_tickTo hin ?_
      unfold hasEnded
      rw [h.task]
      rfl

/-- A punctual poller stays so through a deed, when time passes only as it is scheduled. A deed that
does not visit the poller leaves it as it is, and time is not let pass beyond its timer. -/
theorem Punctual.does (h : Punctual start period latency t looks p w) (hperiod : 0 < period)
    (hl : latency < period) (hw : w.Steady) (hup : w.session.state = .connected) (d : Deed)
    (hslot : (w.does d).poller = some t)
    (hpass : 0 < d.lapse → w.ready = [] ∧ ∀ x ∈ w.timers, w.now + d.lapse ≤ x.1) :
    ∃ q, Punctual start period latency t (looks ++ w.looksIn t d) q (w.does d) := by
  have hnow := now_does hw.assured d
  have hlatency := latency_does hw.sound d
  have hlt : t < w.tasks.length := (List.getElem?_eq_some_iff.1 h.task).1
  rcases deed_cases h.task d with rfl | ⟨hlooks, hd⟩
  · obtain ⟨n, q, hlooks, hs, ⟨rfl, rfl⟩ | ⟨hover, ha⟩⟩ := h.poll hperiod hw hup
    · rw [hlooks, List.replicate_zero, List.append_nil]
      have hc := h.toCadenced.wait (hs.task.trans h.task.symm) hlatency (Nat.le_of_eq hnow.symm)
      exact ⟨q, hc, h.sharp, h.onTime, hnow ▸ h.soon, .inr ⟨hs.timer, hnow ▸ hs.wakes⟩⟩
    · rw [hlooks]
      exact ⟨q, h.advance hl hover hs hnow ha⟩
  · rw [hlooks, List.append_nil]
    rcases hd with hd | hd
    · rw [hd]
      exact ⟨p, h⟩
    · have hkept := ((deedKeepsSlot_does hw.sound d).kept t hlt hslot).2 hd
      have hc := h.toCadenced.wait hkept hlatency (hnow ▸ Nat.le_add_right _ _)
      -- time passes, or some other task has a turn
      by_cases hp : ∃ ms, d = .event (.pass ms)
      · obtain ⟨ms, rfl⟩ := hp
        exact ⟨p, h.pass hw ms hpass hc⟩
      · have hne : ∀ ms, d ≠ .event (.pass ms) := fun ms he => hp ⟨ms, he⟩
        obtain ⟨htimers, hready⟩ := heeds_does hw.assured hlt hd hne
        rw [Deed.lapse_eq_zero hne, Nat.add_zero] at hnow
        refine ⟨p, hc, h.sharp, h.onTime, hnow ▸ h.soon, ?_⟩
        rw [hnow]
        exact h.timed.imp hready (And.imp_left (htimers _))

/-- A scheduled run of deeds, deed by deed. -/
theorem Punctual.doing (h : Punctual start period latency t looks p w) (hperiod : 0 < period)
    (hl : latency < period) (hw : w.Steady) (deeds : List Deed)
    (halways : w.Always (Watched t) deeds) (hscheduled : w.Scheduled deeds) :
    ∃ q, Punctual start period latency t (looks ++ w.looks t deeds) q (w.doing deeds) := by
  induction deeds generalizing looks p w with
  | nil => exact ⟨p, by rw [Client.looks, List.append_nil]; exact h⟩
  | cons d deeds ih =>
    obtain ⟨⟨-, hup⟩, hrest⟩ := halways
    obtain ⟨hpass, hlater⟩ := hscheduled
    obtain ⟨q, hq⟩ := h.does hperiod hl hw hup d hrest.here.1 hpass
    rw [Client.looks, ← List.append_assoc]
    exact ih hq (hw.does d) hrest hlater

/-- Between two instants at which looks are due, as many were made as periods have passed: the next
one is not due yet, and the last one was. -/
theorem Punctual.length_eq (h : Punctual start period latency t looks p w)
    (hl : latency < period) (hn : ∀ k, 0 < k → w.now ≠ start + k * period) :
    looks.length = (w.now - start) / period := by
  have hupper : w.now < start + (looks.length + 1) * period := by
    refine Nat.lt_of_le_of_ne ?_ (hn _ (Nat.succ_pos _))
    rw [← h.onTime]
    exact Nat.le_trans h.soon (h.wake_le hl)
  have hlower : start + looks.length * period ≤ w.now := by
    rcases hk : looks.length with - | k
    · rw [Nat.zero_mul]
      exact h.since
    · have hlt : k < looks.length := hk ▸ Nat.lt_succ_self k
      exact Nat.le_trans (h.late k _ (List.getElem?_eq_getElem hlt))
        (h.past _ (List.getElem_mem hlt))
  have hsince := h.since
  exact (Nat.div_eq_of_lt_le (by omega) (by omega)).symm

end Punctual

/-- A poller that was started by a deed is woken at once, and owes its first look a period later. -/
theorem punctual_started (hw : w.Steady) {d : Deed} (hnew : w.task? t = none)
    (hp : (w.does d).task? t = some (.poller p)) (hslot : (w.does d).poller = some t) :
    Punctual (w.does d).now p.period w.backend.latency t [] p (w.does d) := by
  have hge : w.tasks.length ≤ t := List.getElem?_eq_none_iff.1 hnew
  obtain ⟨hready, seen, period, hk⟩ := (deedKeepsSlot_does hw.sound d).born hw.slotted t hge hslot
  rw [hp] at hk
  cases hk
  have hdue : (w.does d).now + (0 + 1) * period = (w.does d).now + period := by
    rw [Nat.zero_add, Nat.one_mul]
  exact {
    task := hp
    going := rfl
    beat := rfl
    lag := latency_does hw.sound d
    since := Nat.le_refl _
    next := Nat.le_of_eq hdue
    past := nofun
    late := nofun
    apart := .nil
    asked := nofun
    through := nofun
    sharp := nofun
    onTime := hdue.symm
    soon := Nat.le_add_right _ _
    timed := .inl hready }

end Client

/-- A poller that is neither stopped nor replaced while the connection is up never looks early, nor
while it waits for the look before; if the latency is less than its period, and time passes as the
timers say, its looks are on time, so that one was made for every period that has passed, whether
or not they fail. -/
theorem looks_after_start (config : Config) (servers : List Server) (latency : Nat)
    (version : String) (pre : List Deed) (d : Deed) (deeds : List Deed) (t : TaskId) (p : Poller) :
    let before := (Client.fresh config servers latency version).doing pre
    let start := before.does d
    let w := start.doing deeds
    let looks := start.looks t deeds
    before.task? t = none → start.task? t = some (.poller p) → 0 < p.period →
    start.Always (Client.Watched t) deeds →
    ((∀ k l, looks[k]? = some l → start.now + (k + 1) * p.period ≤ l) ∧
      looks.IsChain (fun a b => a + latency ≤ b) ∧
      ∀ call, w.looking t = some call → ∃ l, looks.getLast? = some l ∧ call.due = l + latency) ∧
    (latency < p.period → start.Scheduled deeds →
      (∀ k l, looks[k]? = some l → l = start.now + (k + 1) * p.period) ∧
      ((∀ k, 0 < k → w.now ≠ start.now + k * p.period) →
        looks.length = (w.now - start.now) / p.period)) := by
  intro before start w looks hnew hp hperiod halways
  have hfresh := Client.steady_make config (Backend.prompt_make servers latency version)
  have hsteady : before.Steady := hfresh.doing pre
  have hstart := Client.punctual_started hsteady hnew hp halways.here.1
  rw [show before.backend.latency = latency from hfresh.latency_doing pre] at hstart
  obtain ⟨q, hc⟩ := hstart.toCadenced.doing hperiod (hsteady.does d) deeds halways
  -- in any order of turns first, and then under a schedule
  refine ⟨⟨hc.late, hc.apart, fun call hcall => hc.asked call ?_⟩, fun hl hscheduled => ?_⟩
  · unfold Client.looking at hcall
    rw [hc.task] at hcall
    exact hcall
  · obtain ⟨r, hr⟩ := hstart.doing hperiod hl (hsteady.does d) deeds halways hscheduled
    exact ⟨hr.sharp, hr.length_eq hl⟩

/-- The poller of a connect that was through at 4 looks at 1004, which fails, and at 2004. -/
theorem looks_after_start_twice :
    let before := (Client.fresh Config.default [Server.make "x" "" "" "" ""] 2 "1").doing
      [.event (.call (.connect "x")), .event (.pass 2), .event (.poll 0), .event (.pass 2)]
    let start := before.does (.event (.poll 0))
    let deeds : List Deed := [.event (.poll 1), .event (.fail .getStats (.rejected "busy")),
      .event (.pass 1000), .event (.poll 1), .event (.pass 2), .event (.poll 1),
      .event (.pass 998), .event (.poll 1), .event (.pass 2), .event (.poll 1),
      .event (.pass 500)]
    let looks := start.looks 1 deeds
    looks = [1004, 2004] ∧ looks.IsChain (fun a b => a + 2 ≤ b) ∧
      looks.length = ((start.doing deeds).now - start.now) / 1000 := by
  intro before start deeds looks
  have h := looks_after_start Config.default [Server.make "x" "" "" "" ""] 2 "1"
    [.event (.call (.connect "x")), .event (.pass 2), .event (.poll 0), .event (.pass 2)]
    (.event (.poll 0)) deeds 1 ⟨false, 2, 1000, 1004, none⟩ rfl rfl (by decide)
    (by decide +kernel)
  have hnow : (start.doing deeds).now = 2506 := by decide +kernel
  obtain ⟨-, hlength⟩ := h.2 (by decide) (by decide +kernel)
  refine ⟨by decide +kernel, h.1.2.1, hlength fun k hk he => ?_⟩
  rw [show (start.doing deeds).now = 2506 from hnow, show start.now = 4 by decide +kernel] at he
  dsimp only at he
  omega

end TunnelSession
