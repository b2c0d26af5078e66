/-
  A request that nothing else overlaps.

  PROGRESS.  A stretch of work stops only where it has to wait for a call that began in it, and
  every call is over when the latency is (`Travel.solo`).  So a request that has the connection goes
  on with every latency that passes: from the call to the statistics, and from there to its result.

  ALONE.  A command that is given alone, with two latencies to wait, comes to a result, and nobody
  else makes a request meanwhile (`Client.solo_after`).
-/
import TunnelSession.Proofs.Direct

namespace TunnelSession

/-- When the call of a request is over. -/
def Lifecycle.due : Lifecycle → Nat
  | .queued .. | .leaving => 0
  | .dialing _ call => call.due
  | .sampling _ _ call => call.due
  | .hangingUp call => call.due

namespace Core

variable {t : TaskId} {c c' : Core} {p : Progress Lifecycle Settled} {a : Lifecycle}

theorem Waits.lt_due (h : c.Waits t a) (ha : a.IsActive) : c.now < a.due := by
  cases a with
  | queued | leaving => exact absurd ha id
  | dialing | sampling => exact h.2
  | hangingUp => exact h

/-- Nobody waits with a void ticket. -/
theorem Waits.not_void (h : c.Waits t a) {k : Nat} (hk : a.ticket? = some k) : ¬ k < c.epoch := by
  cases a with
  | queued | dialing | sampling =>
    cases hk
    exact h.1
  | leaving | hangingUp => cases hk

/-- Who holds the connection has called the backend when it waits. -/
theorem Waits.isActive (h : c.Waits t a) (hh : c.transition.holder = some t) : a.IsActive := by
  cases a with
  | queued => exact absurd hh h.2
  | leaving => exact absurd hh h
  | dialing | sampling | hangingUp => exact trivial

/-- Work takes no time, so what is due after a latency stays due then. -/
theorem Near.due_eq (h : Near t c c') : c'.due = c.due := by
  unfold due
  rw [h.now, h.latency]

/-- What a request comes to whose ticket is not void. -/
theorem Settle.ne_cancelled {r : Settled} (h : Settle t c r c') (ha : c.stage t = some a)
    (hv : ∀ k, a.ticket? = some k → ¬ k < c.epoch) : r ≠ .error .cancelled := by
  cases h with
  | drop hs hlt | abort hs hlt =>
    rw [hs] at ha
    cases ha
    exact absurd hlt (hv _ rfl)
  | noServer | refuse | arrive | close | fail => exact nofun

/-- A request goes on until it waits for a call that is not over, or has its result. With a valid
ticket it is not cancelled, and each move takes it a stage further. -/
theorem Travel.solo (h : Travel t c p c') (ha : c.stage t = some a)
    (hv : ∀ k, a.ticket? = some k → ¬ k < c.epoch) (hd : a.due ≤ c.due) :
    p ≠ .done (.error .cancelled) ∧ ∀ b, p = .waiting b →
      c'.Waits t b ∧ b.due ≤ c'.due ∧ (b = a ∨ a.rank < b.rank) := by
  induction h generalizing a with
  | stay hs hw =>
    refine ⟨nofun, fun b hb => ?_⟩
    cases hb
    rw [hs] at ha
    cases ha
    exact ⟨hw, hd, .inl rfl⟩
  | settle h =>
    refine ⟨fun he => ?_, nofun⟩
    cases he
    exact h.ne_cancelled ha hv rfl
  | @move c c₁ c' p h ht ih =>
    obtain ⟨a', ha', hk, hr⟩ := h.ticket_rank ha
    have hnear := h.near
    -- the stage is ahead, or it is the same after a look
    have hcase : a'.due ≤ c₁.due ∧ (a' = a ∨ a.rank < a'.rank) := by
      rw [hnear.due_eq]
      cases h with
      | dial hs | connect hs | hangUp hs =>
        rw [hs] at ha
        cases ha
        rw [put_stage_self] at ha'
        cases ha'
        exact ⟨Nat.le_refl _, .inr (Nat.lt_succ_self _)⟩
      | look hs hl =>
        rw [hl.stage_eq, ha] at ha'
        cases ha'
        exact ⟨hd, .inl rfl⟩
    have hv' : ∀ k, a'.ticket? = some k → ¬ k < c₁.epoch := by
      intro k hk'
      rw [hnear.epoch]
      exact hv k (hk ▸ hk')
    obtain ⟨hne, hw⟩ := ih ha' hv' hcase.1
    refine ⟨hne, fun b hb => ?_⟩
    obtain ⟨h1, h2, h3⟩ := hw b hb
    refine ⟨h1, h2, ?_⟩
    rcases h3 with rfl | h3
    · exact hcase.2
    · exact .inr (Nat.lt_of_le_of_lt hr h3)

/-- The same for a stretch of work from its beginning: it is not superseded, and if it waits, it got
on. -/
theorem Stretch.solo {start : Start} (h : Stretch t c start p c')
    (hv : ∀ k, start.ticket? = some k → ¬ k < c.epoch)
    (hd : ∀ l, start = .resume l → l.due ≤ c.due) :
    p ≠ .done (.error .cancelled) ∧ ∀ b, p = .waiting b →
      c'.Waits t b ∧ b.due ≤ c'.due ∧ ∀ a, start = .resume a → b = a ∨ a.rank < b.rank := by
  cases h with
  -- a void ticket, which it does not have
  | refuse _ hlt => exact absurd hlt (hv _ rfl)
  | @connect target ticket _ _ _ hlt ht =>
    have hv' : ∀ k, (Lifecycle.queued target ticket).ticket? = some k → ¬ k < c.epoch := by
      intro k hk
      cases hk
      exact hlt
    obtain ⟨hne, hw⟩ := ht.solo (put_stage_self _ _ _) hv' (Nat.zero_le _)
    refine ⟨hne, fun b hb => ⟨(hw b hb).1, (hw b hb).2.1, nofun⟩⟩
  | disconnect _ ht =>
    obtain ⟨hne, hw⟩ := ht.solo (put_stage_self _ _ _) nofun (Nat.zero_le _)
    refine ⟨hne, fun b hb => ⟨(hw b hb).1, (hw b hb).2.1, nofun⟩⟩
  | resume hs ht =>
    obtain ⟨hne, hw⟩ := ht.solo hs hv (hd _ rfl)
    refine ⟨hne, fun b hb => ⟨(hw b hb).1, (hw b hb).2.1, fun a ha => ?_⟩⟩
    cases ha
    exact (hw b hb).2.2

/-- No step changes the latency of the backend. -/
theorem Step.latency_eq {acts : List Act} (h : Step c acts c') :
    c'.backend.latency = c.backend.latency := by
  cases h with
  | aside h =>
    cases h with
    | look h =>
      cases h with
      | answered => exact (Backend.answer_frame _ _ _).2.2.1
      | counted | kept => rfl
    | answered => exact (Backend.answer_frame _ _ _).2.2.1
    | _ => rfl
  | turn | retire | takeAsk | takeLeave => rfl
  | ask _ _ hs | leave _ hs | resume _ _ hs | begin _ _ _ hs | carry _ hs => exact hs.near.latency

theorem Outside.latency_eq {e : Event} (h : Outside c e c') :
    c'.backend.latency = c.backend.latency := by
  cases h <;> rfl

end Core

namespace Client

open TunnelSession.Core

variable {w : Client} {t : TaskId} {n : Nat}

/-- The command that makes a request. -/
def request : Option Target → Command
  | some (.server id) => .connect id
  | some .best => .quickConnect
  | some .last => .reconnect
  | none => .disconnect

/-- A command is given, and two latencies pass. -/
def soloEvents (w : Client) (command : Command) : List Event :=
  [.call command, .pass w.backend.latency, .poll w.tasks.length, .pass w.backend.latency,
    .poll w.tasks.length]

/-- The task alone has a request under way, which is not superseded and got so far. -/
structure Solo (t : TaskId) (n : Nat) (w : Client) : Prop where
  sound : w.core.Sound
  orderly : w.core.Orderly
  only : ∀ u, u ≠ t → w.core.stage u = none
  task : ∃ p, w.task? t = some (callTask false p) ∧ p ≠ .done (.error .cancelled) ∧
    ∀ l, p = .waiting l → n ≤ l.rank ∧ l.due ≤ w.core.due ∧
      ∀ k, l.ticket? = some k → ¬ k < w.core.epoch

/-- A turn of a command that is at a connect or a disconnect. -/
theorem run_eq {point : Point} {r : Client × Progress Lifecycle Settled}
    (ht : w.task? t = some (.command point)) (hr : w.runPoint t point = asLifecycle r) :
    w.run t = r.1.setTask t (callTask false r.2) := by
  unfold run runCommand
  rw [ht]
  dsimp only
  rw [hr]
  rcases r with ⟨v, l | s⟩ <;> rfl

theorem sound_happen (hs : w.core.Sound) (e : Event) : (w.happen e).core.Sound := by
  obtain ⟨c, hc, hsteps⟩ := steps_happen hs e
  rcases hc with rfl | ho
  · exact hs.steps hsteps
  · exact (hs.outside ho).steps hsteps

/-- The latency stays what it was. -/
theorem latency_after (hs : w.core.Sound) (events : List Event) :
    (w.after events).backend.latency = w.backend.latency :=
  (invariant_after (I := fun _ c => c.backend.latency = w.backend.latency) (P := fun _ => True)
    (fun _ _ _ _ _ hl h => h.latency_eq.trans hl) (fun _ _ _ _ _ _ hl h => h.latency_eq.trans hl)
    hs [] rfl events fun _ _ => trivial).2

/-- While time passes, nobody moves. -/
theorem task?_pass {task : Task} (h : w.task? t = some task) (hp : task.seen? = some task)
    (ms : Nat) : (w.happen (.pass ms)).task? t = some task := by
  refine task?_of_entry ?_
  have hcore : (w.happen (.pass ms)).core = { w.core with now := w.core.now + ms } :=
    core_wakeAll _ _
  rw [hcore]
  exact entry_of_task? h hp

theorem orderly_happen (hs : w.core.Sound) (ho : w.core.Orderly) (e : Event) :
    (w.happen e).core.Orderly :=
  linkInvariant_orderly.after hs ho [e]

/-- The holder is the only one that has a request. -/
theorem holder_of_only {c : Core} (ho : c.Orderly) (hn : ∀ u, u ≠ t → c.stage u = none)
    (ht : c.stage t ≠ none) : c.transition.holder = some t := by
  have hm := (ho.mem t).2 ht
  rw [← Lock.head?_queue ho.wellFormed]
  cases hq : c.transition.queue with
  | nil =>
    rw [hq] at hm
    cases hm
  | cons u rest =>
    -- who is first in line has a request, so it is the only one
    have hu : c.stage u ≠ none := (ho.mem u).1 (by rw [hq]; exact List.mem_cons_self)
    have hut : u = t := by
      by_contra hne
      exact hu (hn u hne)
    rw [hut]
    rfl

/-- After a stretch of work that starts with a valid ticket, the task is alone and got on. What it
waits for now is due within a latency. -/
theorem solo_of_stretch {c : Core} {v : Client} {start : Start} {p : Progress Lifecycle Settled}
    (hst : Stretch t c start p (v.core.put t p.stage?)) (ht : t < v.core.size)
    (hn : ∀ u, u ≠ t → c.stage u = none)
    (hv : ∀ k, start.ticket? = some k → ¬ k < c.epoch)
    (hd : ∀ l, start = .resume l → l.due ≤ c.now ∧ n ≤ l.rank + 1)
    (hs : (v.setTask t (callTask false p)).core.Sound)
    (ho : (v.setTask t (callTask false p)).core.Orderly)
    (h1 : (∀ l, start ≠ .resume l) → n ≤ 1) : Solo t n (v.setTask t (callTask false p)) := by
  have hnear := hst.near
  have hstage : ∀ u, (v.setTask t (callTask false p)).core.stage u =
      (v.core.put t p.stage?).stage u := by
    intro u
    rw [core_setTask v _ ht, callTask_lifecycle?]
    rfl
  have hrest : ∀ u, u ≠ t → (v.setTask t (callTask false p)).core.stage u = none := by
    intro u hu
    rw [hstage, hnear.stage u hu]
    exact hn u hu
  obtain ⟨hne, hw⟩ := hst.solo hv fun l hl => Nat.le_trans (hd l hl).1 (Nat.le_add_right _ _)
  refine ⟨hs, ho, hrest, p, ?_, hne, ?_⟩
  · rw [task?_setTask v _ t ht, if_pos rfl]
  · intro l hl
    obtain ⟨hwait, hdue, hrank⟩ := hw l hl
    have hat : (v.setTask t (callTask false p)).core.stage t = some l := by
      rw [hstage, put_stage_self, hl]
      rfl
    have hhold : (v.setTask t (callTask false p)).core.transition.holder = some t :=
      holder_of_only ho hrest (by rw [hat]; exact nofun)
    have hactive := hwait.isActive hhold
    refine ⟨?_, hdue, fun k hk => hwait.not_void hk⟩
    -- a request that begins is at the backend now; one that goes on got further
    cases start with
    | connect | disconnect =>
      refine Nat.le_trans (h1 nofun) ?_
      cases l with
      | queued | leaving => exact absurd hactive id
      | dialing | hangingUp => exact Nat.le_refl _
      | sampling => exact Nat.le_succ _
    | resume a =>
      obtain ⟨hover, hle⟩ := hd a rfl
      rcases hrank a rfl with rfl | hlt
      · -- its call is over, so it does not wait for it
        have hlt := hwait.lt_due hactive
        rw [hnear.now] at hlt
        exact absurd hover (Nat.not_le.2 hlt)
      · exact Nat.le_trans hle hlt

/-- A command is given that makes a request. Nobody is in line, so the request has the connection in
its first turn. -/
theorem solo_call (hs : w.core.Sound) (ho : w.core.Orderly) (hn : ∀ u, w.core.stage u = none)
    (g : Option Target) : Solo w.tasks.length 1 (w.call (request g)) := by
  have hs' := sound_happen hs (.call (request g))
  have ho' := orderly_happen hs ho (.call (request g))
  have hlt : w.tasks.length < (w.spawn (.command (.fresh (request g)))).2.core.size := by
    show _ < (w.tasks ++ [_]).length
    rw [List.length_append]
    exact Nat.lt_succ_self _
  have htask : (w.spawn (.command (.fresh (request g)))).2.task? w.tasks.length =
      some (.command (.fresh (request g))) := by
    rw [task?_spawn, if_pos rfl]
  have hspawn := core_spawn_aside w (.command (.fresh (request g))) (hn _) rfl rfl
  have hcall : w.call (request g) =
      (w.spawn (.command (.fresh (request g)))).2.run w.tasks.length := rfl
  -- the client when the command is there
  generalize (w.spawn (.command (.fresh (request g)))).2 = v at hlt htask hspawn hcall
  have hstage : ∀ u, v.core.stage u = none := by
    intro u
    rw [hspawn]
    exact hn u
  have hself : v.core.put w.tasks.length none = v.core := put_self (hstage _)
  have hp : v.core.backend.Prompt := by
    rw [hspawn]
    exact hs.prompt
  -- what a connect and a disconnect have in common: their first stretch of work begins alone
  have hend : ∀ {start : Start} {r : Client × Progress Lifecycle Settled} {c : Core},
      v.runPoint w.tasks.length (.fresh (request g)) = asLifecycle r →
      Stretch w.tasks.length c start r.2 (r.1.core.put w.tasks.length r.2.stage?) →
      (∀ u, c.stage u = none) → c.size = v.core.size →
      (∀ k, start.ticket? = some k → ¬ k < c.epoch) → (∀ l, start ≠ .resume l) →
      Solo w.tasks.length 1 (w.call (request g)) := by
    intro start r c hr hst hc hsize hv hl
    have hrun := hcall.trans (run_eq htask hr)
    have hs'' : (w.call (request g)).core.Sound := hs'
    have ho'' : (w.call (request g)).core.Orderly := ho'
    rw [hrun] at hs'' ho'' ⊢
    refine solo_of_stretch hst ?_ (fun u _ => hc u) hv (fun l he => absurd he (hl l)) hs'' ho''
      fun _ => Nat.le_refl _
    exact Nat.lt_of_lt_of_le (hsize ▸ hlt) hst.near.size
  -- a connect has a ticket of now, which is valid
  have hconnect : ∀ target, v.runPoint w.tasks.length (.fresh (request g)) =
      asLifecycle (v.requestConnect w.tasks.length target v.epoch) →
      Solo w.tasks.length 1 (w.call (request g)) := by
    intro target hr
    have hst := stretch_requestConnect v w.tasks.length target v.epoch hp
    rw [hself] at hst
    refine hend hr hst hstage rfl ?_ nofun
    intro k hk
    cases hk
    exact Nat.lt_irrefl _
  cases g with
  | some target => cases target <;> exact hconnect _ rfl
  | none =>
    -- a disconnect cancels the connects first, of which there are none
    have hst := stretch_queueDisconnect v.cancelConnects w.tasks.length
      (by rw [core_cancelConnects]; exact hp)
    have hc : v.cancelConnects.core.put w.tasks.length none =
        { v.core with epoch := v.core.epoch + 1 } := by
      rw [core_cancelConnects]
      exact put_self (hstage _)
    rw [hc] at hst
    exact hend rfl hst hstage rfl nofun nofun

/-- A latency passes, and the task goes on: it is one stage further, or through. There are three
stages at most, so two latencies are enough. -/
theorem Solo.next (h : Solo t n w) :
    Solo t (n + 1) (w.after [.pass w.backend.latency, .poll t]) := by
  obtain ⟨p, htask, hne, hw⟩ := h.task
  have hs₁ := sound_happen h.sound (.pass w.backend.latency)
  have ho₁ := orderly_happen h.sound h.orderly (.pass w.backend.latency)
  have hs₂ := sound_happen hs₁ (.poll t)
  have ho₂ := orderly_happen hs₁ ho₁ (.poll t)
  have hcore : (w.happen (.pass w.backend.latency)).core = { w.core with now := w.core.due } :=
    core_wakeAll _ _
  have htask₁ := task?_pass htask (callTask_seen? _ _) w.backend.latency
  show Solo t (n + 1) ((w.happen (.pass w.backend.latency)).happen (.poll t))
  generalize w.happen (.pass w.backend.latency) = v at hs₁ ho₁ hs₂ ho₂ hcore htask₁
  have hother : ∀ u, u ≠ t → v.core.stage u = none := by
    intro u hu
    rw [hcore]
    exact h.only u hu
  cases p with
  | done r =>
    -- it is through, and its turn does nothing
    have hrun : v.happen (.poll t) = { v with ready := v.ready.erase t } := by
      show Client.run { v with ready := v.ready.erase t } t = _
      unfold run
      rw [show Client.task? { v with ready := v.ready.erase t } t = v.task? t from rfl, htask₁]
      rfl
    refine ⟨hs₂, ho₂, ?_, .done r, ?_, hne, nofun⟩
    · rw [hrun]
      exact hother
    · rw [hrun]
      exact htask₁
  | waiting l =>
    -- the latency has passed, so its call is over, and it goes on
    obtain ⟨hrank, hdue, hvoid⟩ := hw l rfl
    have hent := entry_of_task? htask₁ (callTask_seen? _ _)
    have hk : v.core.stage t = some l := hs₁.stage_of_entry hent
    have hst := stretch_resumeLifecycle { v with ready := v.ready.erase t } t l
      (hs₁.stage_sound t l hk) hs₁.prompt
    rw [show Client.core { v with ready := v.ready.erase t } = v.core from rfl, put_self hk] at hst
    have hpoint : Client.task? { v with ready := v.ready.erase t } t =
        some (.command (.lifecycle l)) := htask₁
    have hrun : v.happen (.poll t) = _ := run_eq hpoint rfl
    rw [hrun] at hs₂ ho₂ ⊢
    refine solo_of_stretch hst (Nat.lt_of_lt_of_le (hs₁.lt_size hent) hst.near.size) hother ?_ ?_
      hs₂ ho₂ fun he => absurd rfl (he l)
    · intro k hk
      rw [hcore]
      exact hvoid k hk
    · intro l' hl
      cases hl
      rw [hcore]
      exact ⟨hdue, Nat.succ_le_succ hrank⟩

/-- After two latencies a request has its result. -/
theorem Solo.ends (h : Solo t 3 w) :
    (∀ u, w.core.stage u = none) ∧
      ∃ r, w.task? t = some (callTask false (.done r)) ∧ r ≠ .error .cancelled := by
  obtain ⟨p, htask, hne, hw⟩ := h.task
  cases p with
  | waiting l => exact absurd (hw l rfl).1 (Nat.not_le.2 (Nat.lt_succ_of_le l.rank_le_two))
  | done r =>
    refine ⟨fun u => ?_, r, htask, fun he => hne (by rw [he])⟩
    by_cases hu : u = t
    · rw [hu]
      exact h.sound.stage_of_entry (entry_of_task? htask rfl)
    · exact h.only u hu

/-! ## What is issued -/

/-- A command that is made issues its own request. -/
theorem issuedIn_acts_call (w : Client) (g : Option Target) :
    issuedIn (w.acts (.call (request g))) = [(w.tasks.length, g)] := by
  show issuedIn ((w.spawn (.command (.fresh (request g)))).2.turnActs w.tasks.length) = _
  unfold turnActs
  rw [task?_spawn, if_pos rfl]
  cases g with
  | some target => cases target <;> rfl
  | none => rfl

/-- Who waits issues nothing when the wait is over. -/
theorem Solo.quiet (h : Solo t n w) (ms : Nat) : issuedIn (w.trace [.pass ms, .poll t]) = [] := by
  obtain ⟨p, htask, -, -⟩ := h.task
  have htask₁ := task?_pass htask (callTask_seen? _ _) ms
  show issuedIn (w.acts (.pass ms) ++ ((w.happen (.pass ms)).acts (.poll t) ++ [])) = []
  rw [List.append_nil, issuedIn_append]
  generalize w.happen (.pass ms) = v at htask₁
  show issuedIn (Client.turnActs { v with ready := v.ready.erase t } t) = []
  unfold turnActs
  rw [show Client.task? { v with ready := v.ready.erase t } t = v.task? t from rfl, htask₁]
  cases p <;> rfl

/-- A command that is given alone makes one request, which comes to a result other than `cancelled`,
and nobody else makes one meanwhile. -/
theorem solo_after (hs : w.core.Sound) (ho : w.core.Orderly) (hn : ∀ u, w.core.stage u = none)
    (g : Option Target) :
    Solo w.tasks.length 3 (w.after (w.soloEvents (request g))) ∧
      issuedIn (w.trace (w.soloEvents (request g))) = [(w.tasks.length, g)] := by
  have h₁ := solo_call hs ho hn g
  have hl₁ : (w.call (request g)).backend.latency = w.backend.latency :=
    latency_after hs [.call (request g)]
  have h₂ := h₁.next
  have hl₂ := latency_after h₁.sound [.pass w.backend.latency, .poll w.tasks.length]
  have hq₁ := h₁.quiet w.backend.latency
  rw [hl₁] at h₂ hl₂
  have hq₂ := h₂.quiet w.backend.latency
  -- after two latencies it has gone through all its stages
  have h₃ := h₂.next
  rw [hl₂] at h₃
  have hafter : w.after (w.soloEvents (request g)) =
      ((w.call (request g)).after [.pass w.backend.latency, .poll w.tasks.length]).after
        [.pass w.backend.latency, .poll w.tasks.length] := by
    unfold soloEvents
    rw [after_cons, ← after_append]
    rfl
  refine ⟨by rw [hafter]; exact h₃, ?_⟩
  have htrace : w.trace (w.soloEvents (request g)) = w.acts (.call (request g)) ++
      ((w.call (request g)).trace [.pass w.backend.latency, .poll w.tasks.length] ++
        ((w.call (request g)).after [.pass w.backend.latency, .poll w.tasks.length]).trace
          [.pass w.backend.latency, .poll w.tasks.length]) := by
    rw [← trace_append]
    rfl
  rw [htrace, issuedIn_append, issuedIn_append, issuedIn_acts_call, hq₁, hq₂]
  rfl

end Client

end TunnelSession
