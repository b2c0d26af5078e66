/-
  The outcome of a request that is made alone.

  ALONE.  When no operation is pending and a request is made, it holds the connection at once.  From
  then on tasks have turns in any order, and time passes: the connection is where its stage says
  (`Core.BookAt`), the slot of the poller is as its stage says, and nobody else comes to an
  operation (`Client.Alone`).

  OUTCOME.  What it comes to is what the backend answers to the one call that it makes.  A connect
  that arrives leaves everything at the new server, whatever becomes of the first statistics; one
  that is refused leaves the server, the recently used ones and the tunnel as they were
  (`Client.ComesTo`).

  PROOF.  A turn of the request takes it on to its next stage (`Client.Alone.own`), one of another
  task leaves the connection alone (`Client.Alone.other`), and so does time (`Client.Alone.pass`).
  With two latencies and two turns it is through, since it is `Solo` as well (`Client.Alone.solo`).
-/
import TunnelSession.Proofs.Bystanders
import TunnelSession.Proofs.Linearization

namespace TunnelSession

/-- Does a task have a turn, or time pass? -/
def Event.IsTurn : Event → Prop
  | .poll _ | .pass _ => True
  | _ => False

/-- Who is at no operation is at no stage of a request. -/
theorem Task.IsVacant.lifecycle? {k : Task} (h : k.IsVacant) : k.lifecycle? = none := by
  cases k with
  | command => exact absurd h id
  | poller | receiver | ended => rfl
  | worker b current =>
    cases current with
    | none => rfl
    | some => exact absurd h id

/-- Who sleeps, sleeps until its call is over. -/
theorem Lifecycle.due_of_sleep? {l : Lifecycle} {due : Nat} (h : l.sleep? = some due) :
    l.due = due := by
  cases l with
  | queued | leaving => cases h
  | dialing _ call | sampling _ _ call | hangingUp call =>
    cases call with
    | running =>
      cases h
      rfl
    | held => cases h

namespace Client

open TunnelSession.Core

variable {w w' : Client} {t u : TaskId} {b : Book} {n : Operation → Nat}
variable {q : Option (Ask Server)} {p : Progress Lifecycle Settled}

/-! ## Alone -/

/-- The task alone is at an operation, which got so far: `b` is the book and `n` the calls before
it, and `q` what it asks for. -/
structure Alone (b : Book) (n : Operation → Nat) (q : Option (Ask Server)) (t : TaskId)
    (p : Progress Lifecycle Settled) (w : Client) : Prop where
  steady : w.Steady
  period : w.config.telemetryInterval.toNat ≠ 0
  lone : w.Lone t
  task : w.task? t = some (callTask false p)
  bookAt : BookAt b n q w.core p
  seated : w.Seated t p
  begun : ∀ l, p = .waiting l → 1 ≤ l.rank

theorem Lone.stage (h : w.Lone t) (hu : u ≠ t) : w.core.stage u = none := by
  show (w.task? u).bind Task.lifecycle? = none
  cases hk : w.task? u with
  | none => rfl
  | some k => exact (h.tasks u k hu hk).lifecycle?

/-- The call of a request is over when the latency is. -/
theorem Alone.due_le (h : Alone b n q t p w) {l : Lifecycle} (hp : p = .waiting l) :
    l.due ≤ w.core.due := by
  subst hp
  have hstage : w.core.stage t = some l :=
    h.steady.sound.stage_of_entry (entry_of_task? h.task (callTask_seen? _ _))
  have hactive : l.IsActive := by
    have hrank := h.begun l rfl
    cases l with
    | queued | leaving => exact absurd hrank (Nat.not_succ_le_zero 0)
    | dialing | sampling | hangingUp => exact trivial
  obtain ⟨due, hdue⟩ := Option.isSome_iff_exists.1
    ((h.steady.sound.stage_sound t l hstage).isSome_sleep? hactive)
  rw [Lifecycle.due_of_sleep? hdue]
  refine (h.steady.assured t).short due ?_
  unfold Client.sleep?
  rw [h.task]
  exact hdue

/-- Such a request is the only one under way. -/
theorem Alone.solo (h : Alone b n q t p w) : Solo t 1 w := by
  refine ⟨h.steady.sound, h.steady.mirrors.orderly, fun u hu => h.lone.stage hu, p, h.task, ?_, ?_⟩
  · rintro rfl
    exact b.carry_ne_cancelled q (congrArg Prod.fst h.bookAt.1)
  · rintro l rfl
    exact ⟨h.begun l rfl, h.due_le rfl, h.bookAt.not_void⟩

/-- A stretch of work of the request ends its turn: it is alone as before, at the stage that it came
to. -/
theorem alone_of_stretch {c : Core} {v : Client} {start : Start}
    (hst : Stretch t c start p (v.core.put t p.stage?)) (ht : t < v.core.size)
    (hsteady : (v.setTask t (callTask false p)).Steady)
    (hperiod : v.config.telemetryInterval.toNat ≠ 0)
    (htasks : ∀ u k, u ≠ t → c.entry u = some k → k.IsVacant)
    (hbridges : ∀ r ∈ c.bridges, r.IsEmpty)
    (hbook : BookAt b n q (v.core.put t p.stage?) p) (hseated : v.Seated t p)
    (hbegun : ∀ l, p = .waiting l → 1 ≤ l.rank) :
    Alone b n q t p (v.setTask t (callTask false p)) where
  steady := hsteady
  period := hperiod
  lone := by
    have hnear := hst.near
    -- the others are as they were, since the work writes only its own task
    refine ⟨fun u k hu hk => ?_, fun r hr => hbridges r (hnear.bridges ▸ hr)⟩
    rw [task?_setTask_of_ne v _ hu] at hk
    cases k with
    | poller => exact trivial
    | command | receiver | worker | ended =>
      refine htasks u _ hu ?_
      rw [← hnear.entry]
      exact entry_of_task? hk rfl
  task := by rw [task?_setTask v _ t ht, if_pos rfl]
  bookAt := by
    refine hbook.undisturbed ?_
    rw [core_setTask v _ ht]
    exact ⟨rfl, rfl, rfl, fun _ => rfl⟩
  seated := hseated.congr rfl fun u hu _ => task?_setTask_of_ne v _ hu
  begun := hbegun

/-! ## What keeps it alone -/

/-- The request has a turn, which takes it on to its next stage or to its result. Without another
request the turn finds the book as the request left it. -/
theorem Alone.own (h : Alone b n q t p w) : ∃ p', Alone b n q t p' (w.poll t) := by
  have hsteady : (w.poll t).Steady := h.steady.does (.event (.poll t))
  cases p with
  | done r =>
    -- it is through, and its turn does nothing
    have hrun : w.poll t = { w with ready := w.ready.erase t } := by
      show Client.run { w with ready := w.ready.erase t } t = _
      unfold run
      rw [show Client.task? { w with ready := w.ready.erase t } t = w.task? t from rfl, h.task]
      rfl
    rw [hrun] at hsteady ⊢
    exact ⟨.done r, hsteady, h.period, ⟨h.lone.tasks, h.lone.bridges⟩, h.task, h.bookAt,
      h.seated.congr rfl fun _ _ _ => rfl, h.begun⟩
  | waiting l =>
    -- it goes on from the stage where it waits
    have hent := entry_of_task? h.task (callTask_seen? _ _)
    have hstage : w.core.stage t = some l := h.steady.sound.stage_of_entry hent
    have hlt := h.steady.sound.lt_size hent
    have hst := stretch_resumeLifecycle { w with ready := w.ready.erase t } t l
      (h.steady.sound.stage_sound t l hstage) h.steady.sound.prompt
    rw [show Client.core { w with ready := w.ready.erase t } = w.core from rfl,
      put_self hstage] at hst
    have hrun : w.poll t = _ := run_eq (w := { w with ready := w.ready.erase t }) h.task rfl
    have hconfig :=
      (reaches_resumeLifecycle { w with ready := w.ready.erase t } t l).work.slotKept.config
    rw [hrun] at hsteady ⊢
    refine ⟨_, alone_of_stretch hst (Nat.lt_of_lt_of_le hlt hst.near.size) hsteady ?_ ?_
      h.lone.bridges (h.bookAt.resume hst) ?_ ?_⟩
    · rw [hconfig]
      exact h.period
    · exact fun u k hu hk => h.lone.tasks u k hu (task?_of_entry hk)
    · exact seated_resumeLifecycle (w := { w with ready := w.ready.erase t })
        (h.seated.congr rfl fun _ _ _ => rfl) hlt h.period (h.begun l rfl) h.bookAt.not_void
    · -- it is as far as it was, or further
      intro l' hl'
      have hsolo := hst.solo h.bookAt.not_void fun k hk => by
        cases hk
        exact h.due_le rfl
      rcases (hsolo.2 l' hl').2.2 l rfl with rfl | hlt
      · exact h.begun _ rfl
      · exact Nat.one_le_of_lt hlt

/-- Another task has a turn, which leaves the connection and the request alone, since that task is
at no operation. -/
theorem Alone.other (h : Alone b n q t p w) (hu : u ≠ t) : Alone b n q t p (w.poll u) := by
  have hvacant : ∀ k, w.task? u = some k → k.IsVacant := fun k => h.lone.tasks u k hu
  have hpassive := passive_poll h.steady.sound h.lone.bridges hvacant
  refine ⟨h.steady.does (.event (.poll u)), ?_, ⟨fun x k hx hk => ?_, hpassive.bridges⟩,
    (hpassive.others t hu.symm).trans h.task,
    h.bookAt.undisturbed (undisturbed_poll h.steady.sound h.lone.bridges hvacant), ?_, h.begun⟩
  · rw [show (w.poll u).config = w.config from
      (deedKeepsSlot_does h.steady.sound (.event (.poll u))).config]
    exact h.period
  · by_cases hxu : x = u
    · exact hpassive.own k (hxu ▸ hk)
    · exact h.lone.tasks x k hx ((hpassive.others x hxu).symm.trans hk)
  · by_cases hslot : w.poller = some u
    · -- the turn is one of the poller in the slot
      rcases p with l | e | (_ | server)
      · cases l with
        | queued | leaving => exact trivial
        | dialing | sampling | hangingUp => cases hslot.symm.trans h.seated
      · cases hslot.symm.trans h.seated
      · cases hslot.symm.trans h.seated
      · obtain ⟨x, k, hne, hx, htask, hgoing, hperiod⟩ := h.seated
        obtain rfl : x = u := Option.some.inj (hx.symm.trans hslot)
        have hup : w.session.state = .connected := Book.state_of_carry h.bookAt.1
        rcases makesLooks_poll h.steady hup htask hgoing hperiod with
          ⟨call, -, hs⟩ | ⟨-, m, k', hs, ha⟩
        · exact ⟨x, k, hne, hpassive.poller.trans hx, hs.task, hgoing, hperiod⟩
        · exact ⟨x, k', hne, hpassive.poller.trans hx, hs.task, ha.going.trans hgoing,
            ha.period ▸ hperiod⟩
    · refine h.seated.congr hpassive.poller fun x _ hx => hpassive.others x ?_
      rintro rfl
      exact hslot hx

/-- Time passes, which wakes tasks and does nothing else. -/
theorem Alone.pass (h : Alone b n q t p w) (ms : Nat) :
    Alone b n q t p (w.happen (.pass ms)) := by
  have hsteady : (w.happen (.pass ms)).Steady := h.steady.does (.event (.pass ms))
  have hcore : (w.happen (.pass ms)).core = { w.core with now := w.core.now + ms } :=
    core_wakeAll _ _
  obtain ⟨more, hw⟩ := tickTo_eq w (w.now + ms)
  replace hw : w.happen (.pass ms) = _ := hw
  have hbook : BookAt b n q (w.happen (.pass ms)).core p := by
    rw [hcore]
    exact h.bookAt.undisturbed ⟨rfl, rfl, rfl, fun _ => rfl⟩
  rw [hw] at hsteady hbook ⊢
  exact ⟨hsteady, h.period, ⟨h.lone.tasks, h.lone.bridges⟩, h.task, hbook,
    h.seated.congr rfl fun _ _ _ => rfl, h.begun⟩

/-- Whoever has a turn, and however much time passes. -/
theorem Alone.after (h : Alone b n q t p w) (events : List Event) (he : ∀ e ∈ events, e.IsTurn) :
    ∃ p', Alone b n q t p' (w.after events) := by
  -- the induction is on the events, turns of this task or another and time that passes
  induction events generalizing w p with
  | nil => exact ⟨p, h⟩
  | cons e events ih =>
    obtain ⟨p', h'⟩ : ∃ p', Alone b n q t p' (w.happen e) := by
      cases e with
      | poll u =>
        by_cases hu : u = t
        · subst hu
          exact h.own
        · exact ⟨p, h.other hu⟩
      | pass ms => exact ⟨p, h.pass ms⟩
      | _ => exact absurd (he _ (.head _)) id
    exact ih h' fun e' h => he e' (.tail _ h)

/-! ## How it begins -/

/-- What a request asks of the backend, if it connects. -/
def asks (w : Client) (g : Option Target) : Option (Ask Server) :=
  g.bind (·.ask? w.session.server)

/-- A command is there that has not run yet, and nobody else is at an operation. -/
structure Posted (w v : Client) : Prop where
  there : w.tasks.length < v.tasks.length
  others : ∀ u k, u ≠ w.tasks.length → v.task? u = some k → k.IsVacant
  bridges : ∀ r ∈ v.bridges, r.IsEmpty
  session : v.session = w.session
  book : v.core.book = w.core.book
  tally : v.core.backend.tally = w.core.backend.tally
  prompt : v.core.backend.Prompt
  idle : v.core.stage w.tasks.length = none
  period : v.config.telemetryInterval.toNat ≠ 0

theorem Unoccupied.stage (hu : w.Unoccupied) (u : TaskId) : w.core.stage u = none := by
  by_cases he : u = w.tasks.length
  · show (w.task? u).bind Task.lifecycle? = none
    rw [he, task?_length]
    rfl
  · exact (hu.lone _).stage he

/-- A command that was just made is there, and is the only one. -/
theorem posted_spawn (h : w.Steady) (hc : w.config.telemetryInterval.toNat ≠ 0)
    (hu : w.Unoccupied) (command : Command) :
    Posted w (w.spawn (.command (.fresh command))).2 := by
  have hcore := core_spawn_aside w (.command (.fresh command)) (hu.stage _) rfl rfl
  refine ⟨?_, fun u k hne hk => ?_, hu.bridges, rfl, ?_, ?_, h.sound.prompt, ?_, hc⟩
  · show _ < (w.tasks ++ [_]).length
    rw [List.length_append]
    exact Nat.lt_succ_self _
  · rw [task?_spawn, if_neg hne] at hk
    exact hu.tasks k (List.mem_of_getElem? hk)
  · rw [hcore]
    rfl
  · rw [hcore]
    rfl
  · rw [hcore]
    exact hu.stage _

/-- The command runs for the first time: it has the connection at once, as nobody is in line, and
calls the backend. -/
theorem Posted.alone {v : Client} {c : Core} {start : Start} {g : Option Target}
    {r : Client × Progress Lifecycle Settled} (hv : Posted w v)
    (hfresh : v.task? w.tasks.length = some (.command (.fresh (request g))))
    (hr : v.runPoint w.tasks.length (.fresh (request g)) = asLifecycle r)
    (hst : Stretch w.tasks.length c start r.2 (r.1.core.put w.tasks.length r.2.stage?))
    (hc : ∃ k, c = { v.core with epoch := k }) (hresp : SlotKept v r.1)
    (hbook : BookAt w.core.book w.core.backend.tally q
      (r.1.core.put w.tasks.length r.2.stage?) r.2)
    (hseated : Seated w.tasks.length r.1 r.2) (hsteady : (v.run w.tasks.length).Steady)
    (hsolo : Solo w.tasks.length 1 (v.run w.tasks.length)) :
    ∃ p, Alone w.core.book w.core.backend.tally q w.tasks.length p (v.run w.tasks.length) := by
  obtain ⟨k, rfl⟩ := hc
  have hrun := run_eq hfresh hr
  have hlt : w.tasks.length < r.1.core.size := Nat.lt_of_lt_of_le hv.there hst.near.size
  rw [hrun] at hsteady hsolo ⊢
  refine ⟨r.2, alone_of_stretch hst hlt hsteady ?_ ?_ hv.bridges hbook hseated ?_⟩
  · rw [hresp.config]
    exact hv.period
  · exact fun u k hne hk => hv.others u k hne (task?_of_entry hk)
  · -- the task has called the backend, since nobody else has the connection
    intro l hl
    obtain ⟨p, htask, -, hwaits⟩ := hsolo.task
    rw [task?_setTask _ _ _ hlt, if_pos rfl, hl] at htask
    cases p with
    | waiting l' =>
      cases htask
      exact (hwaits _ rfl).1
    | done => cases htask

/-- A request is made that has something to ask for. Nobody occupies the client, so the request is
alone from its first turn on. -/
theorem alone_call (h : w.Steady) (hc : w.config.telemetryInterval.toNat ≠ 0)
    (hu : w.Unoccupied) {g : Option Target}
    (hg : ∀ target, g = some target → target.ask? w.session.server ≠ none) :
    ∃ p, Alone w.core.book w.core.backend.tally (w.asks g) w.tasks.length p
      (w.call (request g)) := by
  have hsteady : (w.call (request g)).Steady := h.does (.event (.call (request g)))
  have hsolo := solo_call h.sound h.mirrors.orderly hu.stage g
  have hv := posted_spawn h hc hu (request g)
  have hfresh := task?_spawn_self w (.command (.fresh (request g)))
  have hcall : w.call (request g) =
      (w.spawn (.command (.fresh (request g)))).2.run w.tasks.length := rfl
  rw [hcall] at hsteady hsolo ⊢
  -- the client when the command is there
  generalize (w.spawn (.command (.fresh (request g)))).2 = v at hv hfresh hsteady hsolo ⊢
  -- a connect has something to ask for, and calls the backend with it
  have hconnect : ∀ target, g = some target → v.runPoint w.tasks.length (.fresh (request g)) =
      asLifecycle (v.requestConnect w.tasks.length target v.epoch) →
      ∃ p, Alone w.core.book w.core.backend.tally (w.asks g) w.tasks.length p
        (v.run w.tasks.length) := by
    intro target ht hr
    obtain ⟨ask, hask⟩ := Option.ne_none_iff_exists'.1 (hg target ht)
    have hask' : target.ask? v.core.session.server = some ask := by
      rw [show v.core.session = w.session from hv.session]
      exact hask
    have hq : w.asks g = some ask := by
      rw [ht]
      exact hask
    have hst := stretch_requestConnect v w.tasks.length target v.epoch hv.prompt
    rw [put_self hv.idle] at hst
    have hbook := bookAt_connect hst (Nat.lt_irrefl _) hask'
    rw [hv.book, hv.tally, ← hq] at hbook
    refine hv.alone hfresh hr hst ⟨v.epoch, rfl⟩
      (reaches_requestConnect v _ _ _).work.slotKept hbook ?_
      hsteady hsolo
    refine seated_requestConnect hv.there hv.period (Nat.lt_irrefl _) ?_
    rw [hv.session]
    exact hg target ht
  cases g with
  | some target => cases target <;> exact hconnect _ rfl rfl
  | none =>
    -- a disconnect voids the tickets first, which is none of the book's business
    obtain ⟨more, hcancel⟩ := cancelConnects_eq v
    have hst := stretch_queueDisconnect v.cancelConnects w.tasks.length
      (by rw [core_cancelConnects]; exact hv.prompt)
    have hput : v.cancelConnects.core.put w.tasks.length none =
        { v.core with epoch := v.core.epoch + 1 } := by
      rw [core_cancelConnects]
      exact put_self hv.idle
    rw [hput] at hst
    have hbook := bookAt_disconnect hst
    rw [show ({ v.core with epoch := v.core.epoch + 1 } : Core).book = v.core.book from rfl,
      hv.book, hv.tally] at hbook
    refine hv.alone hfresh rfl hst ⟨_, rfl⟩
      ((slotKept_cancelConnects v).trans (reaches_queueDisconnect _ _).work.slotKept) hbook ?_
        hsteady hsolo
    refine seated_queueDisconnect ?_ ?_
    · rw [hcancel]
      exact hv.there
    · rw [hcancel]
      exact hv.period

/-! ## What it comes to -/

/-- A connect is through: everything is at its server, and the poller runs. -/
structure Reached (w : Client) (goal : Server) (v : Client) : Prop where
  state : v.session.state = .connected
  server : v.session.server = some goal
  recents : v.session.recents = w.session.recents.push goal.id
  tunnel : v.backend.connectedServer = some goal.id
  flag : v.killSwitch.tunnelUp = true
  polling : v.isPolling = true ∧ ∃ u, v.IsDriving u

/-- The backend refused: the connection counts as down, and the rest is as it was. -/
structure Faulted (w v : Client) : Prop where
  state : v.session.state = .error
  stats : v.session.stats = none
  server : v.session.server = w.session.server
  recents : v.session.recents = w.session.recents
  tunnel : v.backend.connectedServer = w.backend.connectedServer
  flag : v.killSwitch.tunnelUp = false
  polling : v.isPolling = false ∧ ∀ u, ¬ v.IsDriving u

/-- A disconnect is through: there is no server and no tunnel. -/
structure HungUp (w v : Client) : Prop where
  state : v.session.state = .disconnected
  stats : v.session.stats = none
  server : v.session.server = none
  recents : v.session.recents = w.session.recents
  tunnel : v.backend.connectedServer = none
  flag : v.killSwitch.tunnelUp = false
  polling : v.isPolling = false ∧ ∀ u, ¬ v.IsDriving u

/-- What a request replies that asked for this, and what it leaves behind: it called the backend
once, and has what the backend answers. -/
def ComesTo (w v : Client) (r : Reply) (q : Option (Ask Server)) : Prop :=
  (∀ op : Operation, op.isLifecycle = true → v.backend.calls.get op =
    w.backend.calls.get op + if op = calledFor q then 1 else 0) ∧
  match q with
  | some ask =>
    match (w.backend.answer w.now ask).1 with
    | .ok server => r = .connected server ∧ Reached w server v
    | .error e => r = .failed (.backend e) ∧ Faulted w v
  | none =>
    match (w.backend.answer w.now .disconnect).1 with
    | .ok () => r = .disconnected ∧ HungUp w v
    | .error e => r = .failed (.backend e) ∧ Faulted w v

/-- A request that the backend refuses replies so, and leaves the connection as down. -/
theorem ComesTo.refused {v : Client} {r : Reply} {ask : Ask Server} {e : BackendError}
    (h : ComesTo w v r (some ask)) (ha : (w.backend.answer w.now ask).1 = .error e) :
    r = .failed (.backend e) ∧ Faulted w v := by
  have hr := h.2
  dsimp only at hr
  rwa [ha] at hr

/-- A reconnect asks for the server that there is. -/
theorem asks_last (w : Client) :
    w.asks (some .last) = w.session.server.map fun server => .connect server.id := rfl

/-- What a request asks for, if it connects, is a connect. -/
theorem isDial_of_asks {g : Option Target} {ask : Ask Server} (h : w.asks g = some ask) :
    ask.IsDial := by
  obtain ⟨target, -, ha⟩ := Option.bind_eq_some_iff.1 h
  cases target with
  | server id =>
    cases ha
    exact .inl ⟨id, rfl⟩
  | best =>
    cases ha
    exact .inr rfl
  | last =>
    obtain ⟨server, -, rfl⟩ := Option.map_eq_some_iff.1 ha
    exact .inl ⟨server.id, rfl⟩

/-- The kill switch knows that the connection is not up. -/
theorem Steady.flag_eq_false (h : w.Steady) (hs : w.session.state ≠ .connected) :
    w.killSwitch.tunnelUp = false :=
  Bool.eq_false_iff.2 fun hup => hs (h.mirrors.up.1 hup)

/-- Nobody has the slot, so nobody drives. -/
theorem Steady.not_polling (h : w.Steady) (hp : w.poller = none) :
    w.isPolling = false ∧ ∀ u, ¬ w.IsDriving u := by
  refine ⟨?_, fun u hu => ?_⟩
  · unfold isPolling
    rw [hp]
    rfl
  · cases (h.sole u hu).symm.trans hp

/-- A task has its reply when the request is through. -/
theorem Alone.reply (h : Alone b n q t p w) {r : Reply} (hr : w.reply? t = some r) :
    ∃ s, p = .done s ∧ r = settledReply s := by
  unfold reply? at hr
  rw [h.task] at hr
  cases p with
  | waiting l => cases hr
  | done s =>
    cases hr
    exact ⟨s, rfl, rfl⟩

/-- The tally says how often each kind of call was made. -/
theorem calls_of_tally {v : Client} {op : Operation}
    (h : v.core.backend.tally =
      Function.update w.core.backend.tally op (w.core.backend.tally op + 1)) :
    ∀ other : Operation, other.isLifecycle = true → v.backend.calls.get other =
      w.backend.calls.get other + if other = op then 1 else 0 := by
  intro other ho
  have htally : ∀ x : Client, x.core.backend.tally other = x.backend.calls.get other :=
    fun x => if_pos ho
  have hother := congrFun h other
  rw [htally] at hother
  rw [hother]
  -- the call that was made, or another kind that was not
  by_cases he : other = op
  · subst he
    rw [Function.update_self, if_pos rfl, htally]
  · rw [Function.update_of_ne he, if_neg he, htally]
    rfl

variable {v : Client}

/-- The refusal is committed: the state is `error`, and the server and the tunnel are as they
were. -/
theorem Alone.faulted {s : Settled} {failures : Operation → List BackendError}
    (h : Alone b n q t (.done s) v)
    (hb : v.core.book = { w.core.book with state := .error, failures := failures })
    (hp : v.poller = none) : Faulted w v := by
  have hstate : v.session.state = .error := congrArg Book.state hb
  have hdown : v.session.state ≠ .connected := by
    rw [hstate]
    exact nofun
  exact {
    state := hstate
    stats := h.bookAt.2.2 hdown
    server := congrArg Book.server hb
    recents := congrArg Book.recents hb
    tunnel := congrArg Book.tunnel hb
    flag := h.steady.flag_eq_false hdown
    polling := h.steady.not_polling hp }

/-- The arrival is committed. -/
theorem Alone.reached {server : Server} (h : Alone b n q t (.done (.ok (some server))) v)
    (hb : v.core.book = w.core.book.arrive server) : Reached w server v :=
  have hstate : v.session.state = .connected := congrArg Book.state hb
  { state := hstate
    server := congrArg Book.server hb
    recents := congrArg Book.recents hb
    tunnel := congrArg Book.tunnel hb
    flag := h.steady.mirrors.up.2 hstate
    polling := h.seated.polling }

/-- The end of the connection is committed. -/
theorem Alone.hungUp (h : Alone b n q t (.done (.ok none)) v)
    (hb : v.core.book = w.core.book.close) : HungUp w v := by
  have hstate : v.session.state = .disconnected := congrArg Book.state hb
  have hdown : v.session.state ≠ .connected := by
    rw [hstate]
    exact nofun
  exact {
    state := hstate
    stats := h.bookAt.2.2 hdown
    server := congrArg Book.server hb
    recents := congrArg Book.recents hb
    tunnel := congrArg Book.tunnel hb
    flag := h.steady.flag_eq_false hdown
    polling := h.steady.not_polling h.seated }

/-- The reply of a request is what the backend answered: both for a connect and for a disconnect, an
error or the new connection. -/
theorem Alone.comesTo (h : Alone w.core.book w.core.backend.tally q t p v)
    (hq : ∀ ask, q = some ask → ask.IsDial) {r : Reply} (hr : v.reply? t = some r) :
    ComesTo w v r q := by
  obtain ⟨s, rfl, rfl⟩ := h.reply hr
  obtain ⟨hcarry, htally, -⟩ := h.bookAt
  refine ⟨calls_of_tally htally, ?_⟩
  cases q with
  | some ask =>
    -- a connect, which is refused or arrives at a server
    have hdial : w.core.book.dial ask = (s, v.core.book) := hcarry
    dsimp only
    rcases ha : (w.backend.answer w.now ask).1 with e | server
    · obtain ⟨failures, hd⟩ := dial_of_error (c := w.core) (hq ask rfl) ha
      obtain ⟨rfl, hb⟩ := Prod.mk.inj (hdial.symm.trans hd)
      exact ⟨rfl, h.faulted hb h.seated⟩
    · obtain ⟨rfl, hb⟩ := Prod.mk.inj
        (hdial.symm.trans (dial_of_ok (c := w.core) (hq ask rfl) ha))
      exact ⟨rfl, h.reached hb⟩
  | none =>
    -- a disconnect, which is refused or closes the tunnel
    have hleave : w.core.book.hangUp = (s, v.core.book) := hcarry
    dsimp only
    rcases ha : (w.backend.answer w.now .disconnect).1 with e | _
    · obtain ⟨failures, hd⟩ := hangUp_of_error (c := w.core) ha
      obtain ⟨rfl, hb⟩ := Prod.mk.inj (hleave.symm.trans hd)
      exact ⟨rfl, h.faulted hb h.seated⟩
    · obtain ⟨rfl, hb⟩ := Prod.mk.inj (hleave.symm.trans (hangUp_of_ok (c := w.core) ha))
      exact ⟨rfl, h.hungUp hb⟩

/-- With two latencies and two turns it has its reply. -/
theorem Alone.replies (h : Alone b n q t p w) :
    ∃ r, (w.after [.pass w.backend.latency, .poll t, .pass w.backend.latency,
      .poll t]).reply? t = some r := by
  have h₁ := h.solo.next
  have hlatency := latency_after h.solo.sound [.pass w.backend.latency, .poll t]
  have h₂ := h₁.next
  rw [hlatency] at h₂
  obtain ⟨-, r, htask, -⟩ := h₂.ends
  exact ⟨settledReply r, reply?_of_entry (entry_of_task? htask (callTask_seen? _ _))⟩

/-- Nobody has the connection when no operation is pending. -/
theorem Unoccupied.free (hu : w.Unoccupied) (h : w.core.Orderly) : w.transition = .free := by
  have hq : w.transition.queue = [] :=
    List.eq_nil_iff_forall_not_mem.2 fun u hin => (h.mem u).1 hin (hu.stage u)
  obtain ⟨hholder, hline⟩ := List.append_eq_nil_iff.1 hq
  rcases hl : w.transition with ⟨_ | holder, line⟩
  · rw [hl] at hline
    rw [show line = [] from hline]
    rfl
  · rw [hl] at hholder
    cases hholder

/-- Without a server there is nothing to ask for. -/
theorem requestConnect_of_no_server (t : TaskId) (hf : w.transition = .free)
    (hn : w.session.server = none) :
    w.requestConnect t .last w.epoch =
      (w.say .nothingToReconnect, .done (.error noServer)) := by
  have hvalid : ¬ w.isVoid w.epoch = true := fun hv => Nat.lt_irrefl _ (of_decide_eq_true hv)
  have hheld : (w.transition.request t).isHeldBy t = true := by
    rw [hf]
    exact beq_self_eq_true (some t)
  have hrelease : (w.transition.request t).release = w.transition := by
    rw [hf]
    rfl
  unfold requestConnect
  rw [if_neg hvalid]
  dsimp only
  rw [if_pos hheld]
  unfold beginConnect
  dsimp only
  rw [hn]
  dsimp only
  unfold releaseTransition
  dsimp only [say]
  rw [hrelease, hf]
  rfl

/-- A reconnect without a server is over at once, and only says so. -/
theorem call_reconnect_of_no_server (h : w.core.Orderly) (hu : w.Unoccupied)
    (hn : w.session.server = none) :
    w.call .reconnect = { w with
      tasks := w.tasks ++ [.ended (.replied (.failed noServer))]
      log := .nothingToReconnect :: w.log } := by
  have hfresh := task?_spawn_self w (.command (.fresh .reconnect))
  have hr := requestConnect_of_no_server (w := (w.spawn (.command (.fresh .reconnect))).2)
    w.tasks.length (hu.free h) hn
  have hrun := run_eq hfresh (congrArg asLifecycle hr)
  show (w.spawn (.command (.fresh .reconnect))).2.run w.tasks.length = _
  rw [hrun]
  show ({ w with
    tasks := (w.tasks ++ [_]).set w.tasks.length (.ended (.replied (.failed noServer)))
    log := .nothingToReconnect :: w.log } : Client) = _
  rw [List.set_append_right _ _ (Nat.le_refl _), Nat.sub_self, List.set_cons_zero]

/-- A connect that waits for the backend asked for what it asks for. -/
theorem Alone.asked (h : Alone b n q t p w) {ticket : Nat} {call : Call Server}
    (hk : w.task? t = some (.command (.lifecycle (.dialing ticket call)))) :
    ∃ ask due, q = some ask ∧ call = .running ask due 0 := by
  have hp := h.task.symm.trans hk
  cases p with
  | done => cases hp
  | waiting l =>
    cases hp
    obtain ⟨-, -, -, -, ask, hq, -, due, hcall⟩ := h.bookAt
    exact ⟨ask, due, hq, hcall⟩

end Client

/-- A request that is made when no operation is pending, at any point of any run, whoever has a turn
from then on.  A reconnect without a server replies that at once, and changes nothing but the log.
Any other request calls the backend once and replies what the backend answers: a connect leaves
everything at the server that it arrived at, and a poller that runs; a disconnect leaves no server
and no tunnel; and whoever is refused leaves the server, the recently used ones and the tunnel as
they were, with the state `error`, the kill switch told and no poller that runs.  It has its reply
when two latencies have passed and it had a turn after each. -/
theorem outcome_alone (config : Config) (servers : List Server) (latency : Nat) (version : String)
    (start : Client) (hs : Client.create config (.make servers latency version) = .ok start)
    (past : List Deed) (g : Option Target) (events : List Event)
    (hu : (start.doing past).Unoccupied) (he : ∀ e ∈ events, e.IsTurn) :
    let w := start.doing past
    let t := w.tasks.length
    let v := (w.call (Client.request g)).after events
    (g = some .last → w.session.server = none →
      w.call (Client.request g) = { w with
        tasks := w.tasks ++ [.ended (.replied (.failed noServer))]
        log := .nothingToReconnect :: w.log }) ∧
    ((g = some .last → w.session.server ≠ none) →
      (∀ r, v.reply? t = some r → Client.ComesTo w v r (w.asks g)) ∧
      (∀ ticket call, v.task? t = some (.command (.lifecycle (.dialing ticket call))) →
        ∃ ask due, w.asks g = some ask ∧ call = .running ask due 0) ∧
      ∃ r, (v.after [.pass latency, .poll t, .pass latency, .poll t]).reply? t = some r) := by
  intro w t v
  obtain ⟨rfl, hc⟩ := Client.create_eq hs
  have hfresh := Client.steady_make config (Backend.prompt_make servers latency version)
  have hsteady : w.Steady := hfresh.doing past
  -- a reconnect without a server is over at once; every other request calls the backend
  refine ⟨fun hg hn => ?_, fun hn => ?_⟩
  · subst hg
    exact Client.call_reconnect_of_no_server hsteady.mirrors.orderly hu hn
  · have hperiod : w.config.telemetryInterval.toNat ≠ 0 := by
      rw [show w.config = config from hfresh.config_doing past]
      exact hc
    have hlatency : v.backend.latency = latency :=
      (Client.latency_after hsteady.sound (.call (Client.request g) :: events)).trans
        (hfresh.latency_doing past)
    obtain ⟨p, hcall⟩ := Client.alone_call hsteady hperiod hu (g := g) fun target hg => by
      subst hg
      cases target with
      | server | best => exact Option.some_ne_none _
      | last => exact fun he => hn rfl (Option.map_eq_none_iff.1 he)
    obtain ⟨p', h⟩ := hcall.after events he
    refine ⟨fun r hr => h.comesTo (fun ask => Client.isDial_of_asks) hr,
      fun ticket call => h.asked, ?_⟩
    rw [← hlatency]
    exact h.replies

/-- A reconnect that the backend refuses, while the poller of the connection before still has a
turn: the server and its tunnel stay. -/
theorem outcome_alone_refused :
    let start := Client.fresh Config.default [Server.make "x" "" "" "" ""] 2 "1"
    let w := start.doing [.event (.call (.connect "x")), .event (.pass 2), .event (.poll 0),
      .event (.pass 2), .event (.poll 0), .event (.fail .connect (.rejected "busy"))]
    let v := (w.call .reconnect).after [.poll 1, .pass 2, .poll 1, .poll 2]
    v.reply? 2 = some (.failed (.backend (.rejected "busy"))) ∧ Client.Faulted w v ∧
      v.backend.connectedServer = some "x" := by
  intro start w v
  have h := outcome_alone Config.default [Server.make "x" "" "" "" ""] 2 "1" start rfl
    [.event (.call (.connect "x")), .event (.pass 2), .event (.poll 0),
      .event (.pass 2), .event (.poll 0), .event (.fail .connect (.rejected "busy"))]
    (some .last) [.poll 1, .pass 2, .poll 1, .poll 2] ⟨by decide +kernel, by decide +kernel⟩
    (by simp [Event.IsTurn])
  have hserver : w.session.server = some (Server.make "x" "" "" "" "") := by decide +kernel
  have hfails : w.backend.failures.get .connect = [.rejected "busy"] := by decide +kernel
  have htunnel : w.backend.connectedServer = some "x" := by decide +kernel
  have hlength : w.tasks.length = 2 := by decide +kernel
  obtain ⟨r, hr⟩ : ∃ r, v.reply? w.tasks.length = some r :=
    Option.isSome_iff_exists.1 (by decide +kernel)
  have hasks : w.asks (some .last) = some (.connect "x") := by
    rw [Client.asks_last, hserver]
    rfl
  have hanswer : (w.backend.answer w.now (.connect "x")).1 = .error (.rejected "busy") := by
    unfold Backend.answer
    rw [show w.backend.failures.get (Ask.connect "x").operation = _ from hfails]
  have hends := (h.2 fun _ => by rw [hserver]; exact Option.some_ne_none _).1 r hr
  rw [show Client.asks _ (some .last) = _ from hasks] at hends
  obtain ⟨rfl, hfaulted⟩ := hends.refused hanswer
  rw [hlength] at hr
  exact ⟨hr, hfaulted, hfaulted.tunnel.trans htunnel⟩

end TunnelSession
