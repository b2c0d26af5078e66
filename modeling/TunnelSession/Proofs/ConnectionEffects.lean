/-
  What a turn does to the connection, effect by effect.

  EFFECTS.  Whatever a task does that does not leave the connection alone (`ConnKept`) is one of a
  few things (`ConnEffect`): it asks for the connection or gives it back, waits with a ticket, makes
  tickets void, leaves the old connection behind, settles the state, or starts the poller.  Only who
  has the connection does the last three, and a change of the state is one that
  `ConnectionState.leads` allows.

  FUNCTIONS.  One lemma for each function of `Client.Lifecycle` (`ConnWork`), with the changes that
  `StateChanges` lists.  What a connect or a disconnect finds when it goes on is its hypothesis
  (`StageHolds`).
-/
import TunnelSession.Proofs.ConnectionKept
import TunnelSession.Proofs.Requests
import TunnelSession.Proofs.StateChanges

namespace TunnelSession

namespace ConnectionState

theorem leads_connecting {s : ConnectionState} (h : s ≠ .disconnecting) (hc : s ≠ .connecting) :
    s.leads .connecting = true := by
  cases s <;> first | exact absurd rfl h | exact absurd rfl hc | rfl

/-- A connect goes back to a server only if there was a connection. -/
theorem leads_reconnecting {s : ConnectionState} (h : s ≠ .disconnecting) (hd : s ≠ .disconnected)
    (hr : s ≠ .reconnecting) : s.leads .reconnecting = true := by
  cases s <;> first | exact absurd rfl h | exact absurd rfl hd | exact absurd rfl hr | rfl

theorem leads_disconnecting {s : ConnectionState} (h : s ≠ .disconnecting) :
    s.leads .disconnecting = true := by
  cases s <;> first | exact absurd rfl h | rfl

/-- What a connect that waits for the backend comes to. -/
theorem leads_of_isDialing {s : ConnectionState} (h : s.isDialing = true) :
    s.leads .connected = true ∧ s.leads .error = true := by
  revert h
  cases s <;> decide

/-- Only a request that is still running settles. -/
theorem isTransitioning_of_leads {s s' : ConnectionState} (h : s.leads s' = true)
    (hs : s'.isTransitioning = false) : s.isTransitioning = true := by
  revert h hs
  cases s <;> cases s' <;> decide

end ConnectionState

namespace Client

variable {w w' w₁ : Client} {t : TaskId} {σ τ : List StateChange}

/-! ## Effects on the connection -/

/-- One thing that a task does. -/
inductive ConnEffect (t : TaskId) (w : Client) : List StateChange → Client → Prop
  | connKept {w' : Client} (h : ConnKept w w') : ConnEffect t w [] w'
  | request : ConnEffect t w [] { w with transition := w.transition.request t }
  | enlist : ConnEffect t w [] (w.enlist t)
  | delist : ConnEffect t w [] (w.delist t)
  /-- The old connection is left behind, and nobody looks at its statistics any more. -/
  | depart {s : ConnectionState} {f : Session → Session} (hf : ∀ v, (f v).state = s)
    (hh : w.transition.holder = some t) (hs : s.isTransitioning = true)
    (hl : w.session.state ≠ s → w.session.state.leads s = true) :
    ConnEffect t w (w.changeTo t s) (w.update f).stopPolling
  | settle {s : ConnectionState} {f : Session → Session} (hf : ∀ v, (f v).state = s)
    (hh : w.transition.holder = some t) (hs : s.isTransitioning = false)
    (hl : w.session.state.leads s = true) : ConnEffect t w (w.changeTo t s) (w.update f)
  | polls (hh : w.transition.holder = some t) (hc : w.session.state = .connected) :
    ConnEffect t w [] (w.startPolling w.config.telemetryInterval.toNat)
  | release (hh : w.transition.holder = some t) : ConnEffect t w [] w.releaseTransition
  | withdraw : ConnEffect t w [] (w.withdrawTransition t)
  | cancel : ConnEffect t w [] w.cancelConnects

/-- Effects, one after the other, with all their changes of the state. -/
inductive ConnEffects (t : TaskId) : Client → List StateChange → Client → Prop
  | refl (w : Client) : ConnEffects t w [] w
  | head {w w₁ w' : Client} {σ τ : List StateChange} (h : ConnEffect t w σ w₁)
    (hs : ConnEffects t w₁ τ w') :
    ConnEffects t w (σ ++ τ) w'

theorem ConnEffect.single (h : ConnEffect t w σ w') : ConnEffects t w σ w' := by
  have hs := ConnEffects.head h (.refl w')
  rwa [List.append_nil] at hs

theorem ConnEffects.trans (h : ConnEffects t w σ w₁) (h' : ConnEffects t w₁ τ w') :
    ConnEffects t w (σ ++ τ) w' := by
  induction h with
  | refl => exact h'
  | head h _ ih =>
    rw [List.append_assoc]
    exact .head h (ih h')

/-- Work that leaves the connection alone is one effect without a change. -/
theorem ConnKept.connEffects (h : ConnKept w w') : ConnEffects t w [] w' :=
    (ConnEffect.connKept h).single

/-- What follows changes no state. -/
theorem ConnEffects.quietly (h : ConnEffects t w σ w₁) (h' : ConnEffects t w₁ [] w') :
    ConnEffects t w σ w' := by
  have hs := h.trans h'
  rwa [List.append_nil] at hs

/-! ### What effects leave alone -/

/-- What a task leaves alone, and what only grows. -/
structure Kept (w w' : Client) : Prop where
  config : w'.config = w.config
  now : w'.now = w.now
  bridges : w'.bridges = w.bridges
  epoch : w.epoch ≤ w'.epoch
  ready : w.ready <+: w'.ready
  /-- Only pollers are touched by others. -/
  task : ∀ u k, k.seen? = some k → (w'.task? u = some k ↔ w.task? u = some k)

theorem Kept.refl (w : Client) : Kept w w :=
  ⟨rfl, rfl, rfl, Nat.le_refl _, List.prefix_rfl, fun _ _ _ => .rfl⟩

theorem Kept.trans (h : Kept w w₁) (h' : Kept w₁ w') : Kept w w' :=
  ⟨h'.config.trans h.config, h'.now.trans h.now, h'.bridges.trans h.bridges,
    Nat.le_trans h.epoch h'.epoch, h.ready.trans h'.ready,
    fun u k hk => (h'.task u k hk).trans (h.task u k hk)⟩

/-- Telling a task to stop changes pollers only. -/
theorem stopped_eq_iff {k k' : Task} (hk : k.seen? = some k) : stopped k' = k ↔ k' = k := by
  cases k' with
  | poller p =>
    constructor
    · rintro rfl
      cases hk
    · rintro rfl
      cases hk
  | command | receiver | worker | ended => exact .rfl

/-- Stopping the poller of the last connection leaves every other task in its place. A poller is
never shown, so a task that is shown is none. -/
theorem getElem?_stopIn {old : Option TaskId} {tasks : List Task} {u : TaskId} {k : Task}
    (hk : k.seen? = some k) : (stopIn old tasks)[u]? = some k ↔ tasks[u]? = some k := by
  cases old with
  | none => exact .rfl
  | some o =>
    show (tasks.modify o stopped)[u]? = some k ↔ _
    rw [List.getElem?_modify]
    cases tasks[u]? with
    | none => exact .rfl
    | some k' =>
      show some (if o = u then stopped k' else k') = some k ↔ some k' = some k
      split
      · rw [Option.some_inj, Option.some_inj]
        exact stopped_eq_iff hk
      · exact .rfl

/-- A new poller is not seen among the tasks. -/
theorem getElem?_append_poller {tasks : List Task} {p : Poller} {u : TaskId} {k : Task}
    (hk : k.seen? = some k) : (tasks ++ [.poller p])[u]? = some k ↔ tasks[u]? = some k := by
  rw [List.getElem?_append]
  split
  · exact .rfl
  · rename_i hlt
    rw [List.getElem?_eq_none (Nat.le_of_not_lt hlt)]
    constructor
    · intro h
      cases List.mem_singleton.1 (List.mem_of_getElem? h)
      cases hk
    · nofun

/-- No effect moves a task that is no poller, nor does one take back a disconnect or a turn. Pollers
are left out, since leaving a connection stops one. -/
theorem ConnEffect.kept (h : ConnEffect t w σ w') : Kept w w' := by
  cases h with
  | connKept h =>
    refine ⟨h.config, h.now, h.bridges, Nat.le_of_eq h.epoch.symm, h.ready, fun u k _ => ?_⟩
    rw [task?, task?, h.tasks]
  | request | enlist | delist =>
    exact ⟨rfl, rfl, rfl, Nat.le_refl _, List.prefix_rfl, fun _ _ _ => .rfl⟩
  | @depart _ f =>
    -- the update of the session, and then the end of the poller in the slot
    obtain ⟨more, hu⟩ := update_eq w f
    obtain ⟨rest, log, hs⟩ := stopPolling_eq (w.update f)
    rw [hs, hu]
    exact ⟨rfl, rfl, rfl, Nat.le_refl _, (List.prefix_append _ _).trans (List.prefix_append _ _),
      fun _ _ hk => getElem?_stopIn hk⟩
  | @settle _ f =>
    obtain ⟨more, hu⟩ := update_eq w f
    rw [hu]
    exact ⟨rfl, rfl, rfl, Nat.le_refl _, List.prefix_append _ _, fun _ _ _ => .rfl⟩
  | polls =>
    -- the new poller is behind all others, and the old one is told to stop
    obtain ⟨more, log, hs⟩ := startPolling_eq w w.config.telemetryInterval.toNat
    rw [hs]
    exact ⟨rfl, rfl, rfl, Nat.le_refl _, List.prefix_append _ _,
      fun _ _ hk => (getElem?_stopIn hk).trans (getElem?_append_poller hk)⟩
  | release =>
    obtain ⟨more, hr⟩ := releaseTransition_eq w
    rw [hr]
    exact ⟨rfl, rfl, rfl, Nat.le_refl _, List.prefix_append _ _, fun _ _ _ => .rfl⟩
  | withdraw =>
    obtain ⟨more, hr⟩ := withdrawTransition_eq w t
    rw [hr]
    exact ⟨rfl, rfl, rfl, Nat.le_refl _, List.prefix_append _ _, fun _ _ _ => .rfl⟩
  | cancel =>
    obtain ⟨more, hc⟩ := cancelConnects_eq w
    rw [hc]
    exact ⟨rfl, rfl, rfl, Nat.le_succ _, List.prefix_append _ _, fun _ _ _ => .rfl⟩

theorem ConnEffects.kept (h : ConnEffects t w σ w') : Kept w w' := by
  induction h with
  | refl => exact .refl _
  | head h _ ih => exact h.kept.trans ih

theorem seen?_of_lifecycle? {k : Task} {l : Lifecycle} (h : k.lifecycle? = some l) :
    k.seen? = some k := by
  cases k with
  | poller => cases h
  | command | receiver | worker | ended => rfl

/-- Nobody else is moved. -/
theorem Kept.stage (h : Kept w w') (u : TaskId) : w'.stage u = w.stage u := by
  unfold Client.stage
  refine Option.ext fun l => ?_
  rw [Option.bind_eq_some_iff, Option.bind_eq_some_iff]
  refine exists_congr fun task => and_congr_left fun hl => ?_
  exact h.task u task (seen?_of_lifecycle? hl)

/-! ### The state -/

/-- What a write of the state does to the state. -/
theorem chain_changeTo (w : Client) (t : TaskId) (s : ConnectionState) :
    StateChange.Chain w.session.state (w.changeTo t s) s := by
  unfold changeTo
  split
  · rename_i h
    exact h.symm
  · exact ⟨rfl, rfl⟩

/-- The changes of an effect lead from the state before it to the state after it. -/
theorem ConnEffect.chain (h : ConnEffect t w σ w') :
    StateChange.Chain w.session.state σ w'.session.state := by
  cases h with
  | connKept h => exact h.state
  | request | enlist | delist => exact rfl
  | depart hf =>
    rw [session_stopPolling, session_update, hf]
    exact chain_changeTo w t _
  | settle hf =>
    rw [session_update, hf]
    exact chain_changeTo w t _
  | polls => exact congrArg (fun c : Core => c.session.state) (core_startPolling w _)
  | release => exact congrArg (fun c : Core => c.session.state) (core_releaseTransition w)
  | withdraw => exact congrArg (fun c : Core => c.session.state) (core_withdrawTransition w t)
  | cancel => exact congrArg (fun c : Core => c.session.state) (core_cancelConnects w)

/-- The changes of a stretch of work lead, one after the other, from the state before it to the
state after it. -/
theorem ConnEffects.chain (h : ConnEffects t w σ w') :
    StateChange.Chain w.session.state σ w'.session.state := by
  induction h with
  | refl => exact rfl
  | head h _ ih => exact h.chain.append ih

/-- Only who has the connection changes the state, and only along the graph. -/
theorem ConnEffect.change (h : ConnEffect t w σ w') {x : StateChange} (hx : x ∈ σ) :
    x.task = t ∧ x.holder = some t ∧ x.old.leads x.new = true := by
  -- a write of the state by who has the connection
  have hto : ∀ s, w.transition.holder = some t →
      (w.session.state ≠ s → w.session.state.leads s = true) → x ∈ w.changeTo t s →
      x.task = t ∧ x.holder = some t ∧ x.old.leads x.new = true := by
    intro s hh hl hx
    unfold changeTo at hx
    split at hx
    · cases hx
    · rename_i hne
      cases List.mem_singleton.1 hx
      exact ⟨rfl, hh, hl hne⟩
  cases h with
  | depart _ hh _ hl => exact hto _ hh hl hx
  | settle _ hh _ hl => exact hto _ hh (fun _ => hl) hx
  | _ => cases hx

/-- Every change in a stretch of work is made by its task, which has the connection, and leads from
a state to one that may follow it. -/
theorem ConnEffects.change (h : ConnEffects t w σ w') {x : StateChange} (hx : x ∈ σ) :
    x.task = t ∧ x.holder = some t ∧ x.old.leads x.new = true := by
  induction h with
  | refl => cases hx
  | head h _ ih =>
    rcases List.mem_append.1 hx with hx | hx
    · exact h.change hx
    · exact ih hx

/-- While another task has the connection, nobody changes the state or takes the connection: to do
either one has to be its holder. -/
theorem ConnEffect.barred {u : TaskId} (h : ConnEffect t w σ w') (hu : w.transition.holder = some u)
    (hne : u ≠ t) : σ = [] ∧ w'.transition.holder = some u := by
  have hno : w.transition.holder ≠ some t := fun hh => hne (Option.some.inj (hu.symm.trans hh))
  cases h with
  | connKept h => exact ⟨rfl, (congrArg Lock.holder h.transition).trans hu⟩
  | request =>
    refine ⟨rfl, ?_⟩
    show (w.transition.request t).holder = some u
    unfold Lock.request
    rw [hu]
  | enlist | delist => exact ⟨rfl, hu⟩
  -- only who has the connection does these
  | depart _ hh | settle _ hh | polls hh | release hh => exact absurd hh hno
  | withdraw =>
    have hk : w.transition.isHeldBy t = false := beq_eq_false_iff_ne.2 hno
    refine ⟨rfl, ?_⟩
    unfold withdrawTransition
    rw [hk]
    exact hu
  | cancel =>
    refine ⟨rfl, ?_⟩
    rw [show w.cancelConnects.transition = w.transition from
      congrArg Core.transition (core_cancelConnects w)]
    exact hu

/-- While another task has the connection, a stretch of work changes no state: there is no such
effect but for its holder. -/
theorem ConnEffects.barred {u : TaskId} (h : ConnEffects t w σ w')
    (hu : w.transition.holder = some u)
    (hne : u ≠ t) : σ = [] ∧ w'.transition.holder = some u := by
  induction h with
  | refl => exact ⟨rfl, hu⟩
  | head h _ ih =>
    obtain ⟨rfl, hu'⟩ := h.barred hu hne
    exact ih hu'

/-- A write of the state is published if it is news, and only then. -/
theorem published_update {s : ConnectionState} {f : Session → Session}
    (hf : ∀ v, (f v).state = s) (hp : w.published = w.session.state) :
    (w.update f).published = s ∧ (w.update f).version = w.version + (w.changeTo t s).length := by
  obtain ⟨more, hu⟩ := update_eq w f
  rw [hu, hf, hp]
  refine ⟨rfl, ?_⟩
  unfold changeTo
  by_cases h : w.session.state = s
  · rw [if_pos h]
    exact if_pos h.symm
  · rw [if_neg h]
    exact if_neg fun he => h he.symm

/-- The state is published at every change, and only then. What a poller's start or end does to the
tasks comes after the update and publishes nothing. -/
theorem ConnEffect.published (h : ConnEffect t w σ w') (hp : w.published = w.session.state) :
    w'.published = w'.session.state ∧ w'.version = w.version + σ.length := by
  cases h with
  | connKept h => exact h.published hp
  | request | enlist | delist => exact ⟨hp, rfl⟩
  | @depart s f hf =>
    -- the end of the poller comes after the update and publishes nothing
    obtain ⟨hpub, hver⟩ := published_update (t := t) hf hp
    obtain ⟨more, log, hs⟩ := stopPolling_eq (w.update f)
    rw [hs]
    refine ⟨hpub.trans ?_, hver⟩
    rw [session_update, hf]
  | @settle s f hf =>
    obtain ⟨hpub, hver⟩ := published_update (t := t) hf hp
    refine ⟨hpub.trans ?_, hver⟩
    rw [session_update, hf]
  | polls =>
    obtain ⟨more, log, hs⟩ := startPolling_eq w w.config.telemetryInterval.toNat
    rw [hs]
    exact ⟨hp, rfl⟩
  | release =>
    obtain ⟨more, hr⟩ := releaseTransition_eq w
    rw [hr]
    exact ⟨hp, rfl⟩
  | withdraw =>
    obtain ⟨more, hr⟩ := withdrawTransition_eq w t
    rw [hr]
    exact ⟨hp, rfl⟩
  | cancel =>
    obtain ⟨more, hc⟩ := cancelConnects_eq w
    rw [hc]
    exact ⟨hp, rfl⟩

/-- A stretch of work publishes the state as often as it changes it: the version counts the
changes. -/
theorem ConnEffects.published (h : ConnEffects t w σ w') (hp : w.published = w.session.state) :
    w'.published = w'.session.state ∧ w'.version = w.version + σ.length := by
  induction h with
  | refl => exact ⟨hp, rfl⟩
  | head h _ ih =>
    obtain ⟨hpub, hver⟩ := h.published hp
    obtain ⟨hpub', hver'⟩ := ih hpub
    exact ⟨hpub', by rw [hver', hver, List.length_append, Nat.add_assoc]⟩

/-! ## Connects and disconnects -/

/-- May a connect leave the old connection behind?  Not before a disconnect is through, and without
a connection there is no server to go back to. -/
structure CanDial (w : Client) : Prop where
  free : w.session.state ≠ .disconnecting
  fresh : w.session.state = .disconnected → w.session.server = none

/-- What a connect or a disconnect finds when it goes on. -/
def StageHolds (w : Client) (t : TaskId) : Lifecycle → Prop
  | .queued .. => w.transition.holder = some t → w.CanDial
  | .dialing .. => w.transition.holder = some t ∧ w.session.state.isDialing = true
  | .sampling .. => w.transition.holder = some t ∧ w.session.state = .connected
  | .leaving => True
  | .hangingUp _ => w.transition.holder = some t ∧ w.session.state = .disconnecting

/-- The effects of a stretch of work, and what its changes of the state say of where it got.  Who
waits with a ticket is woken when it becomes void, unless `kept` fails.  Who has made a tunnel has
started the poller, unless `skip` holds. -/
structure ConnWork (t : TaskId) (w : Client) (skip kept : Prop) (σ : List StateChange)
    (r : Client × Progress Lifecycle Settled) : Prop where
  connEffects : ConnEffects t w σ r.1
  changesFit : ChangesFit σ r.2
  enlisted : ∀ l k, r.2 = .waiting l → l.ticket? = some k → kept → t ∈ r.1.cancellable
  polling : ∀ server, r.2 = .done (.ok (some server)) → skip ∨ r.1.poller ≠ none

section Lifecycle

variable {skip kept : Prop} {r : Client × Progress Lifecycle Settled}

/-- What goes before changes no state. -/
theorem ConnWork.behind (h : ConnWork t w₁ skip kept σ r) (hs : ConnEffects t w [] w₁) :
    ConnWork t w skip kept σ r :=
  ⟨hs.trans h.connEffects, h.changesFit, h.enlisted, h.polling⟩

theorem ConnWork.connKept (h : ConnWork t w₁ skip kept σ r) (hs : ConnKept w w₁) :
    ConnWork t w skip kept σ r :=
  h.behind hs.connEffects

/-- The old connection is left behind first, and all that follows settles the state. -/
theorem ConnWork.depart {s : ConnectionState} (h : ConnWork t w₁ skip kept τ r)
    (hs : ConnEffects t w (w.changeTo t s) w₁) (hne : s ≠ .connected)
    (hsettle : StateChange.Settle τ) :
    ConnWork t w skip kept (w.changeTo t s ++ τ) r :=
  ⟨hs.trans h.connEffects, changesFit_changeTo_append hne hsettle h.changesFit.up, h.enlisted,
    h.polling⟩

/-- What follows changes no state. -/
theorem ConnWork.quietly (h : ConnWork t w₁ skip kept [] r) (hs : ConnEffects t w σ w₁)
    (ht : ChangesFit σ r.2) : ConnWork t w skip kept σ r :=
  ⟨hs.quietly h.connEffects, ht, h.enlisted, h.polling⟩

/-- The result does not come from a tunnel. -/
theorem ConnWork.settled (h : ConnEffects t w σ r.1) (ht : ChangesFit σ r.2) {s : Settled}
    (hr : r.2 = .done s)
    (hs : ∀ server, s ≠ .ok (some server)) : ConnWork t w skip kept σ r := by
  refine ⟨h, ht, fun l k hl => ?_, fun server he => ?_⟩
  · rw [hr] at hl
    cases hl
  · rw [hr] at he
    cases he
    exact absurd rfl (hs server)

/-- A connect waits, and a disconnect wakes it. -/
theorem connWork_enlist (l : Lifecycle) : ConnWork t w skip kept [] (w.enlist t, .waiting l) :=
  ⟨ConnEffect.enlist.single, changesFit_nil _, fun _ _ _ _ _ => List.mem_append_right _ (.head _),
    nofun⟩

/-- A disconnect waits. -/
theorem connWork_stay {l : Lifecycle} (h : ConnKept w w') (hl : l.ticket? = none) :
    ConnWork t w skip kept [] (w', .waiting l) := by
  refine ⟨h.connEffects, changesFit_nil _, fun l' k he hk => ?_, nofun⟩
  cases he
  rw [hl] at hk
  cases hk

/-- A connect waits as before. -/
theorem connWork_wait {l : Lifecycle} (h : ConnKept w w') :
    ConnWork t w skip (t ∈ w.cancellable) [] (w', .waiting l) :=
  ⟨h.connEffects, changesFit_nil _, fun _ _ _ _ hk => h.cancellable ▸ hk, nofun⟩

/-- A connect that is through gives the connection back; the poller that it started is in the
slot. -/
theorem connWork_finishConnect (server : Server) (hh : w.transition.holder = some t)
    (hp : skip ∨ w.poller ≠ none) : ConnWork t w skip kept [] (w.finishConnect server) := by
  refine ⟨(ConnEffect.release hh).single, changesFit_nil _, nofun, fun _ _ => ?_⟩
  show _ ∨ w.releaseTransition.poller ≠ none
  rw [show w.releaseTransition.poller = w.poller from (connKept_wakeAll _ _).poller]
  exact hp

/-- A connect with its first statistics starts the poller and is through. -/
theorem connWork_sampled (server : Server) (hh : w.transition.holder = some t)
    (hc : w.session.state = .connected) : ConnWork t w skip kept [] (w.sampled server) := by
  have hh' : (w.startPolling w.config.telemetryInterval.toNat).transition.holder = some t := by
    rw [show (w.startPolling w.config.telemetryInterval.toNat).transition = w.transition from
      congrArg Core.transition (core_startPolling w _)]
    exact hh
  have hp : (w.startPolling w.config.telemetryInterval.toNat).poller ≠ none := by
    rw [poller_startPolling]
    exact Option.some_ne_none _
  exact (connWork_finishConnect server hh' (.inr hp)).behind (ConnEffect.polls hh hc).single

/-- The backend answered a connect. A refusal settles in an error and gives the connection back; a
tunnel settles in connected and goes on to the first look. -/
theorem connWork_dialed (ticket : Nat) (a : Except BackendError Server)
    (hh : w.transition.holder = some t) (hd : w.session.state.isDialing = true) :
    ConnWork t w skip kept (w.dialedChanges t a) (w.dialed t ticket a) := by
  obtain ⟨hconnected, herror⟩ := ConnectionState.leads_of_isDialing hd
  cases a with
  | error e =>
    have hl := connKept_say w (.connectFailed e)
    have hf : ConnEffect t (w.say (.connectFailed e)) (w.changeTo t .error) _ :=
      .settle (f := (·.fault)) (fun _ => rfl) hh rfl herror
    have hh' : ((w.say (.connectFailed e)).update (·.fault)).transition.holder = some t := by
      rw [transition_update]
      exact hh
    have ht : ∀ {p}, ChangesFit (w.changeTo t .error) p :=
      (settle_changeTo rfl).changesFit fun x hx hn => by
      cases (new_of_mem_changeTo hx).symm.trans hn
    exact .settled
      (hl.connEffects.trans (hf.single.quietly (ConnEffect.release hh').single)) ht rfl nofun
  | ok server =>
    unfold dialed tunnelMade dialedChanges
    dsimp only
    -- the client when the session knows the tunnel and nothing was looked at yet
    generalize hu : ((w.update _).raiseTunnel.say (.connected server)) = u
    have hs : ConnEffects t w (w.changeTo t .connected) u := by
      rw [← hu]
      have hl :=
        (connKept_raiseTunnel (w.update (·.arrive server))).trans
          (connKept_say _ (.connected server))
      exact (ConnEffect.settle (fun _ => rfl) hh rfl hconnected).single.quietly hl.connEffects
    have hc : u.session.state = .connected := by
      rw [← hu]
      exact congrArg Session.state (session_update w _)
    have hk : u.transition.holder = some t := by
      rw [← hu]
      exact (congrArg Lock.holder (transition_update w _)).trans hh
    -- the connect has its tunnel, whether it waits for the statistics or is through
    have ht : ∀ {p : Progress Lifecycle Settled},
        p.HasTunnel → ChangesFit (w.changeTo t .connected) p :=
      fun hp => (settle_changeTo rfl).changesFit fun _ _ _ => hp
    have hl := connKept_fetchStats u t
    rcases hr : u.fetchStats t with ⟨v, call | looked⟩
    · rw [hr] at hl
      exact ((connWork_enlist _).connKept hl).quietly hs (ht (.inl ⟨_, _, _, rfl⟩))
    · rw [hr] at hl
      have hv : v.transition.holder = some t := by
        rw [hl.transition]
        exact hk
      exact ((connWork_sampled server hv (hl.state.trans hc)).connKept hl).quietly hs
        (ht (.inr ⟨_, rfl⟩))

/-- The old connection is left behind, and the backend is called. With latency the connect waits in
a state that runs, and without it the answer is taken in at once. -/
theorem connWork_dial (ticket : Nat) {state : ConnectionState} (ask : Ask Server)
    (hh : w.transition.holder = some t) (hs : state.isDialing = true)
    (hl : w.session.state ≠ state → w.session.state.leads state = true) :
    ConnWork t w skip kept (w.dialChanges t state ask) (w.dial t ticket state ask) := by
  have htr : state.isTransitioning = true := by
    revert hs
    cases state <;> decide
  unfold dial dialChanges
  dsimp only
  -- the client when the old connection is left behind and the backend was not called yet
  generalize hu : (w.update _).stopPolling.lowerTunnel = u
  have hd : ConnEffects t w (w.changeTo t state) u := by
    rw [← hu]
    refine ConnEffects.quietly ?_ (connKept_lowerTunnel _).connEffects
    exact (ConnEffect.depart (s := state) (fun _ => rfl) hh htr hl).single
  have hst : u.session.state = state := by
    rw [← hu]
    exact congrArg Session.state ((session_stopPolling _).trans (session_update w _))
  have hk : u.transition.holder = some t := by
    rw [← hu]
    refine (congrArg Lock.holder ?_).trans hh
    exact (transition_stopPolling _).trans (transition_update w _)
  have hne : state ≠ .connected := by
    rintro rfl
    cases hs
  have hc := connKept_startCall u t ask
  rcases hr : u.startCall t ask with ⟨v, call | a⟩
  · rw [hr] at hc
    exact ((connWork_enlist _).connKept hc).depart hd hne nofun
  · rw [hr] at hc
    refine ((connWork_dialed ticket a ?_ ?_).connKept hc).depart hd hne (settle_dialedChanges v t a)
    · rw [hc.transition]
      exact hk
    · rw [hc.state, hst]
      exact hs

/-- A connect holds the connection. Where it may come from and whether it is a reconnect depend on
its target, and the rest is dialing. -/
theorem connWork_beginConnect (ticket : Nat) (target : Target)
    (hh : w.transition.holder = some t) (hd : w.CanDial) :
    ConnWork t w skip kept (w.connectChanges t target) (w.beginConnect t ticket target) := by
  have hc := fun hne => ConnectionState.leads_connecting hd.free hne
  cases target with
  | server id =>
    exact (connWork_dial (w := w.say (.connecting id)) ticket _ hh rfl hc).connKept
      (connKept_say _ _)
  | best =>
    exact (connWork_dial (w := w.say .quickConnecting) ticket _ hh rfl hc).connKept
      (connKept_say _ _)
  | last =>
    -- a reconnect: with a server there was a connection, so the state may become reconnecting
    unfold beginConnect connectChanges
    cases hserver : w.session.server with
    | some server =>
      refine (connWork_dial (w := w.say (.connecting server.id)) ticket _ hh rfl fun hne =>
        ?_).connKept
        (connKept_say _ _)
      refine ConnectionState.leads_reconnecting hd.free (fun hno => ?_) hne
      rw [show w.session.server = none from hd.fresh hno] at hserver
      cases hserver
    | none =>
      refine .settled ?_ (changesFit_nil _) rfl nofun
      exact (connKept_say _ _).connEffects.trans (ConnEffect.release (w := w.say _) hh).single

theorem holder_of_isHeldBy {l : Lock} (h : l.isHeldBy t = true) : l.holder = some t :=
  beq_iff_eq.1 h

/-- A connect is asked for. -/
theorem connWork_requestConnect (w : Client) (t : TaskId) (target : Target) (ticket : Nat)
    (hp : StageHolds { w with transition := w.transition.request t } t (.queued target ticket)) :
    ConnWork t w skip kept (w.askChanges t target ticket) (w.requestConnect t target ticket) := by
  unfold requestConnect askChanges
  split
  · exact .settled (connKept_say _ _).connEffects (changesFit_nil _) rfl nofun
  · dsimp only
    split
    · rename_i hh
      have hk := holder_of_isHeldBy hh
      exact (connWork_beginConnect ticket target hk (hp hk)).behind ConnEffect.request.single
    · exact (connWork_enlist _).behind ConnEffect.request.single

/-- The backend answered a disconnect. Either answer settles the state, in disconnected or in an
error, and gives the connection back. -/
theorem connWork_hungUp (a : Except BackendError Unit) (hh : w.transition.holder = some t)
    (hs : w.session.state = .disconnecting) :
    ConnWork t w skip kept (w.hungUpChanges t a) (w.hungUp a) := by
  -- down or an error: either settles the state, and there is no tunnel
  have ht : ChangesFit (w.hungUpChanges t a) (w.hungUp a).2 :=
    (settle_hungUpChanges w t a).changesFit (not_up_hungUpChanges w t a)
  cases a with
  | ok _ =>
    have hf : ConnEffect t w (w.changeTo t .disconnected) _ :=
      .settle (f := (·.close)) (fun _ => rfl) hh rfl
        ((congrArg (ConnectionState.leads · .disconnected) hs).trans rfl)
    have hh' : ((w.update (·.close)).say .disconnected).transition.holder = some t :=
      (congrArg Lock.holder (transition_update w _)).trans hh
    refine .settled ?_ ht rfl nofun
    exact hf.single.quietly ((connKept_say _ _).connEffects.trans (ConnEffect.release hh').single)
  | error e =>
    have hf : ConnEffect t (w.say (.disconnectFailed e)) (w.changeTo t .error) _ :=
      .settle (f := (·.fault)) (fun _ => rfl) hh rfl
        ((congrArg (ConnectionState.leads · .error) hs).trans rfl)
    have hh' : ((w.say (.disconnectFailed e)).update (·.fault)).transition.holder = some t := by
      rw [transition_update]
      exact hh
    refine .settled ?_ ht rfl nofun
    exact (connKept_say _ _).connEffects.trans (hf.single.quietly (ConnEffect.release hh').single)

/-- A disconnect holds the connection. It departs from whatever state there is, and with the poller
stopped and the tunnel's flag lowered it calls the backend. -/
theorem connWork_beginDisconnect (hh : w.transition.holder = some t) :
    ConnWork t w skip kept (w.hangUpChanges t) (w.beginDisconnect t) := by
  unfold beginDisconnect hangUpChanges
  dsimp only
  -- the client when the old connection is left behind and the backend was not called yet
  generalize hu : ((w.say _).update _).stopPolling.lowerTunnel = u
  have hd : ConnEffects t w (w.changeTo t .disconnecting) u := by
    rw [← hu]
    refine (connKept_say w .disconnecting).connEffects.trans ?_
    exact (ConnEffect.depart (s := .disconnecting) (w := w.say .disconnecting) (fun _ => rfl) hh rfl
      ConnectionState.leads_disconnecting).single.quietly (connKept_lowerTunnel _).connEffects
  have hst : u.session.state = .disconnecting := by
    rw [← hu]
    exact congrArg Session.state ((session_stopPolling _).trans (session_update _ _))
  have hk : u.transition.holder = some t := by
    rw [← hu]
    refine (congrArg Lock.holder ?_).trans hh
    exact (transition_stopPolling _).trans (transition_update _ _)
  have hc := connKept_startCall u t .disconnect
  rcases hr : u.startCall t .disconnect with ⟨v, call | a⟩
  · rw [hr] at hc
    exact (connWork_stay hc rfl).depart hd nofun nofun
  · rw [hr] at hc
    refine ((connWork_hungUp a ?_ ?_).connKept hc).depart hd nofun (settle_hungUpChanges v t a)
    · rw [hc.transition]
      exact hk
    · rw [hc.state, hst]

/-- A disconnect is asked for that cancels nothing by itself. -/
theorem connWork_queueDisconnect (w : Client) (t : TaskId) :
    ConnWork t w skip kept (w.leaveChanges t) (w.queueDisconnect t) := by
  unfold queueDisconnect leaveChanges
  dsimp only
  split
  · rename_i hh
    exact (connWork_beginDisconnect (holder_of_isHeldBy hh)).behind ConnEffect.request.single
  · exact (connWork_stay (.refl _) rfl).behind ConnEffect.request.single

/-- A disconnect is asked for. -/
theorem connWork_requestDisconnect (w : Client) (t : TaskId) :
    ConnWork t w skip kept (w.cancelConnects.leaveChanges t) (w.requestDisconnect t) :=
  (connWork_queueDisconnect w.cancelConnects t).behind ConnEffect.cancel.single

/-- A job begins. -/
theorem connWork_beginJob (w : Client) (t : TaskId) (job : Job)
    (hp : ∀ target, StageHolds { w with transition := w.transition.request t } t
      (.queued target job.ticket)) :
    ConnWork t w skip kept (w.jobChanges t job) (w.beginJob t job) := by
  rcases job with ⟨request, ticket⟩
  cases request with
  | quickConnect => exact connWork_requestConnect w t .best ticket (hp _)
  | connect id => exact connWork_requestConnect w t (.server id) ticket (hp _)
  | disconnect => exact connWork_queueDisconnect w t

/-- A connect that waits for the connection is dropped if its ticket is void, even if it holds the
connection by now; else it begins once it holds the connection. -/
theorem connWork_queued {target : Target} {ticket : Nat}
    (hp : w.StageHolds t (.queued target ticket)) :
    ConnWork t w skip (t ∈ w.cancellable) (w.lifecycleChanges t (.queued target ticket))
      (w.resumeLifecycle t (.queued target ticket)) := by
  unfold resumeLifecycle lifecycleChanges
  dsimp only
  split
  · refine .settled ?_ (changesFit_nil _) rfl nofun
    exact ConnEffect.delist.single.trans
      ((connKept_say _ _).connEffects.trans ConnEffect.withdraw.single)
  · split
    · rename_i hh
      have hk := holder_of_isHeldBy hh
      exact (connWork_beginConnect (w := w.delist t) ticket target hk
        ⟨(hp hk).free, (hp hk).fresh⟩).behind ConnEffect.delist.single
    · exact connWork_wait (.refl _)

/-- A connect that waits for the backend gives its call up if its ticket is void.  It changes no
state then: that is left to the disconnect that made the ticket void. -/
theorem connWork_dialing {ticket : Nat} {call : Call Server}
    (hp : w.StageHolds t (.dialing ticket call)) :
    ConnWork t w skip (t ∈ w.cancellable) (w.lifecycleChanges t (.dialing ticket call))
      (w.resumeLifecycle t (.dialing ticket call)) := by
  obtain ⟨hh, hd⟩ := hp
  unfold resumeLifecycle lifecycleChanges
  dsimp only
  split
  · refine .settled ?_ (changesFit_nil _) rfl nofun
    refine ConnEffect.delist.single.trans
      (ConnEffects.trans (ConnKept.connEffects ?_) (ConnEffect.release ?_).single)
    · exact (connKept_disarm _ _).trans (connKept_say _ _)
    · exact hh
  · have hc := connKept_resumeCall w t call
    rcases hr : w.resumeCall t call with ⟨v, call' | a⟩
    · rw [hr] at hc
      exact connWork_wait hc
    · rw [hr] at hc
      -- waiting for the answer left the connection and the state alone
      refine ((connWork_dialed (w := v.delist t) ticket a ?_ ?_).behind
        ConnEffect.delist.single).connKept hc
      · show v.transition.holder = some t
        rw [hc.transition]
        exact hh
      · show v.session.state.isDialing = true
        rw [hc.state]
        exact hd

/-- A connect that has its tunnel gets its result in any case, but it forgoes the poller if its
ticket is void. -/
theorem connWork_sampling {ticket : Nat} {server : Server} {call : Call Stats}
    (hp : w.StageHolds t (.sampling ticket server call)) (hskip : w.isVoid ticket = true → skip) :
    ConnWork t w skip (t ∈ w.cancellable) (w.lifecycleChanges t (.sampling ticket server call))
      (w.resumeLifecycle t (.sampling ticket server call)) := by
  obtain ⟨hh, hup⟩ := hp
  unfold resumeLifecycle lifecycleChanges
  dsimp only
  split
  · -- the ticket is void: no poller is started
    rename_i hv
    exact ((connWork_finishConnect (w := (w.delist t).disarm t) server hh
      (.inl (hskip hv))).connKept
      (connKept_disarm _ _)).behind ConnEffect.delist.single
  · have hc := connKept_resumeStats w t call
    rcases hr : w.resumeStats t call with ⟨v, call' | looked⟩
    · -- the statistics take longer
      rw [hr] at hc
      exact connWork_wait hc
    · -- they have come, or they have failed, which does not matter
      rw [hr] at hc
      refine ((connWork_sampled (w := v.delist t) server ?_ ?_).behind
        ConnEffect.delist.single).connKept hc
      · show v.transition.holder = some t
        rw [hc.transition]
        exact hh
      · show v.session.state = .connected
        rw [hc.state]
        exact hup

/-- A disconnect that waits for the connection begins once it holds it. -/
theorem connWork_leaving :
    ConnWork t w skip kept (w.lifecycleChanges t .leaving) (w.resumeLifecycle t .leaving) := by
  unfold resumeLifecycle lifecycleChanges
  dsimp only
  split
  · rename_i hh
    exact connWork_beginDisconnect (holder_of_isHeldBy hh)
  · exact connWork_stay (.refl _) rfl

/-- A disconnect that waits for the backend cannot be cancelled. -/
theorem connWork_hangingUp {call : Call Unit} (hp : w.StageHolds t (.hangingUp call)) :
    ConnWork t w skip kept (w.lifecycleChanges t (.hangingUp call))
      (w.resumeLifecycle t (.hangingUp call)) := by
  obtain ⟨hh, hs⟩ := hp
  unfold resumeLifecycle lifecycleChanges
  dsimp only
  have hc := connKept_resumeCall w t call
  rcases hr : w.resumeCall t call with ⟨v, call' | a⟩
  · -- the answer takes longer
    rw [hr] at hc
    exact connWork_stay hc rfl
  · rw [hr] at hc
    refine (connWork_hungUp a ?_ ?_).connKept hc
    · rw [hc.transition]
      exact hh
    · rw [hc.state]
      exact hs

/-- A connect or a disconnect goes on from where it waits. -/
theorem connWork_resumeLifecycle (w : Client) (t : TaskId) (l : Lifecycle) (hp : w.StageHolds t l) :
    ConnWork t w (∃ ticket server call, l = .sampling ticket server call ∧ w.isVoid ticket = true)
      (t ∈ w.cancellable) (w.lifecycleChanges t l) (w.resumeLifecycle t l) := by
  cases l with
  | queued => exact connWork_queued hp
  | dialing => exact connWork_dialing hp
  | sampling => exact connWork_sampling hp fun hv => ⟨_, _, _, rfl, hv⟩
  | leaving => exact connWork_leaving
  | hangingUp => exact connWork_hangingUp hp

end Lifecycle

end Client

end TunnelSession
