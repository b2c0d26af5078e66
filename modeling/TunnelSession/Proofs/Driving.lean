/-
  The poller follows the connection.

  DRIVING.  A poller drives if it was not told to stop.  At most one does, the one in the slot of
  the client, and only while the state is `connected` (`Driven`): who leaves a connection behind
  tells it to stop, in the very turn, and only who has made a tunnel starts one.  So a poller that
  drives never finds the connection down, and does not end.

  STOPPED.  A poller that was told to stop looks at that first whenever it runs (`Halted`).  So it
  never writes again, whatever it has under way and whatever became of the connection since.

  TENDED.  While the state is `connected`, a poller drives, or the connect that made the tunnel
  still looks at its first statistics, or it was superseded while it did (`Tended`).
-/
import TunnelSession.Proofs.Tunnels

namespace TunnelSession

/-- Did the connect that made the tunnel come to its result only after a disconnect was asked
for? -/
def Leg.Forgone (l : Leg) (post : List Act) : Prop :=
  ∃ a s b m rest, post = a ++ .leave s :: (b ++ .leg m :: rest) ∧ m.source = l.source ∧ m.Arrives

theorem Leg.Forgone.append {l : Leg} {post : List Act} (h : l.Forgone post) (more : List Act) :
    l.Forgone (post ++ more) := by
  obtain ⟨a, s, b, m, rest, rfl, hm⟩ := h
  exact ⟨a, s, b, m, rest ++ more, by simp, hm⟩

/-- A disconnect that was asked for while the connect that made the last tunnel looked at its first
statistics has no result yet. -/
def Overtaken (τ : List Act) : Prop :=
  ∃ pre l a s b m rest, LastTunnel τ pre l (a ++ .leave s :: (b ++ .leg m :: rest)) ∧
    m.source = l.source ∧ m.Arrives ∧ settledBy s τ ≤ madeBy s (pre ++ .leg l :: a)

namespace Client

open TunnelSession.Core

variable {w w' v v' : Client} {t : TaskId} {past ρ : List Record} {σ : List StateChange}

/-- The task is a poller that was not told to stop. -/
def IsDriving (w : Client) (t : TaskId) : Prop :=
  ∃ p, w.task? t = some (.poller p) ∧ p.cancelled = false

/-- Only the poller in the slot drives, and only while the connection is up. -/
structure Driven (w : Client) : Prop where
  slot : ∀ t, w.IsDriving t ↔ w.poller = some t
  up : w.poller ≠ none → w.session.state = .connected
  period : ∀ t p, w.task? t = some (.poller p) → p.period ≠ 0
  config : w.config.telemetryInterval.toNat ≠ 0

/-! ## Who drives -/

/-- Nothing happens to the pollers or to the state. -/
theorem Driven.congr (h : Driven w)
    (ht : ∀ t p, w'.task? t = some (.poller p) ↔ w.task? t = some (.poller p))
    (hp : w'.poller = w.poller) (hs : w'.session.state = w.session.state)
    (hc : w'.config = w.config) : Driven w' where
  slot t := by
    rw [hp, ← h.slot]
    exact exists_congr fun p => and_congr (ht t p) .rfl
  up hn := by
    rw [hs]
    exact h.up (hp ▸ hn)
  period t p hk := h.period t p ((ht t p).1 hk)
  config := by
    rw [hc]
    exact h.config

/-- Whoever is not told to stop stays as it is. -/
theorem getElem?_stopIn_of_ne {old : Option TaskId} {tasks : List Task} {u : TaskId}
    (h : old ≠ some u) : (stopIn old tasks)[u]? = tasks[u]? := by
  cases old with
  | none => rfl
  | some o =>
    show (tasks.modify o stopped)[u]? = _
    rw [List.getElem?_modify]
    cases tasks[u]? with
    | none => rfl
    | some k =>
      show some (if o = u then stopped k else k) = some k
      rw [if_neg fun he => h (congrArg some he)]

/-- A poller keeps its period; the one that was started before does not drive any more. -/
theorem poller_stopIn {old : Option TaskId} {tasks : List Task} {u : TaskId} {q : Poller}
    (h : (stopIn old tasks)[u]? = some (.poller q)) : ∃ p, tasks[u]? = some (.poller p) ∧
      q.period = p.period ∧ (q.cancelled = false → old ≠ some u ∧ p.cancelled = false) := by
  -- the one that was started before is told to stop; any other is as it was
  by_cases ho : old = some u
  · subst ho
    rw [show (stopIn (some u) tasks)[u]? = (tasks.modify u stopped)[u]? from rfl,
      List.getElem?_modify] at h
    cases hk : tasks[u]? with
    | none =>
      rw [hk] at h
      cases h
    | some k =>
      rw [hk] at h
      replace h : some (if u = u then stopped k else k) = some (.poller q) := h
      rw [if_pos rfl] at h
      cases k with
      | poller p =>
        cases h
        exact ⟨p, rfl, rfl, nofun⟩
      | command | receiver | worker | ended => cases h
  · rw [getElem?_stopIn_of_ne ho] at h
    exact ⟨q, h, rfl, fun hc => ⟨ho, hc⟩⟩

/-- The pollers, when one was started. -/
theorem poller_append {tasks : List Task} {p q : Poller} {u : TaskId}
    (h : (tasks ++ [.poller p])[u]? = some (.poller q)) :
    tasks[u]? = some (.poller q) ∨ u = tasks.length ∧ q = p := by
  rw [List.getElem?_append] at h
  split at h
  · exact .inl h
  · rename_i hge
    right
    obtain ⟨hlt, hq⟩ := List.getElem?_eq_some_iff.1 h
    have hu : u - tasks.length = 0 := Nat.lt_one_iff.1 hlt
    refine ⟨Nat.le_antisymm (Nat.sub_eq_zero_iff_le.1 hu) (Nat.le_of_not_lt hge), ?_⟩
    cases List.mem_singleton.1 (hq ▸ List.getElem_mem hlt)
    rfl

/-- Nothing that is done for the connection lets a second poller drive, or one drive while the
connection is not up. -/
theorem Driven.connEffect (h : Driven w) (hs : ConnEffect t w σ w') : Driven w' := by
  cases hs with
  | connKept hl =>
    refine h.congr (fun u p => ?_) hl.poller hl.state hl.config
    rw [task?, task?, hl.tasks]
  | request | enlist | delist => exact h.congr (fun _ _ => .rfl) rfl rfl rfl
  | @depart s f hf hh hs hl =>
    -- who leaves the connection tells the poller to stop
    obtain ⟨more, hu⟩ := update_eq w f
    obtain ⟨rest, log, hstop⟩ := stopPolling_eq (w.update f)
    rw [hstop, hu]
    refine ⟨fun u => ⟨fun hd => ?_, fun hn => by cases hn⟩, fun hn => absurd rfl hn,
      fun u q hq => ?_, h.config⟩
    · obtain ⟨q, hq, hc⟩ := hd
      obtain ⟨p, hp, -, hold⟩ := poller_stopIn hq
      exact absurd ((h.slot u).1 ⟨p, hp, (hold hc).2⟩) (hold hc).1
    · obtain ⟨p, hp, hperiod, -⟩ := poller_stopIn hq
      rw [hperiod]
      exact h.period u p hp
  | @settle s f hf hh hs hl =>
    obtain ⟨more, hu⟩ := update_eq w f
    rw [hu]
    refine ⟨h.slot, fun hn => ?_, h.period, h.config⟩
    -- who settles the state finds that of a request that runs, in which nobody drives
    have hrun := ConnectionState.isTransitioning_of_leads hl hs
    rw [h.up hn] at hrun
    cases hrun
  | polls hh hc =>
    -- a new poller takes the slot, and the one before it is told to stop
    obtain ⟨more, log, hstart⟩ := startPolling_eq w w.config.telemetryInterval.toNat
    have hold : w.poller ≠ some w.tasks.length := by
      intro he
      obtain ⟨p, hp, -⟩ := (h.slot _).2 he
      rw [task?_length] at hp
      cases hp
    rw [hstart]
    refine ⟨fun u => ⟨fun hd => ?_, fun hu => ?_⟩, fun _ => hc, fun u q hq => ?_, h.config⟩
    · obtain ⟨q, hq, hk⟩ := hd
      obtain ⟨p, hp, -, hstop⟩ := poller_stopIn hq
      rcases poller_append hp with hp | ⟨rfl, -⟩
      · exact absurd ((h.slot u).1 ⟨p, hp, (hstop hk).2⟩) (hstop hk).1
      · rfl
    · cases hu
      refine ⟨_, (getElem?_stopIn_of_ne hold).trans List.getElem?_concat_length, rfl⟩
    · obtain ⟨p, hp, hperiod, -⟩ := poller_stopIn hq
      rw [hperiod]
      rcases poller_append hp with hp | ⟨-, rfl⟩
      · exact h.period u p hp
      · exact h.config
  | release =>
    obtain ⟨more, hr⟩ := releaseTransition_eq w
    rw [hr]
    exact h.congr (fun _ _ => .rfl) rfl rfl rfl
  | withdraw =>
    obtain ⟨more, hr⟩ := withdrawTransition_eq w t
    rw [hr]
    exact h.congr (fun _ _ => .rfl) rfl rfl rfl
  | cancel =>
    obtain ⟨more, hc⟩ := cancelConnects_eq w
    rw [hc]
    exact h.congr (fun _ _ => .rfl) rfl rfl rfl

theorem Driven.connEffects (h : Driven w) (hs : ConnEffects t w σ w') : Driven w' := by
  induction hs with
  | refl => exact h
  | head hs _ ih => exact ih (h.connEffect hs)

/-- A task that is no poller is written. -/
theorem poller_setTask {k : Task} (hw : ∀ p, w.task? t ≠ some (.poller p))
    (hk : k.seen? = some k) (u : TaskId) (p : Poller) :
    (w.setTask t k).task? u = some (.poller p) ↔ w.task? u = some (.poller p) := by
  rcases Nat.lt_or_ge t w.tasks.length with hlt | hge
  · rw [task?_setTask w k u hlt]
    split
    · rename_i he
      subst he
      refine ⟨fun h => ?_, fun h => absurd h (hw p)⟩
      cases h
      cases hk
    · exact .rfl
  · rw [setTask_of_none k (List.getElem?_eq_none hge)]

/-- A part of a turn keeps what is known of the pollers: the task that has it is none of them. -/
theorem Driven.turnPart (h : Driven v) (hb : TurnPart t v ρ v') : Driven v' := by
  obtain ⟨w, w', ready, bridges, k, k', rfl, rfl, hw, hw', hk, hk', -, hs⟩ := hb.connEffects
  have hbefore : Driven { w with ready := ready, bridges := bridges } :=
    h.congr (fun u p => (poller_setTask hw hk u p).symm) rfl rfl rfl
  exact (hbefore.connEffects hs).congr (fun u p => poller_setTask hw' hk' u p) rfl rfl rfl

/-- A poller that drives does not end in its turn, since it finds the connection up. The turn of any
other poller leaves it alone. -/
theorem Driven.watch (h : Driven v) (hp : v.published = v.session.state) (hw : Watch t v v') :
    Driven v' := by
  obtain ⟨p, w, k, ht, hl, rfl, hk, -⟩ := hw.turn
  have hlt : t < w.tasks.length := by
    rw [hl.tasks]
    exact (List.getElem?_eq_some_iff.1 ht).1
  have htask : ∀ u, (w.setTask t k).task? u = if u = t then some k else v.task? u := by
    intro u
    rw [task?_setTask w k u hlt, show w.task? u = v.task? u by rw [task?, task?, hl.tasks]]
  -- the poller that has the turn drives after it if it did before
  have hdrives : (w.setTask t k).IsDriving t ↔ v.IsDriving t := by
    unfold IsDriving
    rw [htask, if_pos rfl, ht]
    cases k with
    | poller q =>
      constructor
      · rintro ⟨_, he, hc⟩
        cases he
        exact ⟨p, rfl, hk.1.symm.trans hc⟩
      · rintro ⟨_, he, hc⟩
        cases he
        exact ⟨q, rfl, hk.1.trans hc⟩
    | ended how =>
      -- it ends by its period, by being told to, or on finding the connection down; none can be
      constructor
      · rintro ⟨_, he, _⟩
        cases he
      · rintro ⟨q, he, hc⟩
        cases he
        rcases hk with h0 | hcan | hdown
        · exact absurd h0 (h.period t p ht)
        · rw [hc] at hcan
          cases hcan
        · have hup := h.up (by rw [(h.slot t).1 ⟨p, ht, hc⟩]; exact Option.some_ne_none t)
          rw [(hl.published hp).1, hl.state, show ({ v with ready := v.ready.erase t } :
            Client).session.state = v.session.state from rfl, hup] at hdown
          cases hdown
    | command | receiver | worker => cases hk
  refine ⟨fun u => ?_, fun hn => ?_, fun u q hq => ?_, ?_⟩
  · rw [show (w.setTask t k).poller = v.poller from hl.poller, ← h.slot]
    by_cases hu : u = t
    · rw [hu]
      exact hdrives
    · unfold IsDriving
      rw [htask, if_neg hu]
  · exact hl.state.trans (h.up (by rw [← show w.poller = v.poller from hl.poller]; exact hn))
  · rw [htask] at hq
    split at hq
    · cases hq
      rw [hk.2]
      exact h.period t p ht
    · exact h.period u q hq
  · show w.config.telemetryInterval.toNat ≠ 0
    rw [hl.config]
    exact h.config

/-- What happens from outside starts and stops no poller, except by hand. -/
theorem Driven.outer {e : Event} (h : Driven v) (ho : Outer e v v') (he : ¬ e.Drives) :
    Driven v' := by
  obtain ⟨more, hm, hk⟩ := ho.tasks he
  refine h.congr (fun u p => ?_) (ho.poller he) (congrArg _ ho.session) ho.config
  rw [task?, task?, hm, List.getElem?_append]
  split
  · exact .rfl
  · rename_i hge
    rw [List.getElem?_eq_none (Nat.le_of_not_lt hge)]
    refine ⟨fun hp => ?_, fun hn => by cases hn⟩
    have := hk _ (List.mem_of_getElem? hp)
    cases this

/-! ## Who was told to stop -/

/-- The task is a poller that was told to stop, or has ended. -/
def Halted (w : Client) (t : TaskId) : Prop :=
  (∃ p, w.task? t = some (.poller p) ∧ p.cancelled = true) ∨ ∃ how, w.task? t = some (.ended how)

/-- A poller that was told to stop stays so, whatever is done for the connection: to be told once
more changes nothing, and a new poller is another task. -/
theorem Halted.connEffect {u : TaskId} (h : Halted w u) (hs : ConnEffect t w σ w') :
    Halted w' u := by
  rcases h with ⟨p, hp, hc⟩ | ⟨how, he⟩
  · -- to be told to stop once more changes nothing
    have hstop : ∀ {old : Option TaskId} {tasks : List Task}, tasks[u]? = some (.poller p) →
        ∃ q, (stopIn old tasks)[u]? = some (.poller q) ∧ q.cancelled = true := by
      intro old tasks hk
      by_cases ho : old = some u
      · subst ho
        refine ⟨{ p with cancelled := true }, ?_, rfl⟩
        show (tasks.modify u stopped)[u]? = _
        rw [List.getElem?_modify, hk]
        exact congrArg some (if_pos rfl)
      · exact ⟨p, (getElem?_stopIn_of_ne ho).trans hk, hc⟩
    left
    cases hs with
    | connKept hl => exact ⟨p, by rw [task?, hl.tasks]; exact hp, hc⟩
    | request | enlist | delist => exact ⟨p, hp, hc⟩
    | @depart s f =>
      obtain ⟨more, hu⟩ := update_eq w f
      -- leaving a connection stops whoever is in the slot
      obtain ⟨rest, log, hstopped⟩ := stopPolling_eq (w.update f)
      rw [hstopped, hu]
      exact hstop hp
    | @settle s f =>
      obtain ⟨more, hu⟩ := update_eq w f
      rw [hu]
      exact ⟨p, hp, hc⟩
    | polls =>
      obtain ⟨more, log, hstart⟩ := startPolling_eq w w.config.telemetryInterval.toNat
      rw [hstart]
      -- a new poller is the last task; starting it stops the one before
      refine hstop ?_
      rw [List.getElem?_append_left (List.getElem?_eq_some_iff.1 hp).1]
      exact hp
    | release =>
      obtain ⟨more, hr⟩ := releaseTransition_eq w
      rw [hr]
      exact ⟨p, hp, hc⟩
    | withdraw =>
      obtain ⟨more, hr⟩ := withdrawTransition_eq w t
      rw [hr]
      exact ⟨p, hp, hc⟩
    | cancel =>
      obtain ⟨more, hcan⟩ := cancelConnects_eq w
      rw [hcan]
      exact ⟨p, hp, hc⟩
  · -- who has ended is written no more
    exact .inr ⟨how, (hs.kept.task u _ rfl).2 he⟩

/-- Also through all that is done for the connection in a part of a turn. -/
theorem Halted.connEffects {u : TaskId} (h : Halted w u) (hs : ConnEffects t w σ w') :
    Halted w' u := by
  induction hs with
  | refl => exact h
  | head hs _ ih => exact ih (h.connEffect hs)

/-- A part of a turn of anybody else leaves it so. -/
theorem Halted.turnPart {u : TaskId} (h : Halted v u) (hb : TurnPart t v ρ v') : Halted v' u := by
  by_cases hu : u = t
  · subst hu
    -- it is no poller, so it has ended
    rcases h with ⟨p, hp, -⟩ | ⟨how, he⟩
    · obtain ⟨w, w', ready, bridges, k, k', rfl, -, hw, -, hk, -⟩ := hb.connEffects
      exact absurd ((poller_setTask hw hk u p).1 hp) (hw p)
    · exact .inr ⟨how, task?_of_entry (hb.steps.ended (entry_of_task? he rfl))⟩
  · obtain ⟨w, w', ready, bridges, k, k', rfl, rfl, -, -, -, -, -, hs⟩ := hb.connEffects
    unfold Halted at h ⊢
    rw [task?_setTask_of_ne w k hu] at h
    rw [task?_setTask_of_ne w' k' hu]
    exact Halted.connEffects (w := { w with ready := ready, bridges := bridges }) h hs

/-- In its own turn it stays told to stop, or ends. -/
theorem Halted.watch {u : TaskId} (h : Halted v u) (hw : Watch t v v') : Halted v' u := by
  obtain ⟨p, w, k, ht, hl, rfl, hk, -⟩ := hw.turn
  have htask : w.task? u = v.task? u := by rw [task?, task?, hl.tasks]
  by_cases hu : u = t
  · subst hu
    rw [← htask] at ht
    unfold Halted
    rw [task?_setTask w k u (List.getElem?_eq_some_iff.1 ht).1, if_pos rfl]
    rcases h with ⟨q, hq, hc⟩ | ⟨how, he⟩
    · rw [← htask, ht] at hq
      cases hq
      cases k with
      | poller r => exact .inl ⟨r, rfl, hk.1.trans hc⟩
      | ended how => exact .inr ⟨how, rfl⟩
      | command | receiver | worker => cases hk
    · rw [← htask, ht] at he
      cases he
  · unfold Halted at h ⊢
    rw [task?_setTask_of_ne w k hu, htask]
    exact h

/-- Nothing from outside gives it back its leave to run. -/
theorem Halted.outer {u : TaskId} {e : Event} (h : Halted v u) (ho : Outer e v v')
    (he : ¬ e.Drives) : Halted v' u := by
  obtain ⟨more, hm, -⟩ := ho.tasks he
  have htask : ∀ k, v.task? u = some k → v'.task? u = some k := fun k hk => by
    rw [task?, hm, List.getElem?_append_left (List.getElem?_eq_some_iff.1 hk).1]
    exact hk
  rcases h with ⟨p, hp, hc⟩ | ⟨how, hk⟩
  · exact .inl ⟨p, htask _ hp, hc⟩
  · exact .inr ⟨how, htask _ hk⟩

/-- Who was told to stop writes nothing when it runs. -/
theorem Halted.session_poll (h : Halted w t) : (w.poll t).session = w.session := by
  unfold poll run
  rcases h with ⟨p, hp, hc⟩ | ⟨how, he⟩
  · rw [show ({ w with ready := w.ready.erase t } : Client).task? t = _ from hp]
    dsimp only
    unfold runPoller
    dsimp only
    split <;> rfl
  · rw [show ({ w with ready := w.ready.erase t } : Client).task? t = _ from he]

/-! ## Who tends the connection -/

/-- Who finds the connection up after something was done for it finds it up before, with its poller,
or sees the change to `connected`. -/
theorem ConnEffect.connected (h : ConnEffect t w σ w') (hup : w'.session.state = .connected) :
    (w.session.state = .connected ∧ (w.poller ≠ none → w'.poller ≠ none)) ∨
      ∃ x ∈ σ, x.new = .connected := by
  cases h with
  | connKept h => exact .inl ⟨h.state.symm.trans hup, fun hn => h.poller ▸ hn⟩
  | request | enlist | delist => exact .inl ⟨hup, id⟩
  | @depart s f hf hh hs hl =>
    -- it goes to the state of a request that runs
    rw [session_stopPolling, session_update, hf] at hup
    rw [hup] at hs
    cases hs
  | @settle s f hf hh hs hl =>
    -- it comes from the state of a request that runs, so this is a change
    rw [session_update, hf] at hup
    have hrun := ConnectionState.isTransitioning_of_leads hl hs
    right
    refine ⟨⟨t, w.transition.holder, w.session.state, s⟩, ?_, hup⟩
    unfold changeTo
    rw [if_neg fun he => ?_]
    · exact .head _
    · rw [he, hs] at hrun
      cases hrun
  | polls hh hc =>
    refine .inl ⟨hc, fun _ => ?_⟩
    rw [poller_startPolling]
    exact Option.some_ne_none _
  | release =>
    obtain ⟨more, hr⟩ := releaseTransition_eq w
    rw [hr] at hup ⊢
    exact .inl ⟨hup, id⟩
  | withdraw =>
    obtain ⟨more, hr⟩ := withdrawTransition_eq w t
    rw [hr] at hup ⊢
    exact .inl ⟨hup, id⟩
  | cancel =>
    obtain ⟨more, hc⟩ := cancelConnects_eq w
    rw [hc] at hup ⊢
    exact .inl ⟨hup, id⟩

/-- Likewise for all that is done in a part of a turn. -/
theorem ConnEffects.connected (h : ConnEffects t w σ w') (hup : w'.session.state = .connected) :
    (w.session.state = .connected ∧ (w.poller ≠ none → w'.poller ≠ none)) ∨
      ∃ x ∈ σ, x.new = .connected := by
  induction h with
  | refl => exact .inl ⟨hup, id⟩
  | head h _ ih =>
    rcases ih hup with ⟨hs, hp⟩ | ⟨x, hx, hn⟩
    · rcases h.connected hs with ⟨hs', hp'⟩ | ⟨x, hx, hn⟩
      · exact .inl ⟨hs', hp ∘ hp'⟩
      · exact .inr ⟨x, List.mem_append_left _ hx, hn⟩
    · exact .inr ⟨x, List.mem_append_right _ hx, hn⟩

/-- A part of a turn that ends in `connected` starts there and does not take the poller away, or one
of its changes leads there. -/
theorem TurnPart.connected (hb : TurnPart t v ρ v') (hup : v'.session.state = .connected) :
    (v.session.state = .connected ∧ (v.poller ≠ none → v'.poller ≠ none)) ∨
      ∃ x ∈ ρ, ∃ s ∈ x.changes, s.new = .connected := by
  obtain ⟨w, w', ready, bridges, k, k', rfl, rfl, -, -, -, -, -, hs⟩ := hb.connEffects
  refine (hs.connected hup).imp_right fun ⟨s, hs, hn⟩ => ?_
  obtain ⟨x, hx, hsx⟩ := List.mem_flatMap.1 hs
  exact ⟨x, hx, s, hsx, hn⟩

/-- While the connection is up, the poller is there, or the connect that made the tunnel still looks
at its first statistics, or it was superseded while it did. -/
def Tended (past : List Record) (v : Client) : Prop :=
  v.session.state = .connected → ∃ pre l post, LiveTunnel (past.map Record.act) pre l post ∧
    (v.poller ≠ none ∨ (∃ u ticket server call, v.stage u = some (.sampling ticket server call)) ∨
      l.Forgone post)

/-- Nothing is done for the connection. -/
theorem Tended.silent (h : Tended past v) (hs : v'.session.state = v.session.state)
    (hp : v'.poller = v.poller) (hst : ∀ u l, v.stage u = some l → v'.stage u = some l) :
    Tended past v' := by
  intro hup
  obtain ⟨pre, l, post, hl, htend⟩ := h (hs.symm.trans hup)
  refine ⟨pre, l, post, hl, ?_⟩
  rw [hp]
  rcases htend with hn | ⟨u, ticket, server, call, hu⟩ | hf
  · exact .inl hn
  · exact .inr (.inl ⟨u, ticket, server, call, hst u _ hu⟩)
  · exact .inr (.inr hf)

/-- A turn of a poller keeps the connection tended: it neither is at a stage of a request nor takes
the slot. -/
theorem Tended.watch (h : Tended past v) (hw : Watch t v v') : Tended past v' := by
  obtain ⟨p, w, k, ht, hl, rfl, -⟩ := hw.turn
  refine h.silent hl.state hl.poller fun u l hu => ?_
  obtain ⟨task, htask, hk⟩ := Option.bind_eq_some_iff.1 hu
  have hne : u ≠ t := by
    rintro rfl
    rw [ht] at htask
    cases htask
    cases hk
  unfold Client.stage
  rw [task?_setTask_of_ne w k hne, task?, hl.tasks]
  exact hu

theorem Tended.outer {e : Event} (h : Tended past v) (ho : Outer e v v') (he : ¬ e.Drives) :
    Tended past v' := by
  refine h.silent (congrArg _ ho.session) (ho.poller he) fun u l hu => ?_
  obtain ⟨task, htask, hk⟩ := Option.bind_eq_some_iff.1 hu
  exact Option.bind_eq_some_iff.2 ⟨task, ho.task u task (seen?_of_lifecycle? hk) htask, hk⟩

/-- No request is worked on, so the connect that made the tunnel is where it was. -/
theorem Tended.idle (h : Tended past v) (ha : Accounts (past.map Record.act) v.core)
    (hb : TurnPart t v ρ v') (hn : ∀ x ∈ ρ, ∀ l, x.act ≠ .leg l) : Tended (past ++ ρ) v' := by
  intro hup
  have hstays : v.session.state = .connected ∧ (v.poller ≠ none → v'.poller ≠ none) := by
    refine (hb.connected hup).resolve_right fun ⟨x, hx, s, hs, _⟩ => ?_
    rw [(hb.fits x hx).plain (hn x hx)] at hs
    cases hs
  obtain ⟨pre, l, post, hl, htend⟩ := h hstays.1
  have hacts : ∀ m, .leg m ∉ ρ.map Record.act := by
    intro m hm
    obtain ⟨x, hx, he⟩ := List.mem_map.1 hm
    exact hn x hx m he
  rw [List.map_append]
  refine ⟨pre, l, _, hl.requests hacts ha.ledger.settledBy_le, ?_⟩
  -- the poller is there still, or the first look goes on, or it came too late already
  rcases htend with hp | ⟨u, ticket, server, call, hu⟩ | hf
  · exact .inl (hstays.2 hp)
  · have hne : u ≠ t := by
      rintro rfl
      rw [(hb.idle hn).1] at hu
      cases hu
    exact .inr (.inl ⟨u, ticket, server, call, (hb.stage_of_ne hne).trans hu⟩)
  · exact .inr (.inr (hf.append _))

section Work

variable {pre : List Record} {x : Record} {m : Leg} {ticket : Nat} {server : Server}

/-- Work comes last in its part of the turn, behind what is no work. -/
theorem map_act_work (past : List Record) (hm : x.act = .leg m) :
    (past ++ (pre ++ [x])).map Record.act =
      (past.map Record.act ++ pre.map Record.act) ++ [.leg m] := by
  simp [hm]

theorem not_leg_of_forall (hpre : ∀ y ∈ pre, ∀ n, y.act ≠ .leg n) (n : Leg) :
    .leg n ∉ pre.map Record.act := by
  intro hn
  obtain ⟨y, hy, he⟩ := List.mem_map.1 hn
  exact hpre y hy n he

/-- Who waits with a ticket after a part of a turn has a valid one. -/
theorem TurnPart.ticket_valid {τ : List Act} {call : Call Stats}
    (hb : TurnPart t v (pre ++ [x]) v') (ha : Accounts τ v'.core) (hm : x.act = .leg m)
    (hr : m.result = .waiting (.sampling ticket server call)) : leavesIn τ ≤ ticket := by
  have hstage := hb.stage x (List.mem_append_right _ (.head _)) m hm
  rw [hr] at hstage
  rw [← ha.ledger.leaves]
  exact Nat.le_of_not_lt (hb.waits _ hstage).1

/-- Work that makes no tunnel does not bring the connection up, and keeps the poller. -/
theorem TurnPart.connected_of_not_makes (hb : TurnPart t v (pre ++ [x]) v') (hm : x.act = .leg m)
    (hpre : ∀ y ∈ pre, ∀ n, y.act ≠ .leg n) (hmakes : ¬ m.Makes)
    (hup : v'.session.state = .connected) :
    v.session.state = .connected ∧ (v.poller ≠ none → v'.poller ≠ none) := by
  refine (hb.connected hup).resolve_right fun ⟨y, hy, s, hs, hn⟩ => ?_
  rcases List.mem_append.1 hy with hy' | hy'
  · rw [(hb.fits y hy).plain (hpre y hy')] at hs
    cases hs
  · cases List.mem_singleton.1 hy'
    refine hmakes ⟨((hb.fits x hy).changesFit m hm).up s hs hn, fun hd => ?_⟩
    rw [((hb.fits x hy).decided m hm hd).1] at hs
    cases hs

/-- The work makes a tunnel: nobody else could have the connection, so no tunnel stands, and who has
made this one goes on with its first statistics or has started the poller. -/
theorem tended_made (hv : v.Fit) (ha : Accounts (past.map Record.act) v.core)
    (ha' : Accounts ((past ++ (pre ++ [x])).map Record.act) v'.core)
    (hb : TurnPart t v (pre ++ [x]) v') (hm : x.act = .leg m)
    (hpre : ∀ y ∈ pre, ∀ n, y.act ≠ .leg n) (hmakes : m.Makes) :
    Tended (past ++ (pre ++ [x])) v' := by
  intro _
  rw [map_act_work past hm] at ha' ⊢
  have hx : x ∈ pre ++ [x] := List.mem_append_right _ (.head _)
  refine ⟨_, m, [], liveTunnel_made hmakes (fun s ticket server call hs => ?_)
    fun ticket server call => hb.ticket_valid ha' hm, ?_⟩
  · rw [standingOf_append_of_noLeg _ _ _ (not_leg_of_forall hpre)] at hs
    obtain ⟨u, -, hu⟩ := carries_of_standing hv.sound ((ha.ledger.standing s).trans hs)
    -- a connect whose tunnel stands has the connection, so it would be this one
    have hholder := hv.fitting.orderly.active u _ hu trivial
    have hut : t = u := by
      rcases hb.holds x hx m hm hmakes.1 with hfree | ht
      · cases hfree.symm.trans hholder
      · exact Option.some.inj (ht.symm.trans hholder)
    subst hut
    exact hmakes.2 ⟨_, _, _, ((hb.isOn x hx).stage hv.sound hm).symm.trans hu⟩
  · rcases hmakes.1 with ⟨ticket, server, call, hr⟩ | ⟨server, hr⟩
    · exact .inr (.inl ⟨t, ticket, server, call, by rw [hb.stage x hx m hm, hr]; rfl⟩)
    · rcases hb.polling x hx m server hm hr with ⟨ticket, server', call, hk, -⟩ | hp
      · exact absurd ⟨ticket, server', call, hk⟩ hmakes.2
      · exact .inl hp

/-- Who looked at the first statistics of its tunnel still does, or has started the poller, or was
superseded while it looked. -/
theorem tended_of_look {pre' post : List Act} {l : Leg} {call : Call Stats}
    (hv : v.Fit) (ha : Accounts (past.map Record.act) v.core)
    (hl : LiveTunnel (past.map Record.act ++ pre.map Record.act) pre' l post)
    (hb : TurnPart t v (pre ++ [x]) v') (hm : x.act = .leg m)
    (hstart : standingOf m.source (past.map Record.act ++ pre.map Record.act) = m.start)
    (hlook : v.stage t = some (.sampling ticket server call)) :
    v'.poller ≠ none ∨
      (∃ u ticket server call, v'.stage u = some (.sampling ticket server call)) ∨
      l.Forgone (post ++ [.leg m]) := by
  have hx : x ∈ pre ++ [x] := List.mem_append_right _ (.head _)
  have hk := ((hb.isOn x hx).stage hv.sound hm).symm.trans hlook
  have hd : m.Decided := ⟨_, _, _, hk⟩
  rcases ((hb.fits x hx).decided m hm hd).2 with ⟨ticket', server', call', hr⟩ | ⟨server', hr⟩
  · exact .inr (.inl ⟨t, ticket', server', call', by rw [hb.stage x hx m hm, hr]; rfl⟩)
  rcases hb.polling x hx m server' hm hr with ⟨_, _, _, hk', hlt⟩ | hp
  · cases hk.symm.trans hk'
    obtain ⟨hown, hle⟩ := hl.own _ _ _ _ (hstart.trans hk)
    -- its ticket is void, so a disconnect was asked for after the tunnel was made
    have hlt' : ticket < leavesIn (past.map Record.act ++ pre.map Record.act) := by
      rw [leavesIn_append, ← ha.ledger.leaves]
      exact Nat.lt_of_lt_of_le hlt (Nat.le_add_right _ _)
    obtain ⟨a, s, b, hpost⟩ := hl.exists_leave hle hlt'
    refine .inr (.inr ⟨a, s, b, m, [], ?_, hown, hd, by rw [hr]; rfl⟩)
    rw [hpost, List.append_assoc, List.cons_append]
  · exact .inl hp

/-- A request is worked on. Work that makes a tunnel starts the poller itself; all other work that
leaves the connection up is of a request that the tunnel outlived. -/
theorem Tended.work (h : Tended past v) (hv : v.Fit) (ha : Accounts (past.map Record.act) v.core)
    (ha' : Accounts ((past ++ (pre ++ [x])).map Record.act) v'.core)
    (hb : TurnPart t v (pre ++ [x]) v') (hm : x.act = .leg m)
    (hpre : ∀ y ∈ pre, ∀ n, y.act ≠ .leg n) : Tended (past ++ (pre ++ [x])) v' := by
  by_cases hmakes : m.Makes
  · exact tended_made hv ha ha' hb hm hpre hmakes
  intro hup
  rw [map_act_work past hm] at ha' ⊢
  have hfits := ha'.ledger.legs _ m [] rfl
  have hstays := hb.connected_of_not_makes hm hpre hmakes hup
  obtain ⟨pre', l, post, hl, htend⟩ := h hstays.1
  replace hl := hl.requests (not_leg_of_forall hpre) ha.ledger.settledBy_le
  have hdown : m.result.stage? = none →
      (ticketsOf m.source 0 (past.map Record.act ++ pre.map Record.act))[settledBy m.source
        (past.map Record.act ++ pre.map Record.act)]? ≠ some none := by
    intro hr hk
    rcases hb.coreStep with ⟨hnil, -⟩ | hstep
    · cases pre <;> cases hnil
    · exact hstep.down ha (by simp [hm]) hr hk hup
  refine ⟨pre', l, _, hl.leg hmakes hfits.start hdown fun ticket server call hr =>
    Nat.le_trans ((List.sublist_append_left _ [Act.leg m]).countP_le) (hb.ticket_valid ha' hm hr),
      ?_⟩
  -- as when nobody works, unless the work is that of the connect that looks
  rcases htend with hp | ⟨u, ticket, server, call, hu⟩ | hf
  · exact .inl (hstays.2 hp)
  · by_cases hut : u = t
    · subst hut
      exact tended_of_look hv ha hl hb hm hfits.start.symm hu
    · exact .inr (.inl ⟨u, ticket, server, call, (hb.stage_of_ne hut).trans hu⟩)
  · exact .inr (.inr ((hf.append _).append _))

end Work

/-- A part of a turn keeps the connection tended, be there work on a request in it or not. -/
theorem Tended.turnPart (h : Tended past v) (hv : v.Fit)
    (ha : Accounts (past.map Record.act) v.core)
    (ha' : Accounts ((past ++ ρ).map Record.act) v'.core) (hb : TurnPart t v ρ v') :
    Tended (past ++ ρ) v' := by
  rcases hb.shape with hn | ⟨pre, x, m, rfl, hm, hpre⟩
  · exact h.idle ha hb hn
  · exact h.work hv ha ha' hb hm hpre

/-! ## Runs -/

/-- What is known of the pollers. -/
structure Followed (past : List Record) (v : Client) : Prop where
  charted : Charted past v
  driven : Driven v
  tended : Tended past v

/-- Throughout every run, the poller follows the connection. -/
theorem followed_after {config : Config} (hc : config.telemetryInterval.toNat ≠ 0)
    (servers : List Server) (latency : Nat) (version : String) (events : List Event)
    (he : ∀ e ∈ events, ¬ e.Drives) :
    ((fresh config servers latency version).after events).Fit ∧
    Followed ((fresh config servers latency version).records events)
      ((fresh config servers latency version).after events) := by
  refine records_after (I := Followed) (P := fun e => ¬ e.Drives) ?_ ?_ ?_
    (fit_make config servers latency version) [] ?_ events he
  · -- a part of a turn with work for the connection
    intro past t v ρ v' hv h hb
    have hcharted := h.charted.turnPart hv hb
    exact ⟨hcharted, h.driven.turnPart hb,
      h.tended.turnPart hv h.charted.settling.accounts hcharted.settling.accounts hb⟩
  · -- a turn of a poller
    intro past t v v' hv h hw
    exact ⟨h.charted.watch hv hw, h.driven.watch h.charted.published hw, h.tended.watch hw⟩
  · -- what happens from outside, except to the poller by hand
    intro past e v v' hd hv h ho hcore
    exact ⟨h.charted.outer hv ho hcore, h.driven.outer ho hd, h.tended.outer ho hd⟩
  · exact ⟨charted_make config servers latency version,
      ⟨fun t => ⟨fun ⟨_, ht, _⟩ => (nomatch ht), nofun⟩, fun hn => absurd rfl hn,
        fun t p ht => (nomatch ht), hc⟩, nofun⟩

/-- Who was told to stop once never drives again. -/
theorem halted_after (hw : w.Fit) (h : Halted w t) (events : List Event)
    (he : ∀ e ∈ events, ¬ e.Drives) : Halted (w.after events) t :=
  (records_after (I := fun _ v => Halted v t) (P := fun e => ¬ e.Drives)
    (fun _ _ _ _ _ _ h hb => h.turnPart hb) (fun _ _ _ _ _ h hw => h.watch hw)
    (fun _ _ _ _ hd _ h ho _ => h.outer ho hd) hw [] h events he).2

/-- Only a configuration with a period is accepted. -/
theorem create_eq {config : Config} {backend : Backend} {w : Client}
    (h : create config backend = .ok w) :
    w = make config backend ∧ config.telemetryInterval.toNat ≠ 0 := by
  unfold create at h
  cases hv : config.validate with
  | error e =>
    rw [hv] at h
    cases h
  | ok _ =>
    rw [hv] at h
    refine ⟨(Except.ok.inj h).symm, fun h0 => ?_⟩
    have hi : config.telemetryInterval = 0 := UInt64.toNat_inj.1 h0
    unfold Config.validate Config.fault? at hv
    rw [if_pos hi] at hv
    cases hv

end Client

/-- At every point of every run in which nobody starts or stops the poller by hand: at most one
poller was not told to stop, and there is one only while the state is `connected`.  Who was told to
stop never writes again, whatever it has under way and whatever happens.  And while the state is
`connected` and nobody has the connection, a poller runs that was not told to stop, unless a
disconnect that was asked for during the first look at the statistics of this connection has no
result yet. -/
theorem driving_after (config : Config) (servers : List Server) (latency : Nat) (version : String)
    (start : Client) (hs : Client.create config (.make servers latency version) = .ok start)
    (events : List Event) (he : ∀ e ∈ events, ¬ e.Drives) :
    let w := start.after events
    (∀ t u, w.IsDriving t → w.IsDriving u → t = u) ∧
    (∀ t, w.IsDriving t → w.session.state = .connected) ∧
    (∀ t p, w.task? t = some (.poller p) → p.cancelled = true → ∀ more : List Event,
      (∀ e ∈ more, ¬ e.Drives) → ((w.after more).poll t).session = (w.after more).session) ∧
    (w.session.state = .connected → w.transition.isHeld = false →
      (w.isPolling = true ∧ ∃ t, w.IsDriving t) ∨ Overtaken (start.trace events)) := by
  intro w
  obtain ⟨rfl, hc⟩ := Client.create_eq hs
  obtain ⟨hfit, h⟩ := Client.followed_after hc servers latency version events he
  refine ⟨fun t u ht hu => ?_, fun t ht => ?_, fun t p hp hk more hmore => ?_, fun hup hfree => ?_⟩
  · exact Option.some.inj (((h.driven.slot t).1 ht).symm.trans ((h.driven.slot u).1 hu))
  · exact h.driven.up (by rw [(h.driven.slot t).1 ht]; exact Option.some_ne_none t)
  · exact (Client.halted_after hfit (.inl ⟨p, hp, hk⟩) more hmore).session_poll
  · obtain ⟨pre, l, post, hl, htend⟩ := h.tended hup
    rw [Client.records_map_act] at hl
    -- the poller runs, or the first look goes on, or a disconnect overtook the connect
    rcases htend with hp | ⟨u, ticket, server, call, hu⟩ | ⟨a, s, b, m, rest, rfl, hsrc, hm⟩
    · left
      obtain ⟨t, ht⟩ := Option.ne_none_iff_exists'.1 hp
      obtain ⟨p, hk, hcan⟩ := (h.driven.slot t).2 ht
      refine ⟨?_, t, p, hk, hcan⟩
      show w.poller.any _ = true
      rw [show w.poller = some t from ht]
      show (!w.hasEnded t) = true
      unfold Client.hasEnded
      rw [show w.task? t = some (.poller p) from hk]
      rfl
    · -- who looks at the first statistics has the connection
      have hh : w.transition.holder = some u := hfit.fitting.orderly.active u _ hu trivial
      rw [Lock.isHeld, hh] at hfree
      cases hfree
    · exact .inr ⟨pre, l, a, s, b, m, rest, hl.toLastTunnel, hsrc, hm,
        hl.undone a s _ rfl⟩

/-- A disconnect that a trigger asks for while the connect looks at its first statistics: the
connect is through and has started no poller, and the worker has not come to the disconnect yet. -/
theorem driving_after_overtaken :
    let start := Client.fresh Config.default [Server.make "x" "" "" "" ""] 5 "1"
    let events : List Event := [.openBridge, .call (.connect "x"), .pass 5, .poll 2,
      .send 0 .disconnect, .poll 1, .poll 2]
    (∀ e ∈ events, ¬ e.Drives) ∧ (start.after events).session.state = .connected ∧
      (start.after events).isPolling = false ∧ Overtaken (start.trace events) := by
  have hd : ∀ e ∈ ([.openBridge, .call (.connect "x"), .pass 5, .poll 2,
      .send 0 .disconnect, .poll 1, .poll 2] : List Event), ¬ e.Drives := by
    simp [Event.Drives]
  refine ⟨hd, rfl, rfl, ?_⟩
  exact ((driving_after Config.default [Server.make "x" "" "" "" ""] 5 "1" _ rfl _ hd).2.2.2 rfl
    rfl).resolve_left fun h => nomatch h.1

end TunnelSession
