/-
  Changes of the settings, turn by turn.

  SERVICE.  A change that has the settings calls the backend when it has a turn, goes on waiting for
  it, or is answered (`Serves`).  Its call asks for what it comes to with the settings as they are,
  so the answer stores and replies what `Write.settle` says.

  TURNS.  A change joins the line in its first turn; a turn of any other task leaves the settings
  alone (`talk_run`), as does what happens outside of turns.  So the list of the changes says how
  they stand throughout every run (`listed_changes`).

  PROGRESS.  The first change that is pending has the settings.  It calls the backend in one turn,
  and is answered in the next when its call is over (`settles_of_first`).
-/
import TunnelSession.Proofs.Changes

namespace TunnelSession

namespace Core

variable {start : Store} {L : List Change} {c c' : Core} {t : TaskId}

/-- Before the first turn there is no change. -/
theorem listed_make (config : Config) (backend : Backend) :
    Listed ⟨config.settings, backend.persisted⟩ [] (Client.make config backend).core where
  wellFormed := Lock.wellFormed_free
  queue := rfl
  nodup := .nil
  ordered := .nil
  listed t p h := by cases h
  store := rfl
  stands := each_nil _

/-- Who has no change under way meets no fate. -/
theorem Listed.mark_eq_self (h : Listed start L c)
    (hn : ∀ p, c.entry t ≠ some (.command (.writing p))) (f : Fate) : mark t f L = L := by
  refine mark_of_none fun ch hm ht hp => ?_
  obtain ⟨p, hent, -⟩ := h.waiting hm hp
  exact hn p (ht ▸ hent)

/-- A task that has no change under way ends. -/
theorem calm_end (hn : ∀ p, c.entry t ≠ some (.command (.writing p))) (how : Ending) :
    Scene.Calm c.scene (c.write t (.ended how)).scene := by
  refine ⟨rfl, rfl, rfl, fun u p => ?_⟩
  rw [changing_writing, changing_writing]
  by_cases hu : u = t
  · subst hu
    rw [show (c.write u (.ended how)).entry u = _ from Function.update_self _ _ _]
    exact ⟨nofun, fun he => absurd he (hn p)⟩
  · rw [show (c.write t (.ended how)).entry u = _ from Function.update_of_ne hu _ _]

/-- Nothing that happens outside of turns matters. -/
theorem Listed.outside {e : Event} (h : Listed start L c) (hc : c.Sound) (ho : Outside c e c') :
    Listed start L c' :=
  h.calm (Client.nudge_outside hc ho).calm fun _ _ => ho.ended hc

end Core

namespace Client

open TunnelSession.Core

variable {start : Store} {L : List Change} {w v : Client} {t : TaskId} {c : Core} {x : Write}
  {ch : Change} {b : Backend}

/-! ## Service -/

/-- A change that has the settings waits for what it comes to, or came to it. -/
def Serves (c : Core) (x : Write) : Client × Progress Writing Reply → Prop
  | (v, .waiting p) => p.Asks x c.session.settings ∧ v.core.store = c.store ∧
    v.core.writes = c.writes
  | (v, .done reply) => reply = (x.settle c.backend c.store).1 ∧
    v.core.store = (x.settle c.backend c.store).2 ∧ v.core.writes = c.writes.release

theorem settle_failed {s : Store} {e : BackendError} {rest : List BackendError}
    (h : b.failures.get x.operation = e :: rest) :
    x.settle b s = (.failed (.backend e), s) := by
  unfold Write.settle
  rw [h]

/-- The backend answers a patch. -/
theorem serves_saved {p : Patch} {a : Except BackendError Unit}
    (ha : c.backend.answer c.now (.save (p.apply c.session.settings)) = (a, b))
    (hv : v.core = { c with backend := b }) :
    Serves c (.patch p) (v.saved (p.apply c.session.settings) a) := by
  have hsc := scene_saved v (p.apply c.session.settings) a
  rw [hv] at hsc
  have hstore := congrArg (fun s : Scene => Store.mk s.session.settings s.backend.persisted) hsc
  have hwrites := congrArg Scene.writes hsc
  rcases c.backend.answer_cases c.now _ with ⟨e, rest, hf, he⟩ | ⟨hf, he⟩
  · -- the oldest failure is taken
    rw [he] at ha
    cases ha
    unfold Serves
    rw [settle_failed (x := .patch p) hf]
    exact ⟨rfl, hstore, hwrites⟩
  · -- nothing is scripted, and the backend saves what it is given
    rw [he] at ha
    cases ha
    unfold Serves Write.settle
    rw [show c.backend.failures.get (Write.patch p).operation = [] from hf]
    exact ⟨rfl, hstore, hwrites⟩

/-- The backend answers a toggle. -/
theorem serves_toggled {flag : Flag} {a : Except BackendError Bool}
    (ha : c.backend.answer c.now (.toggle flag !c.session.settings.flag flag) = (a, b))
    (hv : v.core = { c with backend := b }) :
    Serves c (.toggle flag) (v.toggled flag (!c.session.settings.flag flag) a) := by
  have hsc := scene_toggled v flag (!c.session.settings.flag flag) a
  rw [hv] at hsc
  have hstore := congrArg (fun s : Scene => Store.mk s.session.settings s.backend.persisted) hsc
  have hwrites := congrArg Scene.writes hsc
  rcases c.backend.answer_cases c.now _ with ⟨e, rest, hf, he⟩ | ⟨hf, he⟩
  · -- the oldest failure is taken
    rw [he] at ha
    cases ha
    unfold Serves
    rw [settle_failed (x := .toggle flag) hf]
    exact ⟨rfl, hstore, hwrites⟩
  · -- nothing is scripted, and the backend turns the flag, or keeps it where it is pinned
    rw [he] at ha
    cases ha
    unfold Serves Write.settle
    rw [show c.backend.failures.get (Write.toggle flag).operation = [] from hf]
    exact ⟨rfl, hstore, hwrites⟩

/-- A change that gets the settings calls the backend: it waits for the answer with what it asks
for, or takes the answer in at once. -/
theorem serves_beginWrite (w : Client) (t : TaskId) (x : Write) (hp : w.core.backend.Prompt) :
    Serves w.core x (w.beginWrite t x) := by
  cases x with
  | patch p =>
    unfold beginWrite
    dsimp only
    rcases startCall_cases w t (.save (p.apply w.session.settings)) hp with
      ⟨w', h, -, hc⟩ | ⟨w', a, b, h, -, ha, hc⟩
    · -- it waits with what it asks for
      rw [h]
      exact ⟨⟨p, rfl, rfl⟩, by rw [hc]; rfl, by rw [hc]⟩
    · rw [h]
      exact serves_saved (c := { w.core with backend := w.core.backend.count .updateSettings })
        ha hc
  | toggle flag =>
    unfold beginWrite
    dsimp only
    rcases startCall_cases w t (.toggle flag !w.session.settings.flag flag) hp with
      ⟨w', h, -, hc⟩ | ⟨w', a, b, h, -, ha, hc⟩
    · rw [h]
      exact ⟨⟨rfl, rfl⟩, by rw [hc]; rfl, by rw [hc]⟩
    · rw [h]
      exact serves_toggled (c := { w.core with backend := w.core.backend.count flag.operation })
        ha hc

/-- A change that has the settings goes on: from the line it calls the backend, and from a call it
waits on or commits the answer. -/
theorem serves_resumeWrite (hs : w.core.Sound) {p : Writing}
    (ho : w.core.entry t = some (.command (.writing p))) (hh : w.core.writes.holder = some t)
    (hw : p = .queued x ∨ p.Asks x w.core.session.settings) :
    Serves w.core x (w.resumeWrite t p) := by
  have hk : p.Sound := hs.entry t _ ho
  cases p with
  | queued y =>
    -- it was in line and has the settings now
    rcases hw with hw | ha
    · cases hw
      rw [show w.resumeWrite t (.queued x) = w.beginWrite t x from if_pos (isHeldBy_iff.2 hh)]
      exact serves_beginWrite w t x hs.prompt
    · cases ha
  | saving merged call =>
    -- it waits for its answer: nobody has changed the settings meanwhile, so it still asks for what
    -- it comes to
    obtain ⟨p, rfl, rfl⟩ := hw.resolve_left fun hq => by cases hq
    unfold resumeWrite
    dsimp only
    rcases resumeCall_cases w t hk with ⟨w', h, -, hc⟩ | ⟨w', a, b, h, -, ha, hc⟩
    · rw [h]
      exact ⟨⟨p, rfl, rfl⟩, congrArg Core.store hc, congrArg Core.writes hc⟩
    · rw [h]
      exact serves_saved ha hc
  | toggling flag requested call =>
    obtain ⟨rfl, rfl⟩ := hw.resolve_left fun hq => by cases hq
    unfold resumeWrite
    dsimp only
    rcases resumeCall_cases w t hk with ⟨w', h, -, hc⟩ | ⟨w', a, b, h, -, ha, hc⟩
    · rw [h]
      exact ⟨⟨rfl, rfl⟩, congrArg Core.store hc, congrArg Core.writes hc⟩
    · rw [h]
      exact serves_toggled ha hc

/-! ## Turns -/

/-- A change ends its turn with its entry. -/
theorem core_run_write (hs : w.core.Sound) {p : Point} {r : Client × Progress Writing Reply}
    (ho : w.core.entry t = some (.command p)) (hr : w.runPoint t p = asWrite r)
    (hw : Writes w.core r) :
    (w.run t).core.store = r.1.core.store ∧ (w.run t).core.writes = r.1.core.writes ∧
      (w.run t).core.entry = Function.update w.core.entry t (some (pointTask (asWrite r).2)) := by
  have hn := hs.quiet hw.1
  have hent := hw.1.entry_eq
  have hrun : w.run t = r.1.setTask t (pointTask (asWrite r).2) := by
    unfold run
    rw [task?_of_entry ho]
    show w.runCommand t p = _
    rw [runCommand_eq, hr]
    rcases r with ⟨v, p | reply⟩ <;> rfl
  have hseen : (pointTask (asWrite r).2).seen? = some (pointTask (asWrite r).2) := by
    rcases r with ⟨v, p | reply⟩ <;> rfl
  have ho' : r.1.core.entry t = some (.command p) := by rw [hent, ho]
  rw [hrun, core_setTask_write r.1 (hn.lt_size ho') hseen (hn.apart t (by simp [ho'])), ← hent]
  exact ⟨rfl, rfl, rfl⟩

/-- A change that has the settings is served in a turn. -/
theorem listed_serve {r : Client × Progress Writing Reply} {c' : Core} (h : Listed start L c)
    (hm : ch ∈ L) (hp : ch.fate = .pending) (hh : c.writes.holder = some ch.task)
    (hr : Serves c ch.write r) (hs : c'.store = r.1.core.store)
    (hl : c'.writes = r.1.core.writes)
    (he : c'.entry = Function.update c.entry ch.task (some (pointTask (asWrite r).2))) :
    Listed start
      (if (pointTask (asWrite r).2).isEnded then mark ch.task (.settled c.backend) L else L)
      c' := by
  rcases r with ⟨v, p | reply⟩
  · obtain ⟨ha, hstore, hwrites⟩ := hr
    exact h.call hm hp ha hh (hs.trans hstore) (hl.trans hwrites) he
  · obtain ⟨rfl, hstore, hwrites⟩ := hr
    exact h.settle hm hp hh (hs.trans hstore) (hl.trans hwrites) he

/-- A change has its first turn: it joins the line, and is served if nobody is before it. -/
theorem listed_turn_fresh (hs : w.core.Sound) (h : Listed start L w.core)
    (ho : w.core.entry t = some (.command (.fresh (.write x)))) :
    Listed start (w.noteTurn t L) (w.run t).core := by
  obtain ⟨hstore, hwrites, hentry⟩ := core_run_write hs (r := w.requestWrite t x) ho rfl
    (writes_requestWrite w t x hs.prompt)
  have hself := congrFun hentry t
  rw [Function.update_self] at hself
  -- the core when the change is in line
  have hissue : Listed start (L ++ [⟨t, x, .pending⟩])
      (Core.write { w.core with writes := w.core.writes.request t } t
        (.command (.writing (.queued x)))) := h.issue ho rfl rfl rfl
  unfold noteTurn
  rw [task?_of_entry ho]
  dsimp only
  rw [hasEnded_of_entry hself]
  by_cases hh : (w.core.writes.request t).isHeldBy t = true
  · have hr : w.requestWrite t x = { w with writes := w.writes.request t }.beginWrite t x :=
      if_pos hh
    rw [hr] at hstore hwrites hentry ⊢
    refine listed_serve hissue (List.mem_append_right _ List.mem_cons_self) rfl
      (isHeldBy_iff.1 hh) ?_ hstore hwrites ?_
    · exact serves_beginWrite { w with writes := w.writes.request t } t x hs.prompt
    · rw [hentry]
      exact (Function.update_idem _ _ _).symm
  · have hr : w.requestWrite t x =
        ({ w with writes := w.writes.request t }, .waiting (.queued x)) := if_neg hh
    rw [hr] at hstore hwrites hentry ⊢
    exact hissue.congr hstore hwrites hentry

/-- A change that goes on meets its fate in the turn in which its task ends. -/
theorem noteTurn_writing {p : Writing} (ho : w.core.entry t = some (.command (.writing p)))
    (L : List Change) : w.noteTurn t L =
      if (w.run t).hasEnded t then mark t (.settled w.backend) L else L := by
  unfold noteTurn
  rw [task?_of_entry ho]

/-- A change that goes on ends its turn with its entry. -/
theorem core_run_writing (hs : w.core.Sound) {p : Writing}
    (ho : w.core.entry t = some (.command (.writing p))) :
    (w.run t).core.store = (w.resumeWrite t p).1.core.store ∧
      (w.run t).core.writes = (w.resumeWrite t p).1.core.writes ∧
      (w.run t).core.entry = Function.update w.core.entry t
        (some (pointTask (asWrite (w.resumeWrite t p)).2)) :=
  core_run_write hs ho rfl (writes_resumeWrite w t (hs.entry _ _ ho) hs.prompt)

/-- A change goes on. -/
theorem listed_turn_writing (hs : w.core.Sound) (h : Listed start L w.core) {p : Writing}
    (ho : w.core.entry t = some (.command (.writing p))) :
    Listed start (w.noteTurn t L) (w.run t).core := by
  obtain ⟨ch, hm, rfl, hp, hwait⟩ := h.writing ho
  obtain ⟨hstore, hwrites, hentry⟩ := core_run_writing hs ho
  have hself := congrFun hentry ch.task
  rw [Function.update_self] at hself
  rw [noteTurn_writing ho, hasEnded_of_entry hself]
  -- does it have the settings?
  by_cases hh : w.core.writes.holder = some ch.task
  · exact listed_serve h hm hp hh (serves_resumeWrite hs ho hh (hwait.imp id And.left)) hstore
      hwrites hentry
  · -- it waits in line
    obtain rfl := hwait.resolve_right fun hw => hh hw.2
    have hr : w.resumeWrite ch.task (.queued ch.write) = (w, .waiting (.queued ch.write)) :=
      if_neg fun hheld => hh (isHeldBy_iff.1 hheld)
    rw [hr] at hstore hwrites hentry ⊢
    refine h.congr hstore hwrites (hentry.trans ?_)
    exact Function.update_eq_self_iff.2 ho.symm

/-- A turn of anybody else adds nothing to the list. -/
theorem noteTurn_other (h : Listed start L w.core) (hn : w.core.scene.changing t = none) :
    w.noteTurn t L = L := by
  have hfresh : ∀ x, w.task? t ≠ some (.command (.fresh (.write x))) := by
    intro x hx
    have hk : w.core.scene.changing t = some (.fresh (.write x)) := by
      show (w.core.entry t).bind Task.change? = _
      rw [entry_of_task? hx rfl]
      rfl
    rw [hn] at hk
    cases hk
  have hwriting : ∀ p, w.core.entry t ≠ some (.command (.writing p)) := by
    intro p hp
    rw [← changing_writing, hn] at hp
    cases hp
  unfold noteTurn
  split
  · rename_i x hx
    exact absurd hx (hfresh x)
  · dsimp only
    rw [h.mark_eq_self hwriting, ite_self]

/-- A turn of anybody else leaves the settings alone. -/
theorem listed_turn_other (hs : w.core.Sound) (hm : w.core.Mirrors) (h : Listed start L w.core)
    (hn : w.core.scene.changing t = none) : Listed start (w.noteTurn t L) (w.run t).core := by
  have ht := talk_run hs hm t
  rw [hn] at ht
  rw [noteTurn_other h hn]
  exact h.calm ht.sameSettings.calm fun u how => (steps_run hs t).ended

/-- Every turn keeps the list. -/
theorem listed_turn (hs : w.core.Sound) (hm : w.core.Mirrors) (h : Listed start L w.core)
    (t : TaskId) : Listed start (w.noteTurn t L) (w.run t).core := by
  -- the scene knows whether the task makes a change
  cases hk : w.core.scene.changing t with
  | none => exact listed_turn_other hs hm h hk
  | some q =>
    obtain ⟨task, ho, hc⟩ := Option.bind_eq_some_iff.1 hk
    cases task with
    | command p =>
      cases p with
      | fresh command =>
        cases command with
        | write x => exact listed_turn_fresh hs h ho
        | _ => cases hc
      | writing p => exact listed_turn_writing hs h ho
      | _ => cases hc
    | _ => cases hc

/-- A command that is dropped gives up its change, if it makes one. A call that was on its way is
dropped with it, and changes nothing at the backend. -/
theorem listed_abort (hs : w.core.Sound) (hm : w.core.Mirrors) (h : Listed start L w.core)
    (t : TaskId) : Listed start (mark t .dropped L) (w.abort t).core := by
  rcases core_abort hs hm.orderly t with ⟨hc, hn⟩ | hd
  · rw [hc, h.mark_eq_self fun p => hn (.writing p)]
    exact h
  · have hended : ∀ u how, w.core.entry u = some (.ended how) →
        (w.abort t).core.entry u = some (.ended how) := fun u how => hd.ended hs
    generalize (w.abort t).core = c' at hd hended
    cases hd with
    | @lifecycle l hst =>
      -- a connect or a disconnect is no change
      have hn : ∀ p, w.core.entry t ≠ some (.command (.writing p)) := by
        intro p hp
        rw [hs.stage_of_entry hp] at hst
        cases hst
      rw [h.mark_eq_self hn]
      exact h.calm (calm_end hn .aborted) hended
    | @change p l ho hl =>
      -- a change in line leaves it; one that has called the backend gives the settings back
      obtain ⟨ch, hmem, rfl, hp, -⟩ := h.writing ho
      refine h.giveUp hmem hp rfl ?_ rfl
      rcases hl with rfl | ⟨hcalled, rfl⟩
      · rfl
      · exact (Lock.withdraw_of_holder (h.holder_of_isCalled ho hcalled)).symm
    | other ho hk hw =>
      have hn : ∀ p, w.core.entry t ≠ some (.command (.writing p)) := by
        intro p hp
        rw [ho] at hp
        cases hp
        exact hw p rfl
      rw [h.mark_eq_self hn]
      exact h.calm (calm_end hn .aborted) hended

/-- An event that gives nobody a turn keeps the list. -/
theorem listed_quiet (hs : w.core.Sound) (h : Listed start L w.core) {e : Event} (he : e.IsQuiet) :
    Listed start L (w.happen e).core := by
  rcases outside_happen hs he with hc | ho
  · rw [hc]
    exact h
  · exact h.outside hs ho

/-- Every deed keeps the list. -/
theorem listed_does (hs : w.core.Sound) (hm : w.core.Mirrors) (h : Listed start L w.core)
    (d : Deed) : Listed start (w.note L d) (w.does d).core := by
  cases d with
  | event e =>
    cases e with
    | call command =>
      -- the command is there first, and has its turn then
      have hc := core_spawn_call hs command
      have hs' := hs.spawnCall command
      have hm' : (w.core.spawnCall command).Mirrors :=
        linkInvariant_mirrors.same (Outside.call command).sameLink hm
      have h' := h.outside hs (.call command)
      rw [← hc] at hs' hm' h'
      exact listed_turn hs' hm' h' _
    | poll t => exact listed_turn (w := { w with ready := w.ready.erase t }) hs hm h t
    | _ => exact listed_quiet hs h trivial
  | drop t => exact listed_abort hs hm h t

/-- Every run keeps the list. -/
theorem listed_changes (hs : w.core.Sound) (hm : w.core.Mirrors) (h : Listed start L w.core)
    (deeds : List Deed) : (w.doing deeds).core.Sound ∧ (w.doing deeds).core.Mirrors ∧
      Listed start (w.changes L deeds) (w.doing deeds).core := by
  induction deeds generalizing w L with
  | nil => exact ⟨hs, hm, h⟩
  | cons d deeds ih =>
    obtain ⟨hs', hm'⟩ := kept_does hs hm d
    exact ih hs' hm' (listed_does hs hm h d)

/-! ## Progress -/

/-- Who has the settings is answered in a turn, or has called the backend after it. -/
theorem ended_or_called (hs : w.core.Sound) {p : Writing}
    (ho : w.core.entry t = some (.command (.writing p))) (hh : w.core.writes.holder = some t)
    (hw : p = .queued x ∨ p.Asks x w.core.session.settings) :
    (w.run t).hasEnded t = true ∨
      ∃ q, (w.run t).core.entry t = some (.command (.writing q)) ∧ q.IsCalled := by
  have hserves := serves_resumeWrite hs ho hh hw
  have hentry := congrFun (core_run_writing hs ho).2.2 t
  rw [Function.update_self] at hentry
  rcases hr : w.resumeWrite t p with ⟨v, q | reply⟩
  · rw [hr] at hserves hentry
    have ha : q.Asks x w.core.session.settings := hserves.1
    exact .inr ⟨q, hentry, ha.isCalled⟩
  · rw [hr] at hentry
    exact .inl (hasEnded_of_entry hentry)

/-- A call of which nothing is left is answered. -/
theorem resumeCall_done {α : Type} {call : Call α} {ask : Ask α} (hk : call.Runs ask)
    (hr : call.rest w.now = 0) : ∃ w' a, w.resumeCall t call = (w', .done a) := by
  obtain ⟨due, rfl⟩ := hk
  have hdue : due - w.now + 0 = 0 := hr
  rcases resumeCall_cases w t ⟨due, rfl⟩ with ⟨w', h, hlt, -⟩ | ⟨w', a, b, h, -⟩
  · have hlt' : w.now < due := hlt
    omega
  · exact ⟨w', a, h⟩

/-- Who has called the backend is answered when nothing is left of its call. -/
theorem ended_of_rest (hs : w.core.Sound) {p : Writing}
    (ho : w.core.entry t = some (.command (.writing p))) (hc : p.IsCalled)
    (hr : p.rest w.now = 0) : (w.run t).hasEnded t = true := by
  have hk : p.Sound := hs.entry t _ ho
  have hentry := congrFun (core_run_writing hs ho).2.2 t
  rw [Function.update_self] at hentry
  rw [hasEnded_of_entry hentry]
  cases p with
  -- who is in line has called nobody
  | queued y => cases hc
  | saving merged call =>
    obtain ⟨w', a, h⟩ := resumeCall_done (w := w) (t := t) hk hr
    unfold resumeWrite
    dsimp only
    rw [h]
    cases a <;> rfl
  | toggling flag requested call =>
    obtain ⟨w', a, h⟩ := resumeCall_done (w := w) (t := t) hk hr
    unfold resumeWrite
    dsimp only
    rw [h]
    cases a <;> rfl

/-- What is left of a call is over when it has passed. -/
theorem rest_add_rest {p : Writing} (hk : p.Sound) (now : Nat) :
    p.rest (now + p.rest now) = 0 := by
  cases p with
  | queued y => rfl
  | saving merged call | toggling flag requested call =>
    obtain ⟨due, rfl⟩ := hk
    show due - (now + (due - now + 0)) + 0 = 0
    omega

theorem note_poll {p : Writing} (ho : w.core.entry t = some (.command (.writing p)))
    (L : List Change) : w.note L (.event (.poll t)) =
      if (w.poll t).hasEnded t then mark t (.settled w.backend) L else L :=
  noteTurn_writing (w := { w with ready := w.ready.erase t }) ho L

/-- The first that is pending is settled when it has a turn, and another when its call is over. It
has the settings already, since nobody pending is before it. -/
theorem settles_of_first (hs : w.core.Sound) (hm : w.core.Mirrors) {A B : List Change}
    (h : Listed start (A ++ ch :: B) w.core) (hp : ch.fate = .pending)
    (hA : ∀ a ∈ A, a.fate ≠ .pending) :
    ∃ ms b, w.changes (A ++ ch :: B)
        [.event (.poll ch.task), .event (.pass ms), .event (.poll ch.task)] =
      A ++ { ch with fate := .settled b } :: B := by
  obtain ⟨p, ho, hwait⟩ := h.waiting (List.mem_append_right _ List.mem_cons_self) hp
  have hfirst := note_poll ho (A ++ ch :: B)
  have hturn : (w.poll ch.task).hasEnded ch.task = true ∨
      ∃ q, (w.poll ch.task).core.entry ch.task = some (.command (.writing q)) ∧ q.IsCalled :=
    ended_or_called (w := { w with ready := w.ready.erase ch.task }) hs ho
      (h.holder_of_first hp hA) (hwait.imp id And.left)
  have hlisted : Listed start _ (w.poll ch.task).core :=
    listed_does hs hm h (.event (.poll ch.task))
  have hs₁ : (w.poll ch.task).core.Sound := sound_after hs [.poll ch.task]
  -- what is noted in the second turn
  have hchanges : ∀ ms, w.changes (A ++ ch :: B)
      [.event (.poll ch.task), .event (.pass ms), .event (.poll ch.task)] =
      ((w.poll ch.task).happen (.pass ms)).note
        (w.note (A ++ ch :: B) (.event (.poll ch.task))) (.event (.poll ch.task)) := fun _ => rfl
  generalize w.poll ch.task = v at hfirst hturn hlisted hs₁ hchanges
  have hpass : ∀ ms, (v.happen (.pass ms)).core = { v.core with now := v.core.now + ms } :=
    fun ms => core_wakeAll _ _
  rcases hturn with he | ⟨q, hq, hc⟩
  · -- it was answered at once, and its task has nothing left to do
    rw [if_pos he, mark_eq h.nodup hp] at hfirst
    rw [hfirst] at hlisted hchanges
    have hlisted' := listed_quiet (e := .pass 0) hs₁ hlisted trivial
    refine ⟨0, w.backend, (hchanges 0).trans ?_⟩
    refine noteTurn_other hlisted' ?_
    show ((v.happen (.pass 0)).core.entry ch.task).bind Task.change? = none
    rw [show (v.happen (.pass 0)).core.entry ch.task = _ from hlisted'.stands A _ B rfl]
    rfl
  · -- it has called the backend, and its call is over when the rest of it has passed
    have hne : v.hasEnded ch.task ≠ true := by
      rw [hasEnded_of_entry hq]
      exact Bool.false_ne_true
    rw [if_neg hne] at hfirst
    rw [hfirst] at hchanges
    have ho₂ : (v.happen (.pass (q.rest v.core.now))).core.entry ch.task =
        some (.command (.writing q)) := by
      rw [hpass]
      exact hq
    have hend : ((v.happen (.pass (q.rest v.core.now))).poll ch.task).hasEnded ch.task = true := by
      refine ended_of_rest (w := { v.happen (.pass (q.rest v.core.now)) with ready := _ })
        (sound_after hs₁ [.pass _]) ho₂ hc ?_
      show q.rest (v.happen (.pass (q.rest v.core.now))).core.now = 0
      rw [hpass]
      exact rest_add_rest (hs₁.entry _ _ hq) _
    refine ⟨q.rest v.core.now, (v.happen (.pass (q.rest v.core.now))).backend, ?_⟩
    rw [hchanges, note_poll ho₂, if_pos hend, mark_eq h.nodup hp]

end Client

/-- The task of a change is where its fate says. -/
theorem Client.shows_of_stands {w : Client} {s : Store} {ch : Change} (h : w.core.Stands s ch) :
    w.Shows s ch := by
  unfold Core.Stands at h
  unfold Shows
  cases hf : ch.fate with
  | pending =>
    rw [hf] at h
    obtain ⟨p, hp, -⟩ := h
    exact ⟨p, task?_of_entry hp⟩
  | settled b | dropped =>
    rw [hf] at h
    exact task?_of_entry h

/-- At any point of any run, with callers that may give up: at most one change of the settings has
called the backend, and what is stored is the fold, in the order of issue, of the changes that were
settled, each by the backend as it was then.  Each of these replied what it comes to at its place in
the fold, and the others still wait or were given up; the first that waits is settled when it has a
turn, and another when its call is over.  Every change that was called is listed, once, behind those
that were issued before it. -/
theorem settings_after (config : Config) (servers : List Server) (latency : Nat) (version : String)
    (deeds : List Deed) :
    let start := Client.fresh config servers latency version
    let w := start.doing deeds
    let changes := start.changes [] deeds
    let initial : Store := ⟨config.settings, none⟩
    (∀ t u p q, w.task? t = some (.command (.writing p)) →
      w.task? u = some (.command (.writing q)) → p.IsCalled → q.IsCalled → t = u) ∧
    w.store = replay initial changes ∧
    (∀ A ch B, changes = A ++ ch :: B → w.Shows (replay initial A) ch) ∧
    (∀ A ch B, changes = A ++ ch :: B → ch.fate = .pending → (∀ a ∈ A, a.fate ≠ .pending) →
      ∃ ms b, start.changes [] (deeds ++
          [.event (.poll ch.task), .event (.pass ms), .event (.poll ch.task)]) =
        A ++ { ch with fate := .settled b } :: B) ∧
    (changes.map Change.task).Nodup ∧
    (∀ pre x post, deeds = pre ++ .event (.call (.write x)) :: post →
      (start.changes [] pre).map Change.issue ++ [((start.doing pre).tasks.length, x)] <+:
        changes.map Change.issue) := by
  intro start w changes initial
  have hb := Backend.prompt_make servers latency version
  obtain ⟨hs, hm, h⟩ : w.core.Sound ∧ w.core.Mirrors ∧ Core.Listed initial changes w.core :=
    Client.listed_changes (Client.sound_make config hb) (Core.mirrors_make config _)
      (Core.listed_make config _) deeds
  -- one call at a time; what is stored; the replies; progress; no task twice; the order of issue
  refine ⟨?_, h.store, ?_, ?_, h.nodup, ?_⟩
  · -- who has called the backend has the settings, and one task has them
    intro t u p q ht hu hp hq
    have hht := h.holder_of_isCalled (Client.entry_of_task? ht rfl) hp
    have hhu := h.holder_of_isCalled (Client.entry_of_task? hu rfl) hq
    exact Option.some.inj (hht.symm.trans hhu)
  · exact fun A ch B hL => Client.shows_of_stands (h.stands A ch B hL)
  · intro A ch B hL hp hA
    rw [hL] at h
    obtain ⟨ms, b, hb⟩ := Client.settles_of_first hs hm h hp hA
    refine ⟨ms, b, ?_⟩
    rw [Client.changes_append, show start.changes [] deeds = _ from hL]
    exact hb
  · rintro pre x post rfl
    exact Client.issue_call start [] pre x post

/-- A patch; a toggle that is kept at its value; one that is dropped in line; one that fails. -/
theorem settings_after_interleaved :
    let start := Client.fresh Config.default [] 5 "1"
    let deeds : List Deed := [
      .event (.call (.write (.patch { Patch.empty with autoConnect := some true }))),
      .event (.call (.write (.toggle .killSwitch))), .event (.call (.write (.toggle .killSwitch))),
      .event (.call (.write (.toggle .autoConnect))), .event (.call .fetchStats),
      .event (.pin .toggleKillSwitch false), .event (.fail .toggleAutoConnect (.rejected "no")),
      .event (.pass 5), .event (.poll 0), .event (.poll 1), .drop 2, .event (.pass 5),
      .event (.poll 1), .event (.poll 3), .event (.pass 5), .event (.poll 3)]
    (start.doing deeds).store =
      ⟨{ Settings.default with autoConnect := true, killSwitch := false },
        some { Settings.default with autoConnect := true }⟩ := by
  have hany : ∀ deeds s,
      replay ⟨Config.default.settings, none⟩
        ((Client.fresh Config.default [] 5 "1").changes [] deeds) = s →
      ((Client.fresh Config.default [] 5 "1").doing deeds).store = s :=
    fun deeds s hs => (settings_after Config.default [] 5 "1" deeds).2.1.trans hs
  exact hany _ _ (by decide +kernel)

end TunnelSession
