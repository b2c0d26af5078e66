/-
  What happens to a bridge, but for its jobs.

  EVENTS.  From outside, a bridge is told to end, loses its sender or its pages, is looked at or is
  sent a trigger (`Bridge.meets`).  No event from outside happens to two bridges.

  TURNS.  In its turn a receiver takes all that waits, or ends (`Bridge.served`).  The turns of all
  other tasks leave the bridge alone but for its jobs (`Spares`).

  WAKING.  A receiver goes on only if it has nothing left to do, and whatever gives it something to
  do wakes it.
-/
import TunnelSession.Proofs.Dropping
import TunnelSession.Proofs.Rounds
import TunnelSession.Proofs.Sources

namespace TunnelSession

/-- The page that a trigger asks for. -/
def Trigger.page? : Trigger → Option String
  | .navigate path => some path
  | _ => none

/-- An item is taken in, or nothing changes. -/
theorem Channel.offer_cases {α : Type} (c : Channel α) (a : α) :
    (c.closed = false ∧ c.offer a = (.sent, { c with queue := c.queue ++ [a] })) ∨
      (c.offer a).1 ≠ .sent ∧ (c.offer a).2 = c := by
  unfold offer
  split
  · exact .inr ⟨nofun, rfl⟩
  · rename_i hopen
    split
    · exact .inl ⟨Bool.eq_false_iff.2 hopen, rfl⟩
    · exact .inr ⟨nofun, rfl⟩

namespace Bridge

/-- The bridge when an event from outside has happened to it. -/
def meets (r : Bridge) : Event → Bridge
  | .deactivate _ => { r with cancelled := true }
  | .dropSender _ => { r with hasSender := false }
  | .dropPages _ => { r with pages := [], hasPages := false }
  | .takePages _ => { r with pages := [] }
  | .send _ e => { r with triggers := (r.triggers.offer e).2 }
  | _ => r

/-- The triggers that the receiver takes in its next turn. -/
def atHand (r : Bridge) : List Trigger := if r.cancelled then [] else r.triggers.queue

/-- The bridge when its receiver has taken all that waits. -/
def drained (r : Bridge) : Bridge :=
  { r with
    triggers := { r.triggers with queue := [] }
    pages := r.pages ++ if r.hasPages then r.triggers.queue.filterMap Trigger.page? else [] }

/-- The bridge when its receiver has ended. -/
def shut (r : Bridge) : Bridge :=
  { r with triggers := { r.triggers.close with queue := [] }, hasReceiver := false }

/-- The bridge after a turn of its receiver. -/
def served (r : Bridge) : Bridge :=
  if r.cancelled then r.shut else if r.hasSender then r.drained else r.drained.shut

/-- Has the receiver something to do? -/
def Stirs (r : Bridge) : Prop :=
  r.cancelled = true ∨ r.hasSender = false ∨ r.triggers.queue ≠ []

variable {r : Bridge}

/-- A receiver goes on only if it has nothing left to do. -/
theorem not_stirs_served (h : r.served.hasReceiver = true) : ¬ r.served.Stirs := by
  unfold Bridge.served at h ⊢
  split at h
  · cases h
  · rename_i hc
    split at h
    · rename_i hs
      rw [if_neg hc, if_pos hs]
      rintro (hk | hk | hk)
      · exact hc hk
      · exact absurd (hs.symm.trans hk) nofun
      · exact hk rfl
    · cases h

@[simp] theorem meets_receiver (r : Bridge) (e : Event) : (r.meets e).receiver = r.receiver := by
  cases e <;> rfl

@[simp] theorem meets_hasReceiver (r : Bridge) (e : Event) :
    (r.meets e).hasReceiver = r.hasReceiver := by
  cases e <;> rfl

/-- Nobody takes it back that a receiver was told to end. -/
theorem meets_cancelled (hc : r.cancelled = true) (e : Event) : (r.meets e).cancelled = true := by
  cases e with
  | deactivate => rfl
  | _ => exact hc

end Bridge

namespace Client

open TunnelSession.Core

variable {w w' v v' : Client} {t : TaskId} {b c : BridgeId} {ρ : List Record} {r : Bridge}

/-! ## What a turn leaves alone -/

/-- The bridge of a number, but for its jobs. -/
def front? (w : Client) (b : BridgeId) : Option Bridge := (w.bridge? b).map Bridge.front

/-- What a turn leaves alone of the other tasks and of the bridges. -/
structure Spares (t : TaskId) (v v' : Client) : Prop where
  entry : ∀ u, u ≠ t → v'.core.entry u = v.core.entry u
  ready : ∀ u, u ≠ t → u ∈ v.ready → u ∈ v'.ready
  front : (∀ b, v.core.entry t ≠ some (.receiver b)) → ∀ b, v'.front? b = v.front? b

theorem entry_setTask_of_ne (w : Client) {u : TaskId} (k : Task) (h : u ≠ t) :
    (w.setTask t k).core.entry u = w.core.entry u :=
  congrArg (·.bind Task.seen?) (task?_setTask_of_ne w k h)

/-- What is done for the connection leaves the entries of all tasks. -/
theorem Kept.entry (h : Kept w w') (u : TaskId) : w'.core.entry u = w.core.entry u := by
  refine Option.ext fun k => ?_
  constructor
  · intro hu
    have hk := seen?_of_entry hu
    exact entry_of_task? ((h.task u k hk).1 (task?_of_entry hu)) hk
  · intro hu
    have hk := seen?_of_entry hu
    exact entry_of_task? ((h.task u k hk).2 (task?_of_entry hu)) hk

/-- A part of a turn spares the other tasks, and the bridges but for their jobs. -/
theorem TurnPart.spares (hb : TurnPart t v ρ v') : Spares t v v' := by
  refine ⟨?_, ?_, hb.front⟩
  · obtain ⟨w, w', ready, bridges, k, k', rfl, rfl, -, -, -, -, -, hs⟩ := hb.connEffects
    intro u hu
    rw [entry_setTask_of_ne w k hu, entry_setTask_of_ne w' k' hu]
    exact hs.kept.entry u
  · obtain ⟨w, w', ready, bridges, k, k', rfl, rfl, -, -, -, -, hr, hs⟩ := hb.connEffects
    intro u hu hin
    refine hs.kept.ready.subset ?_
    rcases hr with rfl | rfl
    · exact hin
    · exact (List.mem_erase_of_ne hu).2 hin

theorem TurnParts.spares (hb : TurnParts t v ρ v') : Spares t v v' := by
  induction hb with
  | refl => exact ⟨fun _ _ => rfl, fun _ _ h => h, fun _ _ => rfl⟩
  | head h _ ih =>
    refine ⟨fun u hu => (ih.entry u hu).trans (h.spares.entry u hu),
      fun u hu hin => ih.ready u hu (h.spares.ready u hu hin), fun hn b => ?_⟩
    exact (ih.front (fun b hk => hn b (h.steps.receiver hk)) b).trans (h.spares.front hn b)

/-- A turn of a poller leaves the other tasks as they are, with whoever is ready among them, and
takes nothing from a bridge. -/
theorem Watch.spares (hw : Watch t v v') : Spares t v v' := by
  obtain ⟨p, w, k, -, hl, rfl, -⟩ := hw.turn
  refine ⟨fun u hu => ?_, fun u hu hin => ?_, fun _ b => ?_⟩
  · rw [entry_setTask_of_ne w k hu]
    show (w.task? u).bind Task.seen? = _
    rw [task?, hl.tasks]
    rfl
  · exact hl.ready.subset ((List.mem_erase_of_ne hu).2 hin)
  · show (w.bridges[b]?).map Bridge.front = _
    rw [hl.bridges]
    rfl

theorem poll_spares (hw : w.Fit) (t : TaskId) : Spares t w (w.happen (.poll t)) := by
  rcases poll_cases hw t with hb | ⟨-, hwatch⟩
  · exact hb.spares
  · exact hwatch.spares

/-! ## A turn of a receiver -/

/-- To change a bridge changes what it is but for its jobs, if that is not about the jobs. -/
theorem front?_setBridge (w : Client) (b : BridgeId) (f : Bridge → Bridge)
    (hf : ∀ r : Bridge, (f r).front = f r.front) :
    (w.setBridge b f).front? b = (w.front? b).map f := by
  show ((w.bridges.modify b f)[b]?).map Bridge.front = ((w.bridges[b]?).map Bridge.front).map f
  rw [List.getElem?_modify_eq]
  cases w.bridges[b]? with
  | none => rfl
  | some r => exact congrArg some (hf r)

theorem front?_setBridge_of_ne (w : Client) (f : Bridge → Bridge) (h : c ≠ b) :
    (w.setBridge b f).front? c = w.front? c := by
  show ((w.bridges.modify b f)[c]?).map Bridge.front = _
  rw [List.getElem?_modify_ne _ _ fun he => h he.symm]
  rfl

theorem front?_wakeAll (w : Client) (ts : List TaskId) (c : BridgeId) :
    (w.wakeAll ts).front? c = w.front? c := by
  obtain ⟨more, h⟩ := wakeAll_eq w ts
  rw [h]
  rfl

theorem front?_wakeWorker (w : Client) (bridge : Bridge) (c : BridgeId) :
    (w.wakeWorker bridge).front? c = w.front? c := by
  unfold wakeWorker
  split
  · exact front?_wakeAll w [_] c
  · rfl

theorem front?_handOver (w : Client) (b : BridgeId) (bridge : Bridge) (job : Job) (c : BridgeId) :
    (w.handOver b bridge job).front? c = w.front? c := by
  unfold handOver
  rw [front?_wakeWorker]
  by_cases h : c = b
  · subst h
    show ((w.bridges.modify c _)[c]?).map Bridge.front = (w.bridges[c]?).map Bridge.front
    rw [List.getElem?_modify_eq]
    cases w.bridges[c]? <;> rfl
  · exact front?_setBridge_of_ne w _ h

/-- The bridge when a trigger was taken: a page is put aside if somebody looks at pages, and nothing
else changes of what the receiver answers for. -/
theorem front?_receive (w : Client) (b : BridgeId) (bridge : Bridge) (e : Trigger) :
    (w.receive b bridge e).front? b = (w.front? b).map fun r =>
      { r with pages := r.pages ++ if bridge.hasPages then e.page?.toList else [] } := by
  have hnone : ∀ {o : Option Bridge}, o = o.map fun r =>
      { r with pages := r.pages ++ ([] : List String) } := by
    intro o
    cases o with
    | none => rfl
    | some r => exact congrArg (fun p => some { r with pages := p }) (List.append_nil _).symm
  cases e with
  | navigate path =>
    -- a page is put aside, if somebody still looks at pages
    unfold receive
    dsimp only
    split
    · exact front?_setBridge (w.say _) b _ fun _ => rfl
    · exact hnone
  | quickConnect | connect =>
    unfold receive
    dsimp only
    rw [front?_handOver]
    simp only [Trigger.page?, Option.toList_none, ite_self]
    exact hnone
  | disconnect =>
    -- the connects that wait are woken, which is nothing to the bridge
    unfold receive
    dsimp only
    rw [front?_handOver]
    simp only [Trigger.page?, Option.toList_none, ite_self]
    exact (front?_wakeAll _ _ _).trans hnone

theorem front?_receive_of_ne (w : Client) (bridge : Bridge) (e : Trigger) (h : c ≠ b) :
    (w.receive b bridge e).front? c = w.front? c := by
  cases e with
  | navigate path =>
    unfold receive
    dsimp only
    split
    · exact front?_setBridge_of_ne (w.say _) _ h
    · rfl
  | quickConnect | connect => exact front?_handOver _ b bridge _ c
  | disconnect => exact (front?_handOver _ b bridge _ c).trans (front?_wakeAll _ _ c)

/-- The bridge when triggers were taken, one after the other. -/
theorem front?_receiveAll (w : Client) (b : BridgeId) (bridge : Bridge) (es : List Trigger) :
    (es.foldl (fun w e => w.receive b bridge e) w).front? b = (w.front? b).map fun r => { r with
      pages := r.pages ++ if bridge.hasPages then es.filterMap Trigger.page? else [] } := by
  -- one trigger after the other, each behind the pages of those before
  induction es generalizing w with
  | nil =>
    rw [List.foldl_nil, List.filterMap_nil, ite_self]
    cases w.front? b with
    | none => rfl
    | some r => exact congrArg (fun p => some { r with pages := p }) (List.append_nil _).symm
  | cons e es ih =>
    rw [List.foldl_cons, ih, front?_receive, Option.map_map]
    refine congrArg (Option.map · (w.front? b)) (funext fun r => ?_)
    refine congrArg (fun p => ({ r with pages := p } : Bridge)) ?_
    show r.pages ++ _ ++ _ = r.pages ++ _
    rw [List.append_assoc]
    congr 1
    split
    · cases h : e.page? <;> simp [h]
    · rfl

theorem front?_receiveAll_of_ne (w : Client) (bridge : Bridge) (es : List Trigger) (h : c ≠ b) :
    (es.foldl (fun w e => w.receive b bridge e) w).front? c = w.front? c := by
  induction es generalizing w with
  | nil => rfl
  | cons e es ih => rw [List.foldl_cons, ih, front?_receive_of_ne w bridge e h]

theorem front?_endReceiver (w : Client) (t : TaskId) (b : BridgeId) (bridge : Bridge) :
    (w.endReceiver t b bridge).front? b = (w.front? b).map Bridge.shut :=
  (front?_wakeWorker _ bridge b).trans (front?_setBridge w b _ fun _ => rfl)

theorem front?_endReceiver_of_ne (w : Client) (t : TaskId) (bridge : Bridge) (h : c ≠ b) :
    (w.endReceiver t b bridge).front? c = w.front? c :=
  (front?_wakeWorker _ bridge c).trans (front?_setBridge_of_ne w _ h)

/-- A receiver takes all that waits, and ends if it was told to or nobody can send any more. -/
theorem front?_runReceiver (t : TaskId) (h : w.front? b = some r) :
    (w.runReceiver t b).front? b = some r.served := by
  obtain ⟨bridge, hb, rfl⟩ := Option.map_eq_some_iff.1 h
  unfold runReceiver Bridge.served
  rw [hb]
  dsimp only
  show Client.front? (if bridge.cancelled then _ else _) b =
    some (if bridge.cancelled then _ else if bridge.hasSender then _ else _)
  split
  · rw [front?_endReceiver, h]
    rfl
  · -- all that waits is taken, and without a sender that was the last turn
    have hdrained : (bridge.triggers.queue.foldl (fun w e => w.receive b bridge e)
        (w.setBridge b fun r => { r with triggers := { r.triggers with queue := [] } })).front? b =
          some bridge.front.drained := by
      have hempty := front?_setBridge w b
        (fun r => { r with triggers := { r.triggers with queue := [] } }) fun _ => rfl
      rw [front?_receiveAll, hempty, h]
      rfl
    split
    · exact hdrained
    · exact (front?_endReceiver _ t b bridge).trans (congrArg (Option.map Bridge.shut) hdrained)

theorem front?_runReceiver_of_ne (w : Client) (t : TaskId) (h : c ≠ b) :
    (w.runReceiver t b).front? c = w.front? c := by
  unfold runReceiver
  split
  · rfl
  · split
    · exact front?_endReceiver_of_ne w t _ h
    · dsimp only
      split
      · exact (front?_receiveAll_of_ne _ _ _ h).trans (front?_setBridge_of_ne w _ h)
      · exact (front?_endReceiver_of_ne _ t _ h).trans
          ((front?_receiveAll_of_ne _ _ _ h).trans (front?_setBridge_of_ne w _ h))

/-- A turn of the receiver. -/
theorem happen_receive (ht : w.core.entry t = some (.receiver b)) :
    w.happen (.poll t) = ({ w with ready := w.ready.erase t } : Client).runReceiver t b := by
  show ({ w with ready := w.ready.erase t } : Client).run t = _
  unfold run
  rw [show ({ w with ready := w.ready.erase t } : Client).task? t = some (.receiver b) from
    task?_of_entry ht]

/-- What a trigger asks for is written down with the bridge: no task changes. -/
theorem tasks_receive (w : Client) (b : BridgeId) (bridge : Bridge) (e : Trigger) :
    (w.receive b bridge e).tasks = w.tasks := by
  have hwake : ∀ u : Client, (u.wakeWorker bridge).tasks = u.tasks := by
    intro u
    unfold wakeWorker
    split
    · obtain ⟨more, h⟩ := wake_eq u bridge.worker
      rw [h]
    · rfl
  cases e with
  | navigate path =>
    unfold receive
    dsimp only
    split <;> rfl
  | quickConnect | connect => exact hwake _
  | disconnect =>
    refine (hwake _).trans ?_
    show (w.say _).cancelConnects.tasks = w.tasks
    obtain ⟨more, h⟩ := cancelConnects_eq (w.say (.triggered .disconnect))
    rw [h]
    rfl

theorem tasks_receiveAll (w : Client) (b : BridgeId) (bridge : Bridge) (es : List Trigger) :
    (es.foldl (fun w e => w.receive b bridge e) w).tasks = w.tasks := by
  induction es generalizing w with
  | nil => rfl
  | cons e es ih => rw [List.foldl_cons, ih, tasks_receive]

/-- A receiver that ends has ended. -/
theorem entry_endReceiver (b : BridgeId) (bridge : Bridge) (ht : t < w.tasks.length) :
    (w.endReceiver t b bridge).core.entry t = some (.ended .finished) := by
  refine entry_of_task? ?_ rfl
  unfold endReceiver
  have hlt : t < ((w.setBridge b fun r =>
      { r with triggers := { r.triggers.close with queue := [] }, hasReceiver := false }).wakeWorker
        bridge).tasks.length := by
    rw [(connKept_wakeWorker _ bridge).tasks]
    exact ht
  exact (task?_setTask _ _ t hlt).trans (if_pos rfl)

/-- A receiver runs on, or it has ended: the bridge, as its turn leaves it, says which. -/
theorem entry_runReceiver (hb : w.front? b = some r) (ht : w.core.entry t = some (.receiver b))
    (hr : r.hasReceiver = true) :
    (r.served.hasReceiver = true ∧ (w.runReceiver t b).core.entry t = some (.receiver b)) ∨
      r.served.hasReceiver = false ∧
        ∃ how, (w.runReceiver t b).core.entry t = some (.ended how) := by
  obtain ⟨bridge, hbridge, rfl⟩ := Option.map_eq_some_iff.1 hb
  have hlt : t < w.tasks.length := (List.getElem?_eq_some_iff.1 (task?_of_entry ht)).1
  unfold runReceiver
  rw [hbridge]
  dsimp only
  by_cases hc : bridge.cancelled = true
  · rw [show bridge.front.served = bridge.front.shut from if_pos hc, if_pos hc]
    exact .inr ⟨rfl, .finished, entry_endReceiver b bridge hlt⟩
  · -- the client when all that waits was taken
    have htasks := tasks_receiveAll (w.setBridge b fun r =>
      { r with triggers := { r.triggers with queue := [] } }) b bridge bridge.triggers.queue
    rw [if_neg hc]
    -- with a sender left it goes on
    by_cases hs : bridge.hasSender = true
    · rw [show bridge.front.served = bridge.front.drained from (if_neg hc).trans (if_pos hs),
        if_pos hs]
      refine .inl ⟨hr, entry_of_task? ?_ rfl⟩
      rw [task?, htasks]
      exact task?_of_entry ht
    · rw [show bridge.front.served = bridge.front.drained.shut from (if_neg hc).trans (if_neg hs),
        if_neg hs]
      exact .inr ⟨rfl, .finished, entry_endReceiver b bridge
        (Nat.lt_of_lt_of_eq hlt (congrArg List.length htasks).symm)⟩

/-! ## Turns of other tasks -/

/-- A turn of another task leaves the bridge alone but for its jobs. -/
theorem front?_poll (hw : w.Fit) (ht : w.core.entry t ≠ some (.receiver b)) :
    (w.happen (.poll t)).front? b = w.front? b := by
  by_cases hr : ∃ c, w.core.entry t = some (.receiver c)
  · -- the receiver of another bridge
    obtain ⟨c, hr⟩ := hr
    have hne : b ≠ c := by
      rintro rfl
      exact ht hr
    show (({ w with ready := w.ready.erase t } : Client).run t).front? b = _
    unfold run
    rw [show ({ w with ready := w.ready.erase t } : Client).task? t = some (.receiver c) from
      task?_of_entry hr]
    exact front?_runReceiver_of_ne _ t hne
  · exact (poll_spares hw t).front (fun c hc => hr ⟨c, hc⟩) b

/-- The client when a call is there and has not run yet. -/
def called (w : Client) (command : Command) : Client := (w.spawn (.command (.fresh command))).2

/-- A call runs at once. -/
theorem call_turnParts (hw : w.Fit) (command : Command) :
    Outer (.call command) w (w.called command) ∧
      Outside w.core (.call command) (w.called command).core ∧
      (w.called command).core.entry w.tasks.length = some (.command (.fresh command)) ∧
      TurnParts w.tasks.length (w.called command) (w.recordsOf (.call command))
        (w.happen (.call command)) := by
  have hout : Outside w.core (.call command) (w.called command).core := by
    rw [called, core_spawn_call hw.sound command]
    exact .call command
  have hent : (w.called command).core.entry w.tasks.length = some (.command (.fresh command)) := by
    refine entry_of_task? ?_ rfl
    rw [called, task?_spawn, if_pos rfl]
  exact ⟨outer_spawn (.call command) w rfl, hout, hent,
    turnParts_run (w := w.called command) (hw.outside hout) (not_poller_of_entry hent) (.inl rfl)⟩

theorem front?_call (hw : w.Fit) (command : Command) :
    (w.happen (.call command)).front? b = w.front? b := by
  obtain ⟨-, -, hent, hparts⟩ := call_turnParts hw command
  refine hparts.spares.front (fun c hc => ?_) b
  rw [hent] at hc
  cases hc

/-! ## Events from outside -/

/-- The bridges that are there stay when another one is opened. -/
theorem front?_openBridge (hw : w.Fit) (hb : b ≠ w.bridges.length) :
    (w.happen .openBridge).front? b = w.front? b := by
  obtain ⟨capacity, hc⟩ := core_activate w hw.sound
  show (w.activate.2.bridges[b]?).map Bridge.front = (w.bridges[b]?).map Bridge.front
  rw [show w.activate.2.bridges = w.bridges ++ [newBridge capacity w.core.size] from
    congrArg Core.bridges hc]
  by_cases hlt : b < w.bridges.length
  · rw [List.getElem?_append_left hlt]
  · rw [List.getElem?_eq_none, List.getElem?_eq_none (Nat.le_of_not_lt hlt)]
    rw [List.length_append]
    exact Nat.lt_of_le_of_ne (Nat.le_of_not_lt hlt) fun h => hb h.symm

/-- A bridge is changed from outside, and its receiver is woken. -/
def rouse (w : Client) (b : BridgeId) (f : Bridge → Bridge) : Client :=
  match w.bridge? b with
  | some bridge => (w.setBridge b f).wake bridge.receiver
  | none => w

/-- What is roused is changed. -/
theorem front?_rouse (w : Client) (b : BridgeId) (f : Bridge → Bridge)
    (hf : ∀ r : Bridge, (f r).front = f r.front) : (w.rouse b f).front? b = (w.front? b).map f := by
  unfold rouse
  cases h : w.bridge? b with
  | none =>
    show w.front? b = _
    rw [show w.front? b = none by unfold front?; rw [h]; rfl]
    rfl
  | some bridge => exact (front?_wakeAll _ [_] b).trans (front?_setBridge w b f hf)

theorem front?_rouse_of_ne (w : Client) (f : Bridge → Bridge) (h : c ≠ b) :
    (w.rouse b f).front? c = w.front? c := by
  unfold rouse
  split
  · exact (front?_wakeAll _ [_] c).trans (front?_setBridge_of_ne w f h)
  · rfl

theorem mem_ready_rouse (hr : w.front? b = some r)
    (ht : w.core.entry r.receiver = some (.receiver b)) (f : Bridge → Bridge) :
    r.receiver ∈ (w.rouse b f).ready := by
  obtain ⟨bridge, hb, rfl⟩ := Option.map_eq_some_iff.1 hr
  rw [rouse, hb]
  exact mem_ready_wake (w := w.setBridge b f) ht rfl

/-- An offer to a bridge changes it and wakes the receiver, or it changes nothing. -/
theorem offerTrigger_cases (hr : w.front? b = some r) (e : Trigger) :
    (w.offerTrigger b e).1 = (r.triggers.offer e).1 ∧
      ((w.offerTrigger b e).2 = w.rouse b (fun s => { s with triggers := (r.triggers.offer e).2 }) ∨
        (w.offerTrigger b e).2 = w ∧ (r.triggers.offer e).2 = r.triggers) := by
  obtain ⟨bridge, hb, rfl⟩ := Option.map_eq_some_iff.1 hr
  rw [show bridge.front.triggers = bridge.triggers from rfl]
  unfold offerTrigger rouse
  rw [hb]
  dsimp only
  -- the channel takes the trigger in, or is full or closed
  rcases bridge.triggers.offer_cases e with ⟨-, ho⟩ | ⟨hno, hsame⟩
  · rw [ho]
    exact ⟨rfl, .inl rfl⟩
  · rcases ho : bridge.triggers.offer e with ⟨_ | _ | _, triggers⟩
    · rw [ho] at hno
      exact absurd rfl hno
    · rw [ho] at hsame
      exact ⟨rfl, .inr ⟨rfl, hsame⟩⟩
    · rw [ho] at hsame
      exact ⟨rfl, .inr ⟨rfl, hsame⟩⟩

theorem offerTrigger_none (hn : w.front? b = none) (e : Trigger) :
    w.offerTrigger b e = (.closed, w) := by
  rw [offerTrigger, Option.map_eq_none_iff.1 hn]

/-- An event from outside happens to its bridge, which is then what `Bridge.meets` says. -/
theorem front?_meets (w : Client) {e : Event} (he : e.bridge? = some b) :
    (w.happen e).front? b = (w.front? b).map (Bridge.meets · e) := by
  cases e with
  | deactivate | dropSender =>
    cases he
    exact front?_rouse w b _ fun _ => rfl
  | dropPages | takePages =>
    cases he
    exact front?_setBridge w b _ fun _ => rfl
  | send _ e =>
    cases he
    show (w.offerTrigger b e).2.front? b = _
    cases hr : w.front? b with
    | none =>
      rw [offerTrigger_none hr]
      exact hr
    | some r =>
      rcases (offerTrigger_cases hr e).2 with hsent | ⟨hsame, hno⟩
      · rw [hsent]
        have hfront := front?_rouse w b
          (fun s => { s with triggers := (r.triggers.offer e).2 }) fun _ => rfl
        exact hfront.trans (congrArg _ hr)
      · rw [hsame, hr]
        exact congrArg (fun c => some { r with triggers := c }) hno.symm
  | _ => cases he

/-- An event from outside leaves the other bridges alone, and the bridge that is opened is none of
those that are there. -/
theorem front?_still (hw : w.Fit) {e : Event} (he : e.IsQuiet) (hb : e.bridge? ≠ some b)
    (ho : e = .openBridge → b ≠ w.bridges.length) : (w.happen e).front? b = w.front? b := by
  cases e with
  | call | poll => exact he.elim
  | go command => exact front?_wakeAll _ [_] b
  | pass => exact front?_wakeAll _ _ b
  | fail | pin => rfl
  | startPolling period =>
    obtain ⟨more, log, hs⟩ := startPolling_eq w period
    show (w.startPolling period).front? b = _
    rw [hs]
    rfl
  | stopPolling =>
    obtain ⟨more, log, hs⟩ := stopPolling_eq w
    show w.stopPolling.front? b = _
    rw [hs]
    rfl
  | openBridge => exact front?_openBridge hw (ho rfl)
  | deactivate c | dropSender c => exact front?_rouse_of_ne w _ fun h => hb (congrArg some h.symm)
  | dropPages c | takePages c => exact front?_setBridge_of_ne w _ fun h => hb (congrArg some h.symm)
  | send c e =>
    have hne : b ≠ c := fun h => hb (congrArg some h.symm)
    show (w.offerTrigger c e).2.front? b = _
    cases hr : w.front? c with
    | none => rw [offerTrigger_none hr]
    | some r =>
      rcases (offerTrigger_cases hr e).2 with hsent | ⟨hsame, -⟩
      · rw [hsent]
        exact front?_rouse_of_ne w _ hne
      · rw [hsame]

/-- A receiver that gets something to do is woken, or had something to do before. -/
theorem woken_meets (hr : w.front? b = some r)
    (ht : w.core.entry r.receiver = some (.receiver b)) {e : Event} (he : e.bridge? = some b)
    (hs : (r.meets e).Stirs) : r.Stirs ∨ r.receiver ∈ (w.happen e).ready := by
  cases e with
  | deactivate | dropSender =>
    cases he
    exact .inr (mem_ready_rouse hr ht _)
  -- pages are nothing to the receiver
  | dropPages | takePages => exact .inl hs
  | send _ e =>
    cases he
    show _ ∨ r.receiver ∈ (w.offerTrigger b e).2.ready
    rcases (offerTrigger_cases hr e).2 with hsent | ⟨-, hno⟩
    · rw [hsent]
      exact .inr (mem_ready_rouse hr ht _)
    · have hsame : r.meets (.send b e) = r := congrArg (fun c => { r with triggers := c }) hno
      rw [hsame] at hs
      exact .inl hs
  | _ => cases he

end Client

end TunnelSession
