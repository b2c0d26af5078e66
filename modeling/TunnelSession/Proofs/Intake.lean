/-
  What the receiver of a bridge takes.

  LISTS.  Three lists are read off a run: the triggers that the channel of a bridge accepts, those
  that its receiver takes, and the pages that somebody looks at (`accepted`, `taken`, `seen`).

  CONSERVATION.  What was accepted was taken or waits in the channel, and a page that was taken was
  seen or waits to be (`Bridge.Conserves`).  When the receiver ends, the channel is closed for good.
-/
import TunnelSession.Proofs.Receivers

namespace TunnelSession

namespace Bridge

/-- The trigger that the channel of a bridge accepts. -/
def admits (r : Bridge) : Event → List Trigger
  | .send _ e => if (r.triggers.offer e).1 = .sent then [e] else []
  | _ => []

/-- The pages of a bridge that somebody looks at. -/
def shows (r : Bridge) : Event → List String
  | .takePages _ => r.pages
  | _ => []

/-- What was accepted was taken or waits, and what was taken of pages was seen or waits. -/
structure Conserves (accepted taken : List Trigger) (seen : List String) (r : Bridge) : Prop where
  live : r.hasReceiver = true → r.triggers.closed = false ∧ accepted = taken ++ r.triggers.queue
  /-- Without being told to, a receiver ends when nobody can send and nothing is left. -/
  closed : r.hasReceiver = false → r.triggers.closed = true ∧ r.triggers.queue = [] ∧
    taken <+: accepted ∧ (r.cancelled = false → r.hasSender = false ∧ accepted = taken)
  pages : seen ++ r.pages <+: taken.filterMap Trigger.page?
  all : r.hasPages = true → seen ++ r.pages = taken.filterMap Trigger.page?

variable {accepted taken : List Trigger} {seen : List String} {r : Bridge}

theorem Conserves.isPrefix (h : r.Conserves accepted taken seen) : taken <+: accepted := by
  cases hr : r.hasReceiver with
  | true =>
    rw [(h.live hr).2]
    exact List.prefix_append _ _
  | false => exact (h.closed hr).2.2.1

/-- A receiver that runs has its turn. All that waited is at hand and counts as taken, whether it
runs on or ends; one that was told to end takes nothing. -/
theorem Conserves.served (h : r.Conserves accepted taken seen) (hr : r.hasReceiver = true) :
    r.served.Conserves accepted (taken ++ r.atHand) seen := by
  obtain ⟨hopen, hacc⟩ := h.live hr
  unfold Bridge.served atHand
  by_cases hc : r.cancelled = true
  · rw [if_pos hc, if_pos hc, List.append_nil]
    refine ⟨nofun, fun _ => ⟨rfl, rfl, h.isPrefix, fun hno => ?_⟩, h.pages, h.all⟩
    rw [show r.shut.cancelled = r.cancelled from rfl, hc] at hno
    cases hno
  · rw [if_neg hc, if_neg hc]
    -- all that waited is taken, whether the receiver ends or not
    have hpages : seen ++ r.drained.pages <+:
        (taken ++ r.triggers.queue).filterMap Trigger.page? := by
      rw [List.filterMap_append]
      show seen ++ (r.pages ++ _) <+: _
      rw [← List.append_assoc]
      split
      · rename_i hp
        exact h.all hp ▸ List.prefix_rfl
      · rw [List.append_nil]
        exact h.pages.trans (List.prefix_append _ _)
    have hall : r.drained.hasPages = true → seen ++ r.drained.pages =
        (taken ++ r.triggers.queue).filterMap Trigger.page? := by
      intro hp
      rw [List.filterMap_append, ← h.all hp, List.append_assoc]
      show seen ++ (r.pages ++ if r.hasPages then _ else _) = _
      rw [if_pos (show r.hasPages = true from hp)]
    split
    · exact ⟨fun _ => ⟨hopen, by rw [hacc]; exact (List.append_nil _).symm⟩,
        fun hno => absurd (hr.symm.trans hno) nofun, hpages, hall⟩
    · rename_i hs
      have hend : r.hasSender = false ∧ accepted = taken ++ r.triggers.queue :=
        ⟨Bool.eq_false_iff.2 hs, hacc⟩
      exact ⟨nofun, fun _ => ⟨rfl, rfl, hacc ▸ List.prefix_rfl, fun _ => hend⟩, hpages, hall⟩

/-- What an event from outside does to a bridge loses nothing. The one event that adds to what was
accepted is a trigger for which the channel has room. -/
theorem Conserves.meets (h : r.Conserves accepted taken seen) (e : Event) :
    (r.meets e).Conserves (accepted ++ r.admits e) taken (seen ++ r.shows e) := by
  cases e <;> simp only [Bridge.meets, admits, shows, List.append_nil]
  -- the one event that accepts something, if the channel has room
  case send b e =>
    rcases r.triggers.offer_cases e with ⟨hopen, ho⟩ | ⟨hno, ho⟩
    · rw [ho, if_pos rfl]
      refine ⟨fun hr => ?_, fun hr => ?_, h.pages, h.all⟩
      · obtain ⟨hclosed, hacc⟩ := h.live hr
        exact ⟨hclosed, by rw [hacc, List.append_assoc]⟩
      · exact absurd (hopen.symm.trans (h.closed hr).1) nofun
    · rw [ho, if_neg hno, List.append_nil]
      exact h
  case deactivate =>
    refine ⟨h.live, fun hr => ?_, h.pages, h.all⟩
    obtain ⟨hclosed, hempty, hprefix, -⟩ := h.closed hr
    exact ⟨hclosed, hempty, hprefix, nofun⟩
  case dropSender =>
    refine ⟨h.live, fun hr => ?_, h.pages, h.all⟩
    obtain ⟨hclosed, hempty, hprefix, hall⟩ := h.closed hr
    exact ⟨hclosed, hempty, hprefix, fun hc => ⟨rfl, (hall hc).2⟩⟩
  -- nobody will look at the pages that wait
  case dropPages =>
    refine ⟨h.live, h.closed, ?_, nofun⟩
    rw [List.append_nil]
    exact (List.prefix_append _ _).trans h.pages
  -- the pages that wait are seen
  case takePages =>
    refine ⟨h.live, h.closed, ?_, fun hp => ?_⟩
    · rw [List.append_nil]
      exact h.pages
    · rw [List.append_nil]
      exact h.all hp
  all_goals exact h

end Bridge

namespace Client

open TunnelSession.Core

/-! ## What is read off a run -/

/-- What the events of a run yield, in order. -/
def gather {α : Type} (f : Client → Event → List α) : Client → List Event → List α
  | _, [] => []
  | w, e :: events => f w e ++ gather f (w.happen e) events

theorem gather_append {α : Type} (f : Client → Event → List α) (w : Client)
    (events more : List Event) :
    gather f w (events ++ more) = gather f w events ++ gather f (w.after events) more := by
  induction events generalizing w with
  | nil => rfl
  | cons e events ih => rw [List.cons_append, gather, gather, ih, after_cons, List.append_assoc]

theorem gather_append_of_nil {α : Type} {f : Client → Event → List α} {w : Client}
    {events more : List Event} (h : gather f (w.after events) more = []) :
    gather f w (events ++ more) = gather f w events := by
  rw [gather_append, h, List.append_nil]

/-- The trigger that the channel of a bridge accepts. -/
def accepts (b : BridgeId) (w : Client) : Event → List Trigger
  | .send b' e => if b' = b ∧ (w.offerTrigger b e).1 = .sent then [e] else []
  | _ => []

/-- The triggers that the receiver of a bridge takes in its turn. -/
def takes (b : BridgeId) (w : Client) : Event → List Trigger
  | .poll t =>
    match w.task? t with
    | some (.receiver b') => if b' = b then ((w.bridge? b).map Bridge.atHand).getD [] else []
    | _ => []
  | _ => []

/-- The pages of a bridge that somebody looks at. -/
def sees (b : BridgeId) (w : Client) : Event → List String
  | .takePages b' => if b' = b then (w.takePages b).1 else []
  | _ => []

/-- The triggers that the channel of a bridge accepted. -/
abbrev accepted (b : BridgeId) : Client → List Event → List Trigger := gather (accepts b)

/-- The triggers that the receiver of a bridge took. -/
abbrev taken (b : BridgeId) : Client → List Event → List Trigger := gather (takes b)

/-- The pages of a bridge that somebody looked at. -/
abbrev seen (b : BridgeId) : Client → List Event → List String := gather (sees b)

variable {w w' v : Client} {t : TaskId} {b c : BridgeId} {r bridge : Bridge}

/-- The receiver takes what is at hand. -/
theorem takes_poll (ht : w.core.entry t = some (.receiver b)) (hb : w.bridge? b = some bridge) :
    takes b w (.poll t) = bridge.atHand := by
  show (match w.task? t with | some (.receiver b') => _ | _ => []) = _
  rw [task?_of_entry ht]
  dsimp only
  rw [if_pos rfl, hb]
  rfl

/-- No other task takes anything. -/
theorem takes_poll_of_ne (ht : w.core.entry t ≠ some (.receiver b)) :
    takes b w (.poll t) = [] := by
  show (match w.task? t with | some (.receiver b') => _ | _ => []) = _
  split
  · rename_i b' hk
    refine if_neg ?_
    rintro rfl
    exact ht (entry_of_task? hk rfl)
  · rfl

theorem takes_quiet {e : Event} (he : e.IsQuiet) : takes b w e = [] := by
  cases e with
  | poll => exact he.elim
  | _ => rfl

/-- What is read off an event is what its bridge says. -/
theorem lists_meets (hr : w.front? b = some r) {e : Event} (he : e.bridge? = some b) :
    accepts b w e = r.admits e ∧ sees b w e = r.shows e := by
  cases e with
  | send _ e =>
    cases he
    refine ⟨?_, rfl⟩
    show (if b = b ∧ (w.offerTrigger b e).1 = .sent then [e] else []) = _
    rw [(offerTrigger_cases hr e).1]
    simp only [true_and]
    rfl
  | takePages =>
    cases he
    refine ⟨rfl, ?_⟩
    obtain ⟨bridge, hb, rfl⟩ := Option.map_eq_some_iff.1 hr
    show (if b = b then ((w.bridge? b).map Bridge.pages).getD [] else []) = _
    rw [if_pos rfl, hb]
    rfl
  | _ => exact ⟨rfl, rfl⟩

/-- Nothing is read off an event at another bridge. -/
theorem lists_still {e : Event} (h : e.bridge? = some b → w.front? b = none) :
    accepts b w e = [] ∧ sees b w e = [] := by
  cases e with
  | send c e =>
    refine ⟨if_neg ?_, rfl⟩
    rintro ⟨rfl, hk⟩
    rw [offerTrigger_none (h rfl)] at hk
    cases hk
  | takePages c =>
    refine ⟨rfl, ?_⟩
    show (if c = b then ((w.bridge? b).map Bridge.pages).getD [] else []) = _
    split
    · rename_i hc
      rw [Option.map_eq_none_iff.1 (h (congrArg some hc))]
      rfl
    · rfl
  | _ => exact ⟨rfl, rfl⟩

/-! ## What every event keeps -/

/-- What is known of a bridge and its receiver at every point of a run. -/
structure Intake (b : BridgeId) (accepted taken : List Trigger) (seen : List String)
    (w : Client) : Prop where
  absent : w.front? b = none → accepted = [] ∧ taken = [] ∧ seen = []
  conserves : ∀ r, w.front? b = some r → r.Conserves accepted taken seen
  /-- Only the receiver of the bridge takes from its channel. -/
  post : ∀ t, w.core.entry t = some (.receiver b) → ∃ r, w.front? b = some r ∧ r.receiver = t
  serves : ∀ r, w.front? b = some r → r.hasReceiver = true →
    w.core.entry r.receiver = some (.receiver b)
  ended : ∀ r, w.front? b = some r → r.hasReceiver = false →
    ∃ how, w.core.entry r.receiver = some (.ended how)
  /-- A receiver that has something to do is woken. -/
  woken : ∀ r, w.front? b = some r → r.hasReceiver = true → r.Stirs → r.receiver ∈ w.ready

/-- What an event leaves alone of the receivers of a bridge. -/
structure Posts (b : BridgeId) (w w' : Client) : Prop where
  back : ∀ t, w'.core.entry t = some (.receiver b) → w.core.entry t = some (.receiver b)
  serves : ∀ t, w.core.entry t = some (.receiver b) → w'.core.entry t = some (.receiver b)
  ended : ∀ t how, w.core.entry t = some (.ended how) → w'.core.entry t = some (.ended how)
  ready : ∀ t, w.core.entry t = some (.receiver b) → t ∈ w.ready → t ∈ w'.ready

variable {acc han acc' han' : List Trigger} {rd rd' : List String}

/-- The bridge changes, and not its receiver: what is known of it carries over if the change keeps
the lists, and if whatever gives the receiver something to do wakes it. -/
theorem Intake.renew (h : Intake b acc han rd w) (hp : Posts b w w') (f : Bridge → Bridge)
    (hf : w'.front? b = (w.front? b).map f) (hr : ∀ r, (f r).receiver = r.receiver)
    (hl : ∀ r, (f r).hasReceiver = r.hasReceiver)
    (hn : w.front? b = none → acc' = [] ∧ han' = [] ∧ rd' = [])
    (hc : ∀ r, w.front? b = some r → r.Conserves acc han rd → (f r).Conserves acc' han' rd')
    (hs : ∀ r, w.front? b = some r → w.core.entry r.receiver = some (.receiver b) → (f r).Stirs →
      r.Stirs ∨ r.receiver ∈ w'.ready) : Intake b acc' han' rd' w' where
  absent hno := by
    rw [hf] at hno
    exact hn (Option.map_eq_none_iff.1 hno)
  conserves r' hr' := by
    rw [hf] at hr'
    obtain ⟨r, hr, rfl⟩ := Option.map_eq_some_iff.1 hr'
    exact hc r hr (h.conserves r hr)
  post t ht := by
    obtain ⟨r, hb, rfl⟩ := h.post t (hp.back t ht)
    exact ⟨f r, by rw [hf, hb]; rfl, hr r⟩
  serves r' hr' hlive := by
    rw [hf] at hr'
    obtain ⟨r, hb, rfl⟩ := Option.map_eq_some_iff.1 hr'
    rw [hr]
    rw [hl] at hlive
    exact hp.serves _ (h.serves r hb hlive)
  ended r' hr' hno := by
    rw [hf] at hr'
    obtain ⟨r, hb, rfl⟩ := Option.map_eq_some_iff.1 hr'
    rw [hr]
    rw [hl] at hno
    exact (h.ended r hb hno).imp fun how he => hp.ended _ how he
  woken r' hr' hlive hstir := by
    rw [hf] at hr'
    obtain ⟨r, hb, rfl⟩ := Option.map_eq_some_iff.1 hr'
    rw [hr]
    rw [hl] at hlive
    have hent := h.serves r hb hlive
    -- it had to be woken before, and was, or this event woke it
    rcases hs r hb hent hstir with hold | hin
    · exact hp.ready _ hent (h.woken r hb hlive hold)
    · exact hin

/-- Nothing happens to the bridge but for its jobs. -/
theorem Intake.keep (h : Intake b acc han rd w) (hp : Posts b w w')
    (hf : w'.front? b = w.front? b) : Intake b acc han rd w' :=
  h.renew hp id (by rw [hf, Option.map_id_fun, id]) (fun _ => rfl) (fun _ => rfl) h.absent
    (fun _ _ hc => hc) fun _ _ _ => .inl

/-- Only a new bridge gets a new receiver. -/
theorem receiver_outside {c c' : Core} {e : Event} (h : Outside c e c')
    (ht : c'.entry t = some (.receiver b)) :
    c.entry t = some (.receiver b) ∨
      e = .openBridge ∧ b = c.bridges.length ∧ t = c.size + 1 := by
  have hcall : ∀ command, (c.spawnCall command).entry t = some (.receiver b) →
      c.entry t = some (.receiver b) := by
    intro command hk
    have hk : Function.update c.entry c.size (some (.command (.fresh command))) t =
      some (.receiver b) := hk
    by_cases hu : t = c.size
    · rw [hu, Function.update_self] at hk
      cases hk
    · rwa [Function.update_of_ne hu] at hk
  cases h with
  | call command | go command => exact .inl (hcall command ht)
  | openBridge =>
    rcases entry_openBridge_cases ht with hold | ⟨-, hk⟩ | ⟨hu, hk⟩
    · exact .inl hold
    · cases hk
    · cases hk
      exact .inr ⟨rfl, rfl, hu⟩
  | pass | fail | pin | startPolling | stopPolling | bridge => exact .inl ht

/-- Changes from outside write no receiver that is there. -/
theorem posts_outside {e : Event} (ho : Outer e w v)
    (hc : v.core = w.core ∨ Outside w.core e v.core) (he : e = .openBridge → b ≠ w.bridges.length) :
    Posts b w v where
  back t ht := by
    rcases hc with hc | hc
    · rwa [hc] at ht
    · exact (receiver_outside hc ht).resolve_right fun h => he h.1 h.2.1
  serves t ht := entry_of_task? (ho.task t _ rfl (task?_of_entry ht)) rfl
  ended t how ht := entry_of_task? (ho.task t _ rfl (task?_of_entry ht)) rfl
  ready t _ hin := ho.ready.subset hin

/-- Turns of other tasks write no receiver. -/
theorem posts_turn {acts : List Act} (hs : Spares t w v) (hc : Steps w.core acts v.core)
    (ht : w.core.entry t ≠ some (.receiver b)) : Posts b w v where
  back u hu := hc.receiver hu
  serves u hu := by
    rw [hs.entry u]
    · exact hu
    · rintro rfl
      exact ht hu
  ended u how hu := hc.ended hu
  ready u hu hin := by
    refine hs.ready u ?_ hin
    rintro rfl
    exact ht hu

/-- The receiver of the bridge has its turn: it takes all that is at hand, and ends if it was told
to or if the channel is closed. -/
theorem Intake.receive (h : Intake b acc han rd w) (hw : w.Fit)
    (ht : w.core.entry t = some (.receiver b)) :
    Intake b acc (han ++ takes b w (.poll t)) rd (w.happen (.poll t)) := by
  obtain ⟨r, hb, rfl⟩ := h.post t ht
  -- it is there, since it has not ended
  have hlive : r.hasReceiver = true := by
    cases hr : r.hasReceiver with
    | true => rfl
    | false =>
      obtain ⟨how, he⟩ := h.ended r hb hr
      rw [ht] at he
      cases he
  have hrun := happen_receive ht
  have htakes : takes b w (.poll r.receiver) = r.atHand := by
    obtain ⟨bridge, hbridge, rfl⟩ := Option.map_eq_some_iff.1 hb
    exact (takes_poll ht hbridge).trans rfl
  have hfront : (w.happen (.poll r.receiver)).front? b = some r.served := by
    rw [hrun]
    exact front?_runReceiver _ hb
  have hrec : r.served.receiver = r.receiver := by
    unfold Bridge.served
    split
    · rfl
    · split <;> rfl
  -- the receiver of a bridge is one task
  have hback : ∀ u, (w.happen (.poll r.receiver)).core.entry u = some (.receiver b) →
      u = r.receiver := by
    intro u hu
    have hsteps := steps_run (w := { w with ready := w.ready.erase r.receiver }) hw.sound r.receiver
    obtain ⟨r', hb', rfl⟩ := h.post u (hsteps.receiver hu)
    rw [hb] at hb'
    cases hb'
    rfl
  have hends := entry_runReceiver (w := { w with ready := w.ready.erase r.receiver }) hb ht hlive
  rw [← hrun] at hends
  rw [htakes]
  refine ⟨fun hno => ?_, ?_, ?_, ?_, ?_, ?_⟩
  · rw [hfront] at hno
    cases hno
  · intro r' hr'
    rw [hfront] at hr'
    cases hr'
    exact (h.conserves r hb).served hlive
  · intro u hu
    exact ⟨r.served, hfront, hrec.trans (hback u hu).symm⟩
  · intro r' hr' hl
    rw [hfront] at hr'
    cases hr'
    rw [hrec]
    rcases hends with ⟨-, he⟩ | ⟨hno, -⟩
    · exact he
    · rw [hl] at hno
      cases hno
  · intro r' hr' hl
    rw [hfront] at hr'
    cases hr'
    rw [hrec]
    rcases hends with ⟨hyes, -⟩ | ⟨-, he⟩
    · rw [hl] at hyes
      cases hyes
    · exact he
  · -- nothing stirs what its turn has left behind
    intro r' hr' hl hstir
    rw [hfront] at hr'
    cases hr'
    exact absurd hstir (Bridge.not_stirs_served hl)

/-- A turn. -/
theorem Intake.poll (h : Intake b acc han rd w) (hw : w.Fit) (t : TaskId) :
    Intake b acc (han ++ takes b w (.poll t)) rd (w.happen (.poll t)) := by
  by_cases ht : w.core.entry t = some (.receiver b)
  · exact h.receive hw ht
  · have hsteps := steps_run (w := { w with ready := w.ready.erase t }) hw.sound t
    rw [takes_poll_of_ne ht, List.append_nil]
    exact h.keep (posts_turn (poll_spares hw t) hsteps ht) (front?_poll hw ht)

/-- A call runs at once. -/
theorem Intake.call (h : Intake b acc han rd w) (hw : w.Fit) (command : Command) :
    Intake b acc han rd (w.happen (.call command)) := by
  obtain ⟨hout, hcore, hent, hparts⟩ := call_turnParts hw command
  have hmid : Intake b acc han rd (w.called command) :=
    h.keep (posts_outside hout (.inr hcore) nofun) rfl
  refine hmid.keep (posts_turn hparts.spares hparts.steps ?_) (front?_call hw command)
  rw [hent]
  exact nofun

/-- A bridge is opened. If this is the one, nothing was accepted, taken or read of it before; if
not, its front and its receiver are as they were. -/
theorem Intake.openBridge (h : Intake b acc han rd w) (hw : w.Fit) :
    Intake b acc han rd (w.happen .openBridge) := by
  obtain ⟨capacity, hc⟩ := core_activate w hw.sound
  -- this bridge is the new one, of which nothing was read yet; or it was there before
  by_cases hb : b = w.bridges.length
  · have hnone : w.front? b = none := by
      show (w.bridges[b]?).map Bridge.front = none
      rw [hb, List.getElem?_eq_none (Nat.le_refl _)]
      rfl
    obtain ⟨rfl, rfl, rfl⟩ := h.absent hnone
    have hfront : w.activate.2.front? b = some (newBridge capacity w.core.size) := by
      show (w.activate.2.bridges[b]?).map Bridge.front = _
      rw [show w.activate.2.bridges = w.bridges ++ [newBridge capacity w.core.size] from
        congrArg Core.bridges hc, hb, List.getElem?_concat_length]
      rfl
    have hent : w.activate.2.core.entry (w.core.size + 1) = some (.receiver b) := by
      rw [hc, hb]
      exact Function.update_self _ _ _
    have hout : Outside w.core .openBridge w.activate.2.core := by
      rw [hc]
      exact .openBridge rfl rfl
    have hnew : ∀ r, w.activate.2.front? b = some r → r = newBridge capacity w.core.size :=
      fun r hr => Option.some.inj (hr.symm.trans hfront)
    refine ⟨fun hno => ?_, ?_, ?_, ?_, ?_, ?_⟩
    · rw [show (w.happen .openBridge).front? b = _ from hfront] at hno
      cases hno
    · intro r hr
      cases hnew r hr
      exact ⟨fun _ => ⟨rfl, rfl⟩, nofun, List.prefix_rfl, fun _ => rfl⟩
    · intro t ht
      refine ⟨_, hfront, ?_⟩
      rcases receiver_outside hout ht with hold | ⟨-, -, rfl⟩
      · obtain ⟨r, hr, -⟩ := h.post t hold
        rw [hnone] at hr
        cases hr
      · rfl
    · intro r hr _
      cases hnew r hr
      exact hent
    · intro r hr hno
      cases hnew r hr
      cases hno
    · intro r hr _ hstir
      cases hnew r hr
      rcases hstir with hk | hk | hk
      · cases hk
      · cases hk
      · exact absurd rfl hk
  · exact h.keep (posts_outside (outer_happen w trivial) (outside_happen hw.sound trivial)
      fun _ => hb) (front?_openBridge hw hb)

/-- What an event that is no turn adds to the lists, and does to the bridge. An event at another
bridge, or at none, adds nothing. -/
theorem Intake.quiet (h : Intake b acc han rd w) (hw : w.Fit) {e : Event} (he : e.IsQuiet) :
    Intake b (acc ++ accepts b w e) han (rd ++ sees b w e) (w.happen e) := by
  -- the event is at this bridge; or at another, or at none
  by_cases hb : e.bridge? = some b
  · have hno : e ≠ .openBridge := by
      rintro rfl
      cases hb
    have hposts : Posts b w (w.happen e) :=
      posts_outside (outer_happen w he) (outside_happen hw.sound he) fun hk => absurd hk hno
    refine h.renew hposts (Bridge.meets · e) (front?_meets w hb)
      (fun r => r.meets_receiver e) (fun r => r.meets_hasReceiver e) ?_ ?_
      fun r hr ht => woken_meets hr ht hb
    · intro hn
      obtain ⟨hacc, hsee⟩ := lists_still (w := w) fun _ => hn
      rw [hacc, hsee, List.append_nil, List.append_nil]
      exact h.absent hn
    · intro r hr hc
      obtain ⟨hacc, hsee⟩ := lists_meets hr hb
      rw [hacc, hsee]
      exact hc.meets e
  · obtain ⟨hacc, hsee⟩ := lists_still (w := w) fun hk => absurd hk hb
    rw [hacc, hsee, List.append_nil, List.append_nil]
    by_cases hno : e = .openBridge
    · cases hno
      exact h.openBridge hw
    · exact h.keep (posts_outside (outer_happen w he) (outside_happen hw.sound he)
        fun hk => absurd hk hno) (front?_still hw he hb fun hk => absurd hk hno)

/-- Every event adds to the lists what is read off it, and keeps what is known of the bridge. -/
theorem Intake.happen (h : Intake b acc han rd w) (hw : w.Fit) (e : Event) :
    Intake b (acc ++ accepts b w e) (han ++ takes b w e) (rd ++ sees b w e) (w.happen e) := by
  have hquiet : ∀ {e : Event}, e.IsQuiet →
      Intake b (acc ++ accepts b w e) (han ++ takes b w e) (rd ++ sees b w e) (w.happen e) := by
    intro e he
    rw [takes_quiet he, List.append_nil]
    exact h.quiet hw he
  cases e with
  | call command =>
    show Intake b (acc ++ []) (han ++ []) (rd ++ []) _
    rw [List.append_nil, List.append_nil, List.append_nil]
    exact h.call hw command
  | poll t =>
    show Intake b (acc ++ []) _ (rd ++ []) _
    rw [List.append_nil, List.append_nil]
    exact h.poll hw t
  | _ => exact hquiet trivial

/-! ## Runs -/

theorem Fit.after (hw : w.Fit) (events : List Event) : (w.after events).Fit :=
  (records_after (I := fun _ _ => True) (P := fun _ => True) (fun _ _ _ _ _ _ _ _ => trivial)
    (fun _ _ _ _ _ _ _ => trivial) (fun _ _ _ _ _ _ _ _ _ => trivial) hw [] trivial events
    fun _ _ => trivial).1

/-- A client that nothing happened to has no bridges. -/
theorem intake_fresh (b : BridgeId) (config : Config) (servers : List Server) (latency : Nat)
    (version : String) : Intake b [] [] [] (fresh config servers latency version) where
  absent _ := ⟨rfl, rfl, rfl⟩
  conserves _ hr := nomatch hr
  post _ ht := nomatch ht
  serves _ hr := nomatch hr
  ended _ hr := nomatch hr
  woken _ hr := nomatch hr

/-- Every run keeps the counts of a bridge. -/
theorem Intake.after (h : Intake b acc han rd w) (hw : w.Fit) (events : List Event) :
    Intake b (acc ++ accepted b w events) (han ++ taken b w events) (rd ++ seen b w events)
      (w.after events) := by
  induction events generalizing w acc han rd with
  | nil =>
    show Intake b (acc ++ []) (han ++ []) (rd ++ []) w
    rwa [List.append_nil, List.append_nil, List.append_nil]
  | cons e events ih =>
    have hnext := ih (h.happen hw e) (hw.after [e])
    rw [List.append_assoc, List.append_assoc, List.append_assoc] at hnext
    exact hnext

/-! ## Bridges that are told to end -/

/-- The receiver of the bridge was told to end. -/
def Told (b : BridgeId) (w : Client) : Prop := ∃ r, w.front? b = some r ∧ r.cancelled = true

/-- Who was told to end takes nothing more. -/
theorem Told.takes (h : Told b w) (e : Event) : w.takes b e = [] := by
  cases e with
  | poll t =>
    by_cases ht : w.core.entry t = some (.receiver b)
    · obtain ⟨r, hr, hc⟩ := h
      obtain ⟨bridge, hb, rfl⟩ := Option.map_eq_some_iff.1 hr
      exact (takes_poll ht hb).trans (if_pos hc)
    · exact takes_poll_of_ne ht
  | _ => rfl

/-- Nobody takes it back that the receiver was told to end: events at the bridge keep the flag, and
so does every turn of the receiver. -/
theorem Told.happen (h : Told b w) (hw : w.Fit) (e : Event) : Told b (w.happen e) := by
  obtain ⟨r, hr, hc⟩ := h
  have hquiet : ∀ {e : Event}, e.IsQuiet → Told b (w.happen e) := by
    intro e he
    by_cases hb : e.bridge? = some b
    · refine ⟨r.meets e, ?_, Bridge.meets_cancelled hc e⟩
      rw [front?_meets w hb, hr]
      rfl
    · refine ⟨r, (front?_still hw he hb ?_).trans hr, hc⟩
      rintro - rfl
      rw [front?, bridge?, List.getElem?_eq_none (Nat.le_refl _)] at hr
      cases hr
  cases e with
  | call command => exact ⟨r, (front?_call hw command).trans hr, hc⟩
  | poll t =>
    -- its own turn is the one in which it ends; no other turn touches the bridge
    by_cases ht : w.core.entry t = some (.receiver b)
    · refine ⟨r.served, ?_, ?_⟩
      · rw [happen_receive ht]
        exact front?_runReceiver t hr
      · rw [Bridge.served, if_pos hc]
        exact hc
    · exact ⟨r, (front?_poll hw ht).trans hr, hc⟩
  | _ => exact hquiet trivial

theorem Told.taken (h : Told b w) (hw : w.Fit) (events : List Event) : taken b w events = [] := by
  induction events generalizing w with
  | nil => rfl
  | cons e events ih =>
    show w.takes b e ++ Client.taken b (w.happen e) events = []
    rw [h.takes, ih (h.happen hw e) (hw.after [e])]
    rfl

/-- The bridge is there, and its receiver has ended. -/
structure Deserted (b : BridgeId) (w : Client) : Prop where
  opened : ∃ u, (w.core.crew b).map Prod.fst = some u
  gone : ∀ t, w.core.entry t ≠ some (.receiver b)

/-- A receiver that has ended has no turn in which it could take anything. -/
theorem Deserted.takes (h : Deserted b w) (e : Event) : w.takes b e = [] := by
  cases e with
  | poll t => exact takes_poll_of_ne (h.gone t)
  | _ => rfl

/-- Without a receiver the channel is closed. -/
theorem Deserted.offer (h : Deserted b w) (hi : Intake b acc han rd w) (e : Trigger) :
    (w.offerTrigger b e).1 = .closed := by
  obtain ⟨u, hu⟩ := h.opened
  obtain ⟨crew, hcrew, -⟩ := Option.map_eq_some_iff.1 hu
  obtain ⟨bridge, hb, -⟩ := Option.map_eq_some_iff.1 hcrew
  have hr : w.front? b = some bridge.front := congrArg (Option.map Bridge.front) hb
  have hno : bridge.hasReceiver = false :=
    Bool.eq_false_iff.2 fun hk => h.gone _ (hi.serves _ hr hk)
  have hclosed : bridge.triggers.closed = true := ((hi.conserves _ hr).closed hno).1
  rw [(offerTrigger_cases hr e).1, Channel.offer]
  exact congrArg Prod.fst (if_pos hclosed)

/-- The receiver of a bridge never comes back: receivers are made with a bridge, and this one is
there. -/
theorem Deserted.happen (h : Deserted b w) (hw : w.Fit) (e : Event) : Deserted b (w.happen e) := by
  obtain ⟨u, hu⟩ := h.opened
  obtain ⟨c, hc, hsteps⟩ := steps_happen hw.sound e
  refine ⟨⟨u, ?_⟩, fun t ht => ?_⟩
  · rw [hsteps.worker]
    rcases hc with rfl | hc
    · exact hu
    · exact hc.worker hu
  · have ht := hsteps.receiver ht
    rcases hc with rfl | hc
    · exact h.gone t ht
    · -- a new receiver would be that of a new bridge
      rcases receiver_outside hc ht with hold | ⟨-, rfl, -⟩
      · exact h.gone t hold
      · rw [crew_length] at hu
        cases hu

/-- Who has ended takes nothing more, and nothing more is accepted, whatever the rest of the run
does. -/
theorem Deserted.after (h : Deserted b w) (hi : Intake b acc han rd w) (hw : w.Fit)
    (events : List Event) :
    Deserted b (w.after events) ∧ taken b w events = [] ∧ accepted b w events = [] := by
  induction events generalizing w acc han rd with
  | nil => exact ⟨h, rfl, rfl⟩
  | cons e events ih =>
    obtain ⟨hd, ht, ha⟩ := ih (h.happen hw e) (hi.happen hw e) (hw.after [e])
    refine ⟨hd, ?_, ?_⟩
    · show w.takes b e ++ Client.taken b (w.happen e) events = []
      rw [h.takes, ht]
      rfl
    · show w.accepts b e ++ Client.accepted b (w.happen e) events = []
      rw [ha, List.append_nil]
      cases e with
      | send c e =>
        refine if_neg fun hk => ?_
        rw [h.offer hi] at hk
        cases hk.2
      | _ => rfl

end Client

end TunnelSession
