/-
  The parts of a turn.

  PARTS.  A part of a turn is what a task does between two points at which it could as well stop: a
  stretch of work on a request, a trigger that is taken, or something that leaves the connection
  alone.  A `TurnPart` says three things of it: the effects on the connection, the step of the core,
  and the records it adds.

  REQUESTS.  `RequestWork` is a stretch of work on a request with all that is known of it: who began
  it and where, how the work goes, and how the task is written afterwards.  Whoever provides that
  has a part of a turn (`RequestWork.turnPart`); the functions of the client differ in what they
  provide.

  WRITING.  A task is written at the end of its turn only.  Between two parts it counts as written
  already; so a part goes from one client with the task written to another, and the effects are on
  what lies beneath (`TurnPart.connEffects`).

  EVENTS.  An event is a change from outside, or the turn of a task in parts, or that of a poller
  (`happen_cases`).  So what those keep holds throughout every run: `records_after`.
-/
import TunnelSession.Proofs.StageInvariant

namespace TunnelSession

/-- A bridge but for its jobs. -/
def Bridge.front (r : Bridge) : Bridge := { r with jobs := [] }

/-- Did the connect forgo the poller, because it was superseded when its tunnel was up? -/
def Leg.Forgoes (epoch : Nat) (l : Leg) : Prop :=
  ∃ ticket server call, l.start = some (.sampling ticket server call) ∧ ticket < epoch

/-- The work is on the request of the call, or on the job that the worker has under way, or on the
next one of its bridge. -/
def Record.IsOn (c : Core) (t : TaskId) (x : Record) : Prop :=
  ∀ l, x.act = .leg l →
    (l.source = .call t ∧ ∃ point, c.entry t = some (.command point) ∧
      (Task.command point).lifecycle? = l.start) ∨
    ∃ b job, l.source = .bridge b ∧ x.job = some job ∧
      match l.start with
      | none => c.entry t = some (.worker b none) ∧
        ∃ bridge rest, c.bridges[b]? = some bridge ∧ bridge.jobs = job :: rest
      | some s => c.entry t = some (.worker b (some (job, s)))

/-- The work goes on from where the task is. -/
theorem Record.IsOn.stage {c : Core} {t : TaskId} {x : Record} {l : Leg} (h : x.IsOn c t)
    (hs : c.Sound) (hl : x.act = .leg l) : c.stage t = l.start := by
  rcases h l hl with ⟨-, point, ho, hp⟩ | ⟨b, job, -, -, hwork⟩
  · exact (hs.stage_of_entry ho).trans hp
  · cases hstart : l.start with
    | none =>
      rw [hstart] at hwork
      exact hs.stage_of_entry hwork.1
    | some s =>
      rw [hstart] at hwork
      exact hs.stage_of_entry hwork

/-- The changes of the state are those of the work, and a request that has its tunnel makes none and
keeps it. -/
structure Record.Fits (x : Record) : Prop where
  changesFit : ∀ l, x.act = .leg l → ChangesFit x.changes l.result
  settle : ∀ l k, x.act = .leg l → l.start = some k → k.IsActive → StateChange.Settle x.changes
  decided : ∀ l, x.act = .leg l → l.Decided → x.changes = [] ∧ l.result.HasTunnel
  plain : (∀ l, x.act ≠ .leg l) → x.changes = []

theorem Record.fits_plain {act : Act} (h : ∀ l, act ≠ .leg l) : (Record.plain act).Fits :=
  ⟨fun l hl => absurd hl (h l), fun l _ hl => absurd hl (h l), fun l hl => absurd hl (h l),
    fun _ => rfl⟩

/-- The work does not go on with a request that has called the backend. -/
theorem ChangesFit.fits {l : Leg} {job : Option Job} {σ : List StateChange}
    (h : ChangesFit σ l.result)
    (hs : l.start = none) : Record.Fits ⟨.leg l, job, σ⟩ where
  changesFit m hm := by
    cases hm
    exact h
  settle m k hm hk := by
    cases hm
    rw [hs] at hk
    cases hk
  decided m hm hd := by
    cases hm
    obtain ⟨_, _, _, hd⟩ := hd
    rw [hs] at hd
    cases hd
  plain hn := absurd rfl (hn l)

/-- Only the last act of a step is work. -/
theorem Core.Step.shape {c c' : Core} {acts : List Act} (h : Core.Step c acts c') :
    (∀ l, .leg l ∉ acts) ∨ ∃ pre l, acts = pre ++ [.leg l] ∧ ∀ m, .leg m ∉ pre := by
  cases h with
  | aside | turn | retire => exact .inl fun _ hm => nomatch hm
  | takeAsk => exact .inl fun _ hm => Act.ask_ne_leg (List.mem_singleton.1 hm).symm
  | takeLeave => exact .inl fun _ hm => Act.leave_ne_leg (List.mem_singleton.1 hm).symm
  | ask => exact .inr ⟨[_], _, rfl, fun _ hm => Act.ask_ne_leg (List.mem_singleton.1 hm).symm⟩
  | leave => exact .inr ⟨[_], _, rfl, fun _ hm => Act.leave_ne_leg (List.mem_singleton.1 hm).symm⟩
  | resume | begin | carry => exact .inr ⟨[], _, rfl, fun _ hm => nomatch hm⟩

namespace Client

open TunnelSession.Core

variable {w w' v v' v₁ u : Client} {t : TaskId} {ρ : List Record} {ready : List TaskId}

/-- A part of the turn of a task that is no poller. -/
structure TurnPart (t : TaskId) (v : Client) (ρ : List Record) (v' : Client) : Prop where
  connEffects : ∃ (w w' : Client) (ready : List TaskId) (bridges : List Bridge) (k k' : Task),
    v = w.setTask t k ∧ v' = w'.setTask t k' ∧ (∀ p, w.task? t ≠ some (.poller p)) ∧
    (∀ p, w'.task? t ≠ some (.poller p)) ∧ k.seen? = some k ∧ k'.seen? = some k' ∧
    (ready = w.ready ∨ ready = w.ready.erase t) ∧
    ConnEffects t { w with ready := ready, bridges := bridges } (changesIn ρ) w'
  coreStep : (ρ = [] ∧ v.stage t = none ∧ Steps v.core [] v'.core) ∨
    Step v.core (ρ.map Record.act) v'.core
  /-- Who waits with a ticket is woken when it becomes void. -/
  enlisted : ∀ l k, v'.stage t = some l → l.ticket? = some k →
    (v.stage t ≠ none → t ∈ v.cancellable) → t ∈ v'.cancellable
  waits : ∀ l, v'.stage t = some l → v'.core.Waits t l
  /-- Nobody goes on with a void ticket. -/
  drops : ∀ l k, v.stage t = some l → l.ticket? = some k → k < v.epoch → v'.stage t = none
  /-- Who is not at work on a request is at none. -/
  idle : (∀ x ∈ ρ, ∀ l, x.act ≠ .leg l) → v.stage t = none ∧ v'.stage t = none
  stage : ∀ x ∈ ρ, ∀ l, x.act = .leg l → v'.stage t = l.result.stage?
  /-- Only who has the connection gets a tunnel. -/
  holds : ∀ x ∈ ρ, ∀ l, x.act = .leg l → l.result.HasTunnel →
    v.transition.holder = none ∨ v.transition.holder = some t
  /-- Who has made a tunnel has started the poller, if it was not superseded. -/
  polling : ∀ x ∈ ρ, ∀ l server, x.act = .leg l → l.result = .done (.ok (some server)) →
    l.Forgoes v.epoch ∨ v'.poller ≠ none
  isOn : ∀ x ∈ ρ, x.IsOn v.core t
  fits : ∀ x ∈ ρ, x.Fits
  /-- Only receivers change more of a bridge than its jobs. -/
  front : (∀ b, v.core.entry t ≠ some (.receiver b)) → ∀ b,
    (v'.bridge? b).map Bridge.front = (v.bridge? b).map Bridge.front

/-- Parts of a turn, one after the other. -/
inductive TurnParts (t : TaskId) : Client → List Record → Client → Prop
  | refl (v : Client) : TurnParts t v [] v
  | head {v v₁ v' : Client} {ρ σ : List Record} (h : TurnPart t v ρ v₁) (hs : TurnParts t v₁ σ v') :
    TurnParts t v (ρ ++ σ) v'

theorem TurnPart.single (h : TurnPart t v ρ v') : TurnParts t v ρ v' := by
  have hs := TurnParts.head h (.refl v')
  rwa [List.append_nil] at hs

theorem TurnPart.steps (h : TurnPart t v ρ v') : Steps v.core (ρ.map Record.act) v'.core := by
  rcases h.coreStep with ⟨rfl, -, hs⟩ | hs
  · exact hs
  · exact hs.single

theorem TurnParts.steps (h : TurnParts t v ρ v') : Steps v.core (ρ.map Record.act) v'.core := by
  induction h with
  | refl => exact .refl _
  | head h _ ih =>
    rw [List.map_append]
    exact h.steps.trans ih

theorem TurnParts.trans {σ : List Record} (h : TurnParts t v ρ v₁) (h' : TurnParts t v₁ σ v') :
    TurnParts t v (ρ ++ σ) v' := by
  induction h with
  | refl => exact h'
  | head h _ ih =>
    rw [List.append_assoc]
    exact .head h (ih h')

/-- A part of a turn is no work, or work comes last in it. -/
theorem TurnPart.shape (h : TurnPart t v ρ v') :
    (∀ x ∈ ρ, ∀ l, x.act ≠ .leg l) ∨
      ∃ pre x l, ρ = pre ++ [x] ∧ x.act = .leg l ∧ ∀ y ∈ pre, ∀ m, y.act ≠ .leg m := by
  rcases h.coreStep with ⟨rfl, -, -⟩ | hs
  · exact .inl fun _ hx => nomatch hx
  · rcases hs.shape with hn | ⟨pre, l, heq, hn⟩
    · exact .inl fun x hx l hl => hn l (hl ▸ List.mem_map_of_mem hx)
    · obtain ⟨ρ₁, ρ₂, rfl, h₁, h₂⟩ := List.map_eq_append_iff.1 heq
      obtain ⟨x, hx, hl⟩ := List.map_eq_singleton_iff.1 h₂
      refine .inr ⟨ρ₁, x, l, by rw [hx], hl, fun y hy m hm => hn m ?_⟩
      rw [← h₁, ← hm]
      exact List.mem_map_of_mem hy

/-- Only work changes the state. -/
theorem changesIn_of_fits (h : ∀ x ∈ ρ, x.Fits) (hn : ∀ x ∈ ρ, ∀ l, x.act ≠ .leg l) :
    changesIn ρ = [] :=
  List.flatMap_eq_nil_iff.2 fun x hx => (h x hx).plain (hn x hx)

/-- A part of a turn leaves the requests of the others where they are. -/
theorem TurnPart.stage_of_ne (hb : TurnPart t v ρ v') {u : TaskId} (hu : u ≠ t) :
    v'.stage u = v.stage u := by
  obtain ⟨w, w', ready, bridges, k, k', rfl, rfl, -, -, -, -, -, hs⟩ := hb.connEffects
  rw [stage_setTask_of_ne w k hu, stage_setTask_of_ne w' k' hu]
  exact hs.kept.stage u

theorem core_setTask_congr (h : w.core = v.core) (k : Task) (ht : t < w.core.size) :
    (w.setTask t k).core = (v.setTask t k).core := by
  rw [core_setTask w k ht, core_setTask v k (h ▸ ht), h]

/-- The stage of a task that was just written. -/
theorem stage_setTask_self {k : Task} {l : Lifecycle} (h : (w.setTask t k).stage t = some l) :
    k.lifecycle? = some l := by
  obtain ⟨task, ht, hl⟩ := Option.bind_eq_some_iff.1 h
  rcases Nat.lt_or_ge t w.tasks.length with hlt | hge
  · rw [task?_setTask w k t hlt, if_pos rfl] at ht
    cases ht
    exact hl
  · have hlen : (w.setTask t k).tasks.length ≤ t := by
      rw [show (w.setTask t k).tasks = w.tasks.set t k from rfl, List.length_set]
      exact hge
    rw [show (w.setTask t k).task? t = none from List.getElem?_eq_none hlen] at ht
    cases ht

/-- A task that is seen in the core is no poller. -/
theorem not_poller_of_entry {k : Task} (h : w.core.entry t = some k) :
    ∀ p, w.task? t ≠ some (.poller p) := by
  intro p hp
  have ht := task?_of_entry h
  rw [hp] at ht
  cases ht
  rw [show w.core.entry t = none by
    show (w.task? t).bind Task.seen? = none
    rw [hp]; rfl] at h
  cases h

theorem seen?_of_entry {k : Task} (h : w.core.entry t = some k) : k.seen? = some k := by
  have ht := task?_of_entry h
  rw [show w.core.entry t = (w.task? t).bind Task.seen? from rfl, ht] at h
  exact h

/-! ## Work on a request -/

theorem waiting_of_stage? {p : Progress Lifecycle Settled} {l : Lifecycle}
    (h : p.stage? = some l) : p = .waiting l := by
  cases p with
  | waiting => exact congrArg _ (Option.some.inj h)
  | done => cases h

theorem put_none_stage {c : Core} (h : c.stage t = none) : (c.put t none).stage = c.stage :=
  congrArg Core.stage (put_self h)

/-- What a request waits for is the clock, the epoch or the connection. -/
theorem waits_of_core {c c' : Core} {l : Lifecycle} (h : c.Waits t l) (hn : c'.now = c.now)
    (he : c'.epoch = c.epoch) (ht : c'.transition = c.transition) : c'.Waits t l := by
  unfold Waits at h ⊢
  rw [hn, he, ht]
  exact h

/-- A stretch of work on a request, with what is known of it. -/
structure RequestWork (t : TaskId) (v : Client) where
  /-- The client that the work is done on; while it lasts, the task is written as it was before. -/
  beneath : Client
  ready : List TaskId
  bridges : List Bridge
  /-- The task as it counts as written before the work. -/
  old : Task
  /-- The task as it is written after the work. -/
  new : Task
  /-- What goes before the work in the same step. -/
  acts : List Act
  job : Option Job
  leg : Leg
  changes : List StateChange
  result : Client × Progress Lifecycle Settled
  /-- The client when it was reported what the work came to. -/
  after : Client
  skip : Prop
  kept : Prop
  begins : v = beneath.setTask t old
  entry : ∃ k, beneath.core.entry t = some k
  turn : ready = beneath.ready ∨ ready = beneath.ready.erase t
  front : ∀ b, (bridges[b]?).map Bridge.front = (beneath.bridge? b).map Bridge.front
  connWork : ConnWork t { beneath with ready := ready, bridges := bridges } skip kept changes result
  reported : ConnKept result.1 after
  core : after.core = result.1.core
  old_seen : old.seen? = some old
  new_seen : new.seen? = some new
  stage : new.lifecycle? = result.2.stage?
  plain : ∀ m, .leg m ∉ acts
  outcome : leg.result = result.2
  step : Step v.core (acts ++ [.leg leg]) (after.setTask t new).core
  waits : ∀ l, result.2 = .waiting l → result.1.core.Waits t l
  holds : result.2.HasTunnel → v.transition.holder = none ∨ v.transition.holder = some t
  forgoes : skip → leg.Forgoes v.epoch
  enlisted : (v.stage t ≠ none → t ∈ v.cancellable) → kept
  drops : ∀ l n, v.stage t = some l → l.ticket? = some n → n < v.epoch → result.2.stage? = none
  isOn : Record.IsOn v.core t ⟨.leg leg, job, changes⟩
  fits : Record.Fits ⟨.leg leg, job, changes⟩

namespace RequestWork

variable (s : RequestWork t v)

/-- The records of the step that ends with the work. -/
def records : List Record := s.acts.map .plain ++ [⟨.leg s.leg, s.job, s.changes⟩]

/-- The one stretch of work in the records is that of the leg. -/
theorem leg_of_mem {x : Record} {m : Leg} (hx : x ∈ s.records) (hm : x.act = .leg m) :
    s.leg = m := by
  rcases List.mem_append.1 hx with hx | hx
  · obtain ⟨act, hact, rfl⟩ := List.mem_map.1 hx
    exact absurd (hm ▸ hact) (s.plain m)
  · cases List.mem_singleton.1 hx
    cases hm
    rfl

theorem connEffects :
    ConnEffects t { s.beneath with ready := s.ready, bridges := s.bridges } s.changes s.after :=
  s.connWork.connEffects.quietly s.reported.connEffects

/-- While the task works it is not written. -/
theorem entry_after : ∃ k, s.beneath.core.entry t = some k ∧ s.after.task? t = some k := by
  obtain ⟨k, hk⟩ := s.entry
  exact ⟨k, hk, (s.connEffects.kept.task t k (seen?_of_entry hk)).2 (task?_of_entry hk)⟩

/-- Where the task is afterwards is where the work got. -/
theorem stage_after : (s.after.setTask t s.new).stage t = s.result.2.stage? := by
  obtain ⟨k, -, hk⟩ := s.entry_after
  show ((s.after.setTask t s.new).task? t).bind Task.lifecycle? = _
  rw [task?_setTask s.after s.new t (List.getElem?_eq_some_iff.1 hk).1, if_pos rfl]
  exact s.stage

theorem result_of_stage {l : Lifecycle} (h : (s.after.setTask t s.new).stage t = some l) :
    s.result.2 = .waiting l :=
  waiting_of_stage? (s.stage_after.symm.trans h)

/-- A stretch of work on a request is a part of a turn: what a part has to say of the client is said
by the work, as it is before, beneath and after it. -/
theorem turnPart : TurnPart t v s.records (s.after.setTask t s.new) where
  -- the task is written as before the work beneath, and as afterwards above
  connEffects := by
    obtain ⟨k, hbefore, hafter⟩ := s.entry_after
    refine ⟨s.beneath, s.after, s.ready, s.bridges, s.old, s.new, s.begins, rfl,
      not_poller_of_entry hbefore, not_poller_of_entry (entry_of_task? hafter
        (seen?_of_entry hbefore)), s.old_seen, s.new_seen, s.turn, ?_⟩
    have hchanges : changesIn s.records = s.changes := by
      unfold records
      rw [changesIn_append, changesIn_plain, List.nil_append]
      exact List.append_nil _
    rw [hchanges]
    exact s.connEffects
  coreStep := by
    right
    unfold records
    rw [List.map_append, map_act_plain]
    exact s.step
  enlisted m n hm hn hin := by
    show t ∈ s.after.cancellable
    rw [s.reported.cancellable]
    exact s.connWork.enlisted m n (s.result_of_stage hm) hn (s.enlisted hin)
  waits m hm := by
    refine waits_of_core (c := s.after.core) ?_ rfl rfl rfl
    rw [s.core]
    exact s.waits m (s.result_of_stage hm)
  drops m n hm hn hlt := s.stage_after.trans (s.drops m n hm hn hlt)
  idle hn := absurd rfl (hn _ (List.mem_append_right _ (.head _)) s.leg)
  stage x hx m hm := by
    obtain rfl := s.leg_of_mem hx hm
    rw [s.outcome]
    exact s.stage_after
  holds x hx m hm ht := by
    obtain rfl := s.leg_of_mem hx hm
    rw [s.outcome] at ht
    exact s.holds ht
  -- a connect that is through has its poller in the slot, unless it forgoes it
  polling x hx m server hm hdone := by
    obtain rfl := s.leg_of_mem hx hm
    rw [s.outcome] at hdone
    refine (s.connWork.polling server hdone).imp s.forgoes fun hs => ?_
    show s.after.poller ≠ none
    rw [s.reported.poller]
    exact hs
  isOn x hx := by
    rcases List.mem_append.1 hx with hx | hx
    · obtain ⟨act, hact, rfl⟩ := List.mem_map.1 hx
      intro m hm
      exact absurd (hm ▸ hact) (s.plain m)
    · cases List.mem_singleton.1 hx
      exact s.isOn
  fits x hx := by
    rcases List.mem_append.1 hx with hx | hx
    · obtain ⟨act, hact, rfl⟩ := List.mem_map.1 hx
      exact Record.fits_plain fun m hm => s.plain m (hm ▸ hact)
    · cases List.mem_singleton.1 hx
      exact s.fits
  -- of the bridges only jobs were taken
  front _ b := by
    have hbegins : v.bridge? b = s.beneath.bridge? b := congrArg (·.bridges[b]?) s.begins
    show (s.after.bridges[b]?).map _ = _
    rw [s.reported.bridges, s.connWork.connEffects.kept.bridges, hbegins]
    exact s.front b

end RequestWork

/-- What a stretch of work waits for is what its core waits for. -/
theorem waits_of_stretch {c : Core} {start : Start} {r : Client × Progress Lifecycle Settled}
    (h : Stretch t c start r.2 (r.1.core.put t r.2.stage?)) {l : Lifecycle}
    (hl : r.2 = .waiting l) : r.1.core.Waits t l :=
  waits_of_core (h.waits l hl) rfl rfl rfl

/-- Going on with a request tells of the changes that it makes. -/
theorem fits_resume {w : Client} {l : Lifecycle}
    (h : ChangesFit (w.lifecycleChanges t l) (w.resumeLifecycle t l).2) (s : Source)
    (job : Option Job) :
    Record.Fits ⟨.leg ⟨s, some l, w.session, w.backend, (w.resumeLifecycle t l).1.session,
      (w.resumeLifecycle t l).1.backend, (w.resumeLifecycle t l).2⟩, job,
      w.lifecycleChanges t l⟩ where
  changesFit m hm := by
    cases hm
    exact h
  settle m k hm hk ha := by
    cases hm
    cases hk
    exact settle_lifecycleChanges w t ha
  decided m hm hd := by
    cases hm
    obtain ⟨_, _, _, hd⟩ := hd
    cases hd
    exact ⟨rfl, hasTunnel_resumeLifecycle w t _ _ _⟩
  plain hn := absurd rfl (hn _)

/-- What has nothing to do with the connection is a part without records: the core takes steps
without acts, and the connection is kept. -/
theorem turnPart_silent {bridges : List Bridge} (k k' : Task)
    (hl : ConnKept { w with ready := ready, bridges := bridges } w')
    (hp : ∀ p, w.task? t ≠ some (.poller p)) (hk : k.seen? = some k) (hk' : k'.seen? = some k')
    (hr : ready = w.ready ∨ ready = w.ready.erase t) (hs : (w.setTask t k).stage t = none)
    (hn : k'.lifecycle? = none) (hc : Steps (w.setTask t k).core [] (w'.setTask t k').core)
    (hf : (∀ b, (w.setTask t k).core.entry t ≠ some (.receiver b)) →
      ∀ b, (bridges[b]?).map Bridge.front = (w.bridge? b).map Bridge.front) :
    TurnPart t (w.setTask t k) [] (w'.setTask t k') where
  connEffects := by
    refine ⟨w, w', ready, bridges, k, k', rfl, rfl, hp, fun p hk₀ => hp p ?_, hk, hk', hr,
      hl.connEffects⟩
    rw [← hk₀, task?, task?, hl.tasks]
  coreStep := .inl ⟨rfl, hs, hc⟩
  enlisted l n hm := by
    have hst := stage_setTask_self hm
    rw [hn] at hst
    cases hst
  waits l hm := by
    have hst := stage_setTask_self hm
    rw [hn] at hst
    cases hst
  drops l m hm := by
    rw [hs] at hm
    cases hm
  idle _ := by
    refine ⟨hs, ?_⟩
    cases hst : (w'.setTask t k').stage t with
    | none => rfl
    | some l => cases hn.symm.trans (stage_setTask_self hst)
  stage _ hx := by cases hx
  holds _ hx := by cases hx
  polling _ hx := by cases hx
  isOn _ hx := by cases hx
  fits _ hx := by cases hx
  front hno b := by
    show (w'.bridges[b]?).map _ = _
    rw [hl.bridges]
    exact hf hno b

/-! ### Commands -/

section Commands

variable {point : Point}

/-- A command that leaves the connection alone. -/
theorem turnPart_idles {r : Client × Progress Point Reply} (hw : w.Fit)
    (ho : w.core.entry t = some (.command point))
    (hp : (Task.command point).lifecycle? = none)
    (hr : ready = w.ready ∨ ready = w.ready.erase t) (h : Idles w.core point.starts r)
    (hl : ConnKept { w with ready := ready } r.1) :
    TurnParts t w [] (r.1.setTask t (pointTask r.2)) := by
  have hself := setTask_self (task?_of_entry ho)
  have hseen : (pointTask r.2).seen? = some (pointTask r.2) := by
    cases r.2 <;> rfl
  have hstage : w.stage t = none := (hw.sound.stage_of_entry ho).trans hp
  rw [← hself]
  refine (turnPart_silent (.command point) _ hl (not_poller_of_entry ho) rfl hseen hr ?_ h.stage ?_
    fun _ _ => rfl).single
  · rw [hself]
    exact hstage
  · rw [hself]
    exact h.steps hw.sound ho hp

/-- A call asks for a connect. Its request and the first stretch of work on it are one part, as
nobody has a turn in between. -/
theorem turnPart_ask {target : Target} (hw : w.Fit) (ho : w.core.entry t = some (.command point))
    (ha : point.asks? = some target) (hp : (Task.command point).lifecycle? = none)
    (hr : ready = w.ready ∨ ready = w.ready.erase t) :
    TurnParts t w ({ w with ready := ready }.askRecords t target)
      (endCall t point.starts ({ w with ready := ready }.requestConnect t target w.epoch)) := by
  have hstage : w.stage t = none := (hw.sound.stage_of_entry ho).trans hp
  have hstretch := stretch_requestConnect { w with ready := ready } t target w.epoch hw.sound.prompt
  -- a fresh request forgoes nothing, and nobody is in the list of those whom a disconnect wakes
  have hwork : ConnWork t _ False True _ _ := connWork_requestConnect _ t target w.epoch
    (stageHolds_begin (w := { w with ready := ready }) hw.fitting hw.agrees hstage rfl rfl target
      w.epoch)
  exact (RequestWork.turnPart {
    beneath := w, ready := ready, bridges := w.bridges, old := .command point, new := _
    acts := [.ask (.call t) target], job := none, leg := _, changes := _, result := _, after := _
    skip := False, kept := True
    begins := (setTask_self (task?_of_entry ho)).symm
    entry := ⟨_, ho⟩
    turn := hr
    front := fun _ => rfl
    connWork := hwork
    reported := .refl _
    core := rfl
    old_seen := rfl
    new_seen := callTask_seen? point.starts _
    stage := callTask_lifecycle? _ _
    plain := fun _ hm => Act.ask_ne_leg (List.mem_singleton.1 hm).symm
    outcome := rfl
    step := step_ask (w := { w with ready := ready }) hw.sound ho ha hp
    waits := fun _ => waits_of_stretch hstretch
    holds := hstretch.holder_of_hasTunnel (hw.fitting.orderly.congr rfl (put_none_stage hstage))
    forgoes := False.elim
    enlisted := fun _ => trivial
    drops := fun _ _ hl => nomatch hstage.symm.trans hl
    isOn := fun m hm => by
      cases hm
      exact .inl ⟨rfl, point, ho, hp⟩
    fits := hwork.changesFit.fits rfl }).single

/-- A call asks for a disconnect.  The connects that the request cancels belong to the same stretch:
it starts from the client without them. -/
theorem turnPart_leave (hw : w.Fit) (ho : w.core.entry t = some (.command (.fresh .disconnect)))
    (hr : ready = w.ready ∨ ready = w.ready.erase t) :
    TurnParts t w ({ w with ready := ready }.pointRecords t (.fresh .disconnect))
      (endCall t false ({ w with ready := ready }.requestDisconnect t)) := by
  have hstage : w.stage t = none := hw.sound.stage_of_entry ho
  have hprompt : ({ w with ready := ready } : Client).cancelConnects.core.backend.Prompt := by
    rw [core_cancelConnects]
    exact hw.sound.prompt
  have hstretch := stretch_queueDisconnect ({ w with ready := ready } : Client).cancelConnects t
    hprompt
  have hwork : ConnWork t _ False True _ _ := connWork_requestDisconnect { w with ready := ready } t
  -- the work starts from the client whose connects are cancelled already
  exact (RequestWork.turnPart {
    beneath := w, ready := ready, bridges := w.bridges, old := .command (.fresh .disconnect)
    new := _, acts := [.leave (.call t)], job := none, leg := _, changes := _, result := _
    after := _, skip := False, kept := True
    begins := (setTask_self (task?_of_entry ho)).symm
    entry := ⟨_, ho⟩
    turn := hr
    front := fun _ => rfl
    connWork := hwork
    reported := .refl _
    core := rfl
    old_seen := rfl
    new_seen := callTask_seen? false _
    stage := callTask_lifecycle? _ _
    plain := fun _ hm => Act.leave_ne_leg (List.mem_singleton.1 hm).symm
    outcome := rfl
    step := step_leave (w := { w with ready := ready }) hw.sound ho
    waits := fun _ => waits_of_stretch hstretch
    holds := by
      rw [core_cancelConnects] at hstretch
      exact hstretch.holder_of_hasTunnel (hw.fitting.orderly.congr rfl (put_none_stage hstage))
    forgoes := False.elim
    enlisted := fun _ => trivial
    drops := fun _ _ hl => nomatch hstage.symm.trans hl
    isOn := fun m hm => by
      cases hm
      exact .inl ⟨rfl, _, ho, rfl⟩
    fits := hwork.changesFit.fits rfl }).single

/-- A call goes on with a connect or a disconnect.  Unlike a fresh one it may find that its ticket
is void: then it ends (`drops`), and a tunnel that it made is not polled (`forgoes`). -/
theorem turnPart_resume {l : Lifecycle} (hw : w.Fit) (starts : Bool)
    (ho : w.core.entry t = some (callTask starts (.waiting l)))
    (hr : ready = w.ready ∨ ready = w.ready.erase t) :
    TurnParts t w ({ w with ready := ready }.resumeRecords t l)
      (endCall t starts ({ w with ready := ready }.resumeLifecycle t l)) := by
  have hstage : w.stage t = some l :=
    (hw.sound.stage_of_entry ho).trans (callTask_lifecycle? starts (.waiting l))
  have hstretch := stretch_resumeLifecycle { w with ready := ready } t l
    (hw.sound.stage_sound t l hstage) hw.sound.prompt
  rw [put_self (c := ({ w with ready := ready } : Client).core) hstage] at hstretch
  -- a request that goes on finds what its stage holds
  have hwork := connWork_resumeLifecycle { w with ready := ready } t l
    (stageHolds_resume hw.fitting hw.agrees hstage rfl rfl)
  exact (RequestWork.turnPart {
    beneath := w, ready := ready, bridges := w.bridges, old := callTask starts (.waiting l)
    new := _, acts := [], job := none, leg := _, changes := _, result := _, after := _
    skip := _, kept := _
    begins := (setTask_self (task?_of_entry ho)).symm
    entry := ⟨_, ho⟩
    turn := hr
    front := fun _ => rfl
    connWork := hwork
    reported := .refl _
    core := rfl
    old_seen := callTask_seen? starts _
    new_seen := callTask_seen? starts _
    stage := callTask_lifecycle? _ _
    plain := fun _ hm => nomatch hm
    outcome := rfl
    step := step_resume (w := { w with ready := ready }) hw.sound starts ho
    waits := fun _ => waits_of_stretch hstretch
    holds := hstretch.holder_of_hasTunnel hw.fitting.orderly
    forgoes := by
      rintro ⟨ticket, server, call, rfl, hvoid⟩
      exact ⟨ticket, server, call, rfl, of_decide_eq_true hvoid⟩
    enlisted := fun hin => hin (by rw [hstage]; exact Option.some_ne_none l)
    drops := fun m n hm hn hlt => by
      cases hstage.symm.trans hm
      exact hstretch.stage?_of_void hn hlt
    isOn := fun m hm => by
      cases hm
      exact .inl ⟨rfl, _, ho, callTask_lifecycle? starts (.waiting l)⟩
    fits := fits_resume hwork.changesFit _ none }).single

/-- A start that fetches the catalog: it waits, ends, or asks for a connect. -/
theorem turnParts_asLoad_start (hw : w.Fit) (ho : w.core.entry t = some (.command point))
    (ha : point.asks? = some .best) (hp : (Task.command point).lifecycle? = none)
    (hst : point.starts = true) (hr : ready = w.ready ∨ ready = w.ready.erase t)
    {r : Client × Progress (Call (List Server)) (Except BackendError (List Server))}
    (hl : ConnKept { w with ready := ready } r.1) (hq : Quiet w.core r.1.core)
    (hk : ∀ call, r.2 = .waiting call → call.Runs .servers) :
    TurnParts t w (startRecords t r)
      ((asLoad t true r).1.setTask t (pointTask (asLoad t true r).2)) := by
  rcases r with ⟨v, call | answer⟩
  · -- the servers have not come
    refine turnPart_idles (r := (v, .waiting (.loading true call))) hw ho hp hr ?_ hl
    refine ⟨hq, rfl, ?_, hk call rfl⟩
    intro p he
    cases he
    exact hst.symm
  · -- the client when the catalog is there
    have hq' : Quiet w.core (v.commitCatalog answer).1.core :=
      hq.trans (quiet_commitCatalog v answer)
    have hl' := hl.trans (connKept_commitCatalog v t answer)
    rw [show asLoad t true (v, .done answer) = (v.commitCatalog answer).1.continueStart t from rfl,
      show startRecords t (v, .done answer) =
        if (v.commitCatalog answer).1.session.settings.autoConnect then
          ((v.commitCatalog answer).1.say .autoConnecting).askRecords t .best else [] from rfl]
    generalize (v.commitCatalog answer).1 = u at hq' hl'
    unfold continueStart
    split
    · -- two parts: what the catalog does, and then the connect
      have hs : ConnKept { w with ready := ready } (u.say .autoConnecting) :=
        hl'.trans (connKept_say _ _)
      have hqs : Quiet w.core (u.say .autoConnecting).core := hq'
      have hself := setTask_self (task?_of_entry ho)
      have ho' : (u.say .autoConnecting).core.entry t = some (.command point) := by
        rw [hqs.entry_eq, ho]
      have hself' := setTask_self (task?_of_entry ho')
      have hstage : w.stage t = none := (hw.sound.stage_of_entry ho).trans hp
      have hsilent := turnPart_silent (.command point) (.command point) hs
        (not_poller_of_entry ho) rfl rfl hr (by rw [hself]; exact hstage) hp
        (by rw [hself, hself']; exact hqs.steps) fun _ _ => rfl
      rw [hself, hself'] at hsilent
      have hask := turnPart_ask (hw.steps hqs.steps) ho' ha hp (.inl rfl)
      rw [hst] at hask
      rw [asStart_eq]
      exact .head hsilent hask
    · -- no connect is asked for
      exact turnPart_idles (r := (u, .done (.started none))) hw ho hp hr (.reply hq') hl'

/-- A command runs. One that has no share of the connection is a silent part; all others ask for a
request or go on with theirs. -/
theorem turnParts_runCommand (hw : w.Fit) (ho : w.core.entry t = some (.command point))
    (hr : ready = w.ready ∨ ready = w.ready.erase t) :
    TurnParts t w ({ w with ready := ready }.pointRecords t point)
      ({ w with ready := ready }.runCommand t point) := by
  have hs := hw.sound
  have hsound := hs.entry t _ ho
  -- a command that is no request has no share of the connection
  have hkept := fun h : OffConnection point.shares =>
    connKept_runPoint { w with ready := ready } t h
  rw [runCommand_eq]
  cases point with
  | fresh command =>
    cases command with
    | connect id | quickConnect | reconnect =>
      rw [runPoint, begin, asLifecycle_eq]
      exact turnPart_ask hw ho rfl rfl hr
    | disconnect =>
      rw [runPoint, begin, asLifecycle_eq]
      exact turnPart_leave hw ho hr
    | start =>
      have hq := quiet_startCall { w with ready := ready } t .servers hs.prompt rfl
      exact turnParts_asLoad_start hw ho rfl rfl rfl hr (connKept_startCall _ t .servers) hq.1 hq.2
    | write p =>
      exact turnPart_idles hw ho rfl hr
        (writes_requestWrite { w with ready := ready } t p hs.prompt).idles
        (hkept (show OffConnection [.settings] by decide))
    | fetchServers =>
      have hq := quiet_startCall { w with ready := ready } t .servers hs.prompt rfl
      exact turnPart_idles hw ho rfl hr (idles_asLoad hq.1 hq.2)
        (hkept (show OffConnection [.catalog] by decide))
    | fetchStats =>
      have hq := looks_fetchStats { w with ready := ready } t hs.prompt
      exact turnPart_idles hw ho rfl hr (idles_asSample hq.1 fun _ hk => ⟨_, (hq.2 _ hk).1⟩)
        (hkept (show OffConnection [.statistics] by decide))
    | version =>
      have hq := quiet_startCall { w with ready := ready } t .version hs.prompt rfl
      exact turnPart_idles hw ho rfl hr (idles_asVersion hq.1 hq.2)
        (hkept (show OffConnection [] by decide))
    | toggleFavorite id =>
      exact turnPart_idles hw ho rfl hr (idles_toggleFavorite { w with ready := ready } id)
        (hkept (show OffConnection [.catalog] by decide))
    | isFavorite | find | favorites | recents | catalog | settings | status | snapshot | reject =>
      exact turnPart_idles hw ho rfl hr (.reply .refl) (.refl _)
  | lifecycle l =>
    rw [runPoint, asLifecycle_eq]
    exact turnPart_resume hw false ho hr
  | starting l =>
    rw [runPoint, asStart_eq]
    exact turnPart_resume hw true ho hr
  | loading starts call =>
    have hq := quiet_resumeCall { w with ready := ready } t hsound rfl
    cases starts with
    | true =>
      exact turnParts_asLoad_start hw ho rfl rfl rfl hr (connKept_resumeCall _ t call) hq.1 hq.2
    | false =>
      exact turnPart_idles hw ho rfl hr (idles_asLoad hq.1 hq.2)
        (hkept (show OffConnection [.catalog] by decide))
  | writing p =>
    have h := writes_resumeWrite { w with ready := ready } t hsound hs.prompt
    exact turnPart_idles hw ho rfl hr h.idles
      (hkept (show OffConnection [.settings] by decide))
  | sampling call =>
    have hq := looks_resumeStats { w with ready := ready } t hsound
    exact turnPart_idles hw ho rfl hr (idles_asSample hq.1 fun _ hk => (hq.2 _ hk).1 ▸ hsound)
      (hkept (show OffConnection [.statistics] by decide))
  | asking call =>
    have hq := quiet_resumeCall { w with ready := ready } t hsound rfl
    exact turnPart_idles hw ho rfl hr (idles_asVersion hq.1 hq.2)
      (hkept (show OffConnection [] by decide))

end Commands

/-! ### Receivers -/

section Receivers

variable {b : BridgeId}

/-- Changing a bridge and waking tasks may come in either order. -/
theorem setBridge_wakeAll (w : Client) (ts : List TaskId) (b : BridgeId) (f : Bridge → Bridge) :
    (w.setBridge b f).wakeAll ts = (w.wakeAll ts).setBridge b f := by
  unfold wakeAll
  induction ts generalizing w with
  | nil => rfl
  | cons t ts ih =>
    rw [List.foldl_cons, List.foldl_cons, ← ih]
    congr 1
    unfold wake
    rw [show (w.setBridge b f).hasEnded t = w.hasEnded t from rfl,
      show (w.setBridge b f).ready = w.ready from rfl]
    split <;> rfl

/-- Taking a trigger has its effects on the bridge as it is then, which is why the bridges are free
here. -/
theorem connEffects_receive (w : Client) (t : TaskId) (b : BridgeId) (bridge : Bridge)
    (e : Trigger) :
    ∃ bridges, ConnEffects t { w with bridges := bridges } [] (w.receive b bridge e) := by
  have hand : ∀ (u : Client) (job : Job), ∃ bridges,
      ConnKept { u with bridges := bridges } (u.handOver b bridge job) :=
    fun u job => ⟨_, connKept_wakeWorker (u.setBridge b _) bridge⟩
  cases e with
  | navigate path =>
    unfold receive
    dsimp only
    split
    · exact ⟨_, (connKept_say (w.setBridge b _) _).connEffects⟩
    · exact ⟨w.bridges, ((connKept_say w _).trans (connKept_say _ _)).connEffects⟩
  | quickConnect | connect =>
    obtain ⟨bridges, h⟩ := hand (w.say _) _
    exact ⟨bridges, ((connKept_say { w with bridges := bridges } _).trans h).connEffects⟩
  | disconnect =>
    -- the job may as well be on the list before the connects are cancelled
    refine ⟨w.bridges.modify b fun r => { r with jobs := r.jobs ++ [⟨.disconnect, w.epoch⟩] }, ?_⟩
    unfold receive handOver
    dsimp only
    rw [show ∀ f, (w.say (.triggered .disconnect)).cancelConnects.setBridge b f =
      ((w.say (.triggered .disconnect)).setBridge b f).cancelConnects from
      fun f => (setBridge_wakeAll _ _ b f).symm]
    refine ConnEffects.trans (connKept_say _ (.triggered .disconnect)).connEffects ?_
    exact ConnEffect.cancel.single.trans (connKept_wakeWorker _ bridge).connEffects

/-- A trigger is taken. It makes requests at most, and the work on these is their worker's. -/
theorem turnPart_receive (hw : w.Fit) (ho : w.core.entry t = some (.receiver b))
    (hb : b < w.core.bridges.length) (bridge : Bridge) (e : Trigger) :
    TurnPart t w ((triggerActs b e).map .plain) (w.receive b bridge e) := by
  have hself := setTask_self (task?_of_entry ho)
  have ho' : (w.receive b bridge e).core.entry t = some (.receiver b) := by
    rw [(receive_frame w b bridge e).2]
    exact ho
  have hself' := setTask_self (task?_of_entry ho')
  -- a receiver takes triggers, and works on nothing
  have hno : ∀ l, .leg l ∉ triggerActs b e := by
    intro l hl
    cases e <;> cases hl <;> rename_i hl <;> cases hl
  have hplain : ∀ x ∈ (triggerActs b e).map Record.plain, ∀ l, x.act ≠ .leg l := by
    intro x hx l hl
    obtain ⟨act, hact, rfl⟩ := List.mem_map.1 hx
    exact hno l (hl ▸ hact)
  obtain ⟨bridges, hs⟩ := connEffects_receive w t b bridge e
  constructor
  · refine ⟨w, w.receive b bridge e, w.ready, bridges, .receiver b, .receiver b, hself.symm,
      hself'.symm, not_poller_of_entry ho, not_poller_of_entry ho', rfl, rfl, .inl rfl, ?_⟩
    rw [changesIn_plain]
    exact hs
  · rw [map_act_plain]
    rcases step_receive hb bridge e with ⟨hn, h⟩ | h
    · exact .inl ⟨by rw [hn]; rfl, hw.sound.stage_of_entry ho, h⟩
    · exact .inr h
  · intro l k hl
    rw [← hself'] at hl
    cases stage_setTask_self hl
  · intro l hl
    rw [← hself'] at hl
    cases stage_setTask_self hl
  · intro l k hl
    rw [← hself] at hl
    cases stage_setTask_self hl
  · exact fun _ => ⟨hw.sound.stage_of_entry ho,
      congrArg (·.bind Task.lifecycle?) (task?_of_entry ho')⟩
  · exact fun x hx l hl => absurd hl (hplain x hx l)
  · exact fun x hx l hl => absurd hl (hplain x hx l)
  · exact fun x hx l _ hl => absurd hl (hplain x hx l)
  · exact fun x hx l hl => absurd hl (hplain x hx l)
  · intro x hx
    obtain ⟨act, hact, rfl⟩ := List.mem_map.1 hx
    exact Record.fits_plain fun l hl => hno l (hl ▸ hact)
  · exact fun h => absurd ho (h b)

/-- All triggers that wait are taken. -/
theorem turnParts_receiveAll (hw : w.Fit) (ho : w.core.entry t = some (.receiver b))
    (hb : b < w.core.bridges.length) (bridge : Bridge) (es : List Trigger) :
    TurnParts t w ((es.flatMap (triggerActs b)).map .plain)
        (es.foldl (fun w e => w.receive b bridge e) w) ∧
      (es.foldl (fun w e => w.receive b bridge e) w).core.entry t = some (.receiver b) := by
  induction es generalizing w with
  | nil => exact ⟨.refl _, ho⟩
  | cons e es ih =>
    obtain ⟨hl, he⟩ := receive_frame w b bridge e
    have hpart := turnPart_receive hw ho hb bridge e
    have hfit := hw.steps hpart.steps
    obtain ⟨hs, hes⟩ := ih hfit (he ▸ ho) (hl ▸ hb)
    rw [List.flatMap_cons, List.map_append, List.foldl_cons]
    exact ⟨.head hpart hs, hes⟩

/-- A receiver changes its bridge and nothing else. -/
theorem turnPart_setBridge (hw : w.Fit) (ho : w.core.entry t = some (.receiver b))
    (hr : ready = w.ready ∨ ready = w.ready.erase t) {f : Bridge → Bridge}
    (hf : ∀ r, (f r).worker = r.worker) (hj : ∀ r, (f r).jobs = r.jobs) :
    TurnPart t w [] ({ w with ready := ready }.setBridge b f) := by
  have hself := setTask_self (task?_of_entry ho)
  have hself' := setTask_self (w := { w with ready := ready }.setBridge b f) (task?_of_entry ho)
  have h := turnPart_silent (w := w) (t := t) (.receiver b) (.receiver b)
    (.refl ({ w with ready := ready }.setBridge b f)) (not_poller_of_entry ho) rfl rfl hr
    (by rw [hself]; exact hw.sound.stage_of_entry ho) rfl
    (by rw [hself, hself']; exact steps_setBridge w b hf hj)
    fun hno => absurd (by rw [hself]; exact ho) (hno b)
  rwa [hself, hself'] at h

/-- A receiver ends. -/
theorem turnPart_endReceiver (hw : w.Fit) (ho : w.core.entry t = some (.receiver b))
    (hr : ready = w.ready ∨ ready = w.ready.erase t) {u : Client}
    (hu : ConnKept { w with ready := ready } u) (hc : u.core = w.core) (bridge : Bridge) :
    TurnPart t w [] (u.endReceiver t b bridge) := by
  have hself := setTask_self (task?_of_entry ho)
  have hsteps := steps_endReceiver (w := u) (t := t) (b := b) (hc ▸ hw.sound) (hc ▸ ho) bridge
  rw [hc] at hsteps
  unfold endReceiver at hsteps ⊢
  have hl := (hu.setBridge b fun r =>
    { r with triggers := { r.triggers.close with queue := [] }, hasReceiver := false }).trans
    (connKept_wakeWorker _ bridge)
  have h := turnPart_silent (w := w) (.receiver b) (.ended .finished) hl
    (not_poller_of_entry ho) rfl rfl hr (by rw [hself]; exact hw.sound.stage_of_entry ho) rfl
    (by rw [hself]; exact hsteps) fun hno => absurd (by rw [hself]; exact ho) (hno b)
  rwa [hself] at h

/-- A receiver runs: each trigger that it takes is a part, and so is its end, if it ends. -/
theorem turnParts_runReceiver (hw : w.Fit) (ho : w.core.entry t = some (.receiver b))
    (hr : ready = w.ready ∨ ready = w.ready.erase t) :
    TurnParts t w ({ w with ready := ready }.receiverRecords b)
      ({ w with ready := ready }.runReceiver t b) := by
  have hself := setTask_self (task?_of_entry ho)
  unfold runReceiver receiverRecords receiverActs
  cases hb : ({ w with ready := ready } : Client).bridge? b with
  | none =>
    refine TurnPart.single ?_
    have h := turnPart_silent (w := w) (t := t) (.receiver b) (.ended .finished)
      (.refl { w with ready := ready }) (not_poller_of_entry ho) rfl rfl hr
      (by rw [hself]; exact hw.sound.stage_of_entry ho) rfl
      (by rw [hself]; exact steps_finish hw.sound ho (.receiver b) rfl) fun _ _ => rfl
    rwa [hself] at h
  | some bridge =>
    dsimp only
    split
    · exact (turnPart_endReceiver hw ho hr (.refl _) rfl bridge).single
    · have hlt : b < w.core.bridges.length := (List.getElem?_eq_some_iff.1 hb).1
      -- the client when the queue is empty and nothing was taken yet
      generalize hv : ({ w with ready := ready } : Client).setBridge b _ = v
      have hq : TurnPart t w [] v := by
        rw [← hv]
        exact turnPart_setBridge hw ho hr (fun _ => rfl) (fun _ => rfl)
      have hvo : v.core.entry t = some (.receiver b) := by
        rw [← hv]
        exact ho
      have hvb : b < v.core.bridges.length := by
        rw [← hv]
        exact Nat.lt_of_lt_of_eq hlt (List.length_modify _ _ _).symm
      have hvf := hw.steps hq.steps
      obtain ⟨hall, he⟩ := turnParts_receiveAll hvf hvo hvb bridge bridge.triggers.queue
      have hu := TurnParts.head hq hall
      split
      · exact hu
      · have hend := turnPart_endReceiver (hvf.steps hall.steps) he (.inl rfl)
          (connKept_say _ .triggersClosed) rfl bridge
        have h := hu.trans hend.single
        rwa [List.append_nil] at h

end Receivers

/-! ### Workers -/

section Workers

variable {b : BridgeId}

/-- Taking jobs off a list leaves the rest of the bridge as it was. -/
theorem map_front_modify {bs : List Bridge} {rest : List Job} (b c : BridgeId) :
    ((bs.modify b fun r => { r with jobs := rest })[c]?).map Bridge.front =
      (bs[c]?).map Bridge.front := by
  rw [List.getElem?_modify]
  cases bs[c]? with
  | none => rfl
  | some r =>
    by_cases h : b = c
    · simp [h, Bridge.front]
    · simp [h]

/-- While a worker works, its task stays in the table as `k`, what it was before the turn. -/
structure IsWritten (w : Client) (t : TaskId) (k : Task) : Prop where
  lt : t < w.core.size
  entry : w.core.entry t = some k
  looking : w.core.looking t = none

theorem IsWritten.congr {k : Task} (h : w.IsWritten t k) (hc : u.core = w.core) :
    u.IsWritten t k :=
  ⟨hc ▸ h.lt, hc ▸ h.entry, hc ▸ h.looking⟩

/-- Work on a request does not write the task of the worker. -/
theorem ConnEffects.entry {σ : List StateChange} {k : Task} (h : ConnEffects t v σ u)
    (ho : v.core.entry t = some k) : u.core.entry t = some k :=
  entry_of_task? ((h.kept.task t k (seen?_of_entry ho)).2 (task?_of_entry ho)) (seen?_of_entry ho)

/-- A worker has nothing to do, and waits or ends. -/
theorem turnParts_idleWorker {k k' : Task} (hw : (w.setTask t (.worker b none)).Fit)
    (h : w.IsWritten t k) (hr : ready = w.ready ∨ ready = w.ready.erase t)
    (hk : k' = .worker b none ∨ k' = .ended .finished) :
    TurnParts t (w.setTask t (.worker b none)) [] ({ w with ready := ready }.setTask t k') := by
  have hs := hw.sound
  rw [core_setTask_idle h.lt h.looking] at hs
  obtain ⟨hwait, hend⟩ := steps_idleWorker hs h.lt
  rw [← core_setTask_idle h.lt h.looking] at hwait hend
  have hn : (w.setTask t (.worker b none)).stage t = none := by
    show (w.setTask t (.worker b none)).core.stage t = none
    rw [core_setTask_idle h.lt h.looking]
    exact put_stage_self _ _ _
  refine (turnPart_silent _ _ (.refl { w with ready := ready })
    (not_poller_of_entry h.entry) rfl ?_ hr
    hn ?_ ?_ fun _ _ => rfl).single
  · rcases hk with rfl | rfl <;> rfl
  · rcases hk with rfl | rfl <;> rfl
  · -- it waits on, or its bridge is closed and it ends
    rcases hk with rfl | rfl
    · exact hwait
    · exact hend

/-- A worker takes the next job of its bridge, and reports what it came to if it is through
(`u`). -/
theorem turnPart_beginJob {k : Task} {bridge : Bridge} {job : Job} {rest : List Job}
    (hw : (w.setTask t (.worker b none)).Fit) (h : w.IsWritten t k)
    (hr : ready = w.ready ∨ ready = w.ready.erase t)
    (hb : ({ w with ready := ready } : Client).bridge? b = some bridge)
    (hj : bridge.jobs = job :: rest)
    (hv : ({ w with ready := ready } : Client).setBridge b (fun r => { r with jobs := rest }) = v)
    (hu : ConnKept (v.beginJob t job).1 u) (hc : u.core = (v.beginJob t job).1.core) :
    TurnPart t (w.setTask t (.worker b none))
      [⟨v.leg (.bridge b) none (v.beginJob t job), some job, v.jobChanges t job⟩]
      (u.setTask t (jobTask b job (v.beginJob t job).2)) ∧ u.IsWritten t k := by
  have hidle := core_setTask_idle (b := b) h.lt h.looking
  have hsound := hw.sound
  rw [hidle] at hsound
  obtain ⟨hstep, hlt, hlook⟩ := step_beginJob (w := { w with ready := ready })
    (t := t) hsound hb hj hv
  rw [core_setTask_congr hc.symm _ hlt,
    show ({ w with ready := ready } : Client).core.idle t b = _ from hidle.symm] at hstep
  have hstage : (w.setTask t (.worker b none)).stage t = none := by
    show (w.setTask t (.worker b none)).core.stage t = none
    rw [hidle]
    exact put_stage_self _ _ _
  -- the job finds what any fresh request finds
  have hwork : ConnWork t v False True (v.jobChanges t job) (v.beginJob t job) :=
    connWork_beginJob v t job fun target =>
      stageHolds_begin hw.fitting hw.agrees hstage (by rw [← hv]; rfl) (by rw [← hv]; rfl) target _
  have hentry : v.core.entry t = some k := by
    rw [← hv]
    exact h.entry
  refine ⟨?_, .congr ⟨hlt, hwork.connEffects.entry hentry, hlook⟩ hc⟩
  subst hv
  -- to the core, the work starts from a worker that has nothing to do
  have hstretch := stretch_beginJob (({ w with ready := ready } : Client).setBridge b
    fun r => { r with jobs := rest }) t job hsound.prompt
  exact RequestWork.turnPart {
    beneath := w, ready := ready, bridges := _, old := .worker b none, new := _, acts := []
    job := some job, leg := _, changes := _, result := _, after := u, skip := False, kept := True
    begins := rfl
    entry := ⟨k, h.entry⟩
    turn := hr
    front := fun c => map_front_modify b c
    connWork := hwork
    reported := hu
    core := hc
    old_seen := rfl
    new_seen := jobTask_seen? _ _ _
    stage := jobTask_lifecycle? _ _ _
    plain := fun _ hm => nomatch hm
    outcome := rfl
    step := hstep
    waits := fun _ => waits_of_stretch hstretch
    holds := by
      refine hstretch.holder_of_hasTunnel (hw.fitting.orderly.congr rfl ?_)
      rw [hidle]
      rfl
    forgoes := False.elim
    enlisted := fun _ => trivial
    drops := fun _ _ hm => nomatch hstage.symm.trans hm
    isOn := fun m hm => by
      cases hm
      refine .inr ⟨b, job, rfl, rfl, ?_, bridge, rest, hb, hj⟩
      rw [hidle]
      exact Function.update_self _ _ _
    fits := hwork.changesFit.fits rfl }

/-- Jobs are carried out until one waits or none is left, each a part of its own. The induction is
on how many jobs the turn may take. -/
theorem turnParts_carryOut {k : Task} (jobs : Nat) (hw : (w.setTask t (.worker b none)).Fit)
    (h : w.IsWritten t k) (hr : ready = w.ready ∨ ready = w.ready.erase t) :
    TurnParts t (w.setTask t (.worker b none)) (jobsRecords t b jobs { w with ready := ready })
      (carryOut t b jobs { w with ready := ready }) := by
  -- the task stays written as it was (`h`), also when the next job is taken
  induction jobs generalizing w ready with
  | zero =>
    unfold jobsRecords carryOut
    cases ({ w with ready := ready } : Client).bridge? b with
    | none => exact turnParts_idleWorker hw h hr (.inr rfl)
    | some bridge =>
      dsimp only
      split
      · exact turnParts_idleWorker hw h hr (.inl rfl)
      · exact turnParts_idleWorker hw h hr (.inr rfl)
  | succ jobs ih =>
    unfold jobsRecords carryOut
    cases hb : ({ w with ready := ready } : Client).bridge? b with
    | none => exact turnParts_idleWorker hw h hr (.inr rfl)
    | some bridge =>
      dsimp only
      cases hj : bridge.jobs with
      | nil =>
        dsimp only
        split
        · exact turnParts_idleWorker hw h hr (.inl rfl)
        · exact turnParts_idleWorker hw h hr (.inr rfl)
      | cons job rest =>
        dsimp only
        -- the client when the job is taken
        generalize hv : ({ w with ready := ready } : Client).setBridge b _ = v
        have hpart := fun u => turnPart_beginJob (u := u) hw h hr hb hj hv
        rcases hvr : v.beginJob t job with ⟨u, l | s⟩
        · rw [hvr] at hpart
          exact (hpart u (.refl _) rfl).1.single
        · rw [hvr] at hpart
          obtain ⟨hfirst, hwritten⟩ :=
            hpart _ (connKept_reportJob u job.request s) (core_reportJob u job.request s)
          exact .head hfirst (ih (hw.steps hfirst.steps) hwritten (.inl rfl))

/-- A worker goes on with the job that it has under way, and reports what it came to if it is
through (`u`). -/
theorem turnPart_resumeJob {job : Job} {l : Lifecycle} (hw : w.Fit)
    (ho : w.core.entry t = some (.worker b (some (job, l))))
    (hr : ready = w.ready ∨ ready = w.ready.erase t)
    (hv : ({ w with ready := ready } : Client) = v)
    (hu : ConnKept (v.resumeLifecycle t l).1 u) (hc : u.core = (v.resumeLifecycle t l).1.core) :
    TurnPart t w
      [⟨v.leg (.bridge b) (some l) (v.resumeLifecycle t l), some job, v.lifecycleChanges t l⟩]
      (u.setTask t (jobTask b job (v.resumeLifecycle t l).2)) ∧
      u.IsWritten t (.worker b (some (job, l))) := by
  subst hv
  have hstage : w.stage t = some l := hw.sound.stage_of_entry ho
  obtain ⟨hstep, hlt, hlook⟩ := step_resumeJob (w := { w with ready := ready }) hw.sound ho
  rw [core_setTask_congr hc.symm _ hlt] at hstep
  have hstretch := stretch_resumeLifecycle { w with ready := ready } t l
    (hw.sound.stage_sound t l hstage) hw.sound.prompt
  rw [put_self (c := ({ w with ready := ready } : Client).core) hstage] at hstretch
  -- as for a call that goes on; only the task is another one
  have hwork := connWork_resumeLifecycle { w with ready := ready } t l
    (stageHolds_resume hw.fitting hw.agrees hstage rfl rfl)
  refine ⟨?_, .congr ⟨hlt, hwork.connEffects.entry ho, hlook⟩ hc⟩
  exact RequestWork.turnPart {
    beneath := w, ready := ready, bridges := w.bridges, old := .worker b (some (job, l)), new := _
    acts := [], job := some job, leg := _, changes := _, result := _, after := u
    skip := _, kept := _
    begins := (setTask_self (task?_of_entry ho)).symm
    entry := ⟨_, ho⟩
    turn := hr
    front := fun _ => rfl
    connWork := hwork
    reported := hu
    core := hc
    old_seen := rfl
    new_seen := jobTask_seen? _ _ _
    stage := jobTask_lifecycle? _ _ _
    plain := fun _ hm => nomatch hm
    outcome := rfl
    step := hstep
    waits := fun _ => waits_of_stretch hstretch
    holds := hstretch.holder_of_hasTunnel hw.fitting.orderly
    forgoes := by
      rintro ⟨ticket, server, call, rfl, hvoid⟩
      exact ⟨ticket, server, call, rfl, of_decide_eq_true hvoid⟩
    enlisted := fun hin => hin (by rw [hstage]; exact Option.some_ne_none l)
    drops := fun m n hm hn hlt => by
      cases hstage.symm.trans hm
      exact hstretch.stage?_of_void hn hlt
    isOn := fun m hm => by
      cases hm
      exact .inr ⟨b, job, rfl, rfl, ho⟩
    fits := fits_resume hwork.changesFit _ (some job) }

/-- A worker runs. Going on with the job that is under way is the first part, and the jobs that are
taken after it are the others. -/
theorem turnParts_runWorker (hw : w.Fit) {current : Option (Job × Lifecycle)}
    (ho : w.core.entry t = some (.worker b current))
    (hr : ready = w.ready ∨ ready = w.ready.erase t) :
    TurnParts t w ({ w with ready := ready }.workerRecords t b current)
      ({ w with ready := ready }.runWorker t b current) := by
  cases current with
  | none =>
    have hself := setTask_self (task?_of_entry ho)
    have hwritten : w.IsWritten t (.worker b none) :=
      ⟨hw.sound.lt_size ho, ho, hw.sound.apart t (by simp [ho])⟩
    have h := turnParts_carryOut (({ w with ready := ready } : Client).jobCount b)
      (by rw [hself]; exact hw) hwritten hr
    rwa [hself] at h
  | some current =>
    obtain ⟨job, l⟩ := current
    -- the client when the task is taken off the ready list
    generalize hv : ({ w with ready := ready } : Client) = v
    have hpart := fun u => turnPart_resumeJob (u := u) hw ho hr hv
    unfold workerRecords runWorker
    dsimp only
    rcases hvr : v.resumeLifecycle t l with ⟨u, l' | s⟩
    · rw [hvr] at hpart
      exact (hpart u (.refl _) rfl).1.single
    · rw [hvr] at hpart
      obtain ⟨hfirst, hwritten⟩ :=
        hpart _ (connKept_reportJob u job.request s) (core_reportJob u job.request s)
      exact .head hfirst (turnParts_carryOut _ (hw.steps hfirst.steps) hwritten (.inl rfl))

end Workers

end Client

end TunnelSession
