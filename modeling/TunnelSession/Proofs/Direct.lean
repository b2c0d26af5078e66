/-
  Runs of direct calls.

  DIRECT.  In a direct run nobody opens a bridge, nobody starts the client, and no more failures are
  scripted for connects and disconnects; otherwise anything may happen.  Every request then is that
  of a task, and no task makes two.

  ORDER.  The requests and the results are read off the trace (`issuedIn`, `resultIn`).  In every
  direct run the requests take effect in the order they were issued (`InOrder`).
-/
import TunnelSession.Proofs.Linear

namespace TunnelSession

/-- What may happen in a direct run. -/
def Event.Direct : Event → Prop
  | .call command | .go command => command ≠ .start
  | .poll _ | .pass _ | .pin _ _ | .startPolling _ | .stopPolling => True
  | .fail op _ => op.isLifecycle = false
  | _ => False

/-- The request of a task. -/
def Act.issue? : Act → Option Issue
  | .ask (.call t) target => some (t, some target)
  | .leave (.call t) => some (t, none)
  | _ => none

/-- The requests of tasks, in the order they were issued. -/
def issuedIn (τ : List Act) : List Issue := τ.filterMap Act.issue?

/-- The result of the request of a task. -/
def Leg.result? (l : Leg) (t : TaskId) : Option Settled :=
  if l.source = .call t then
    match l.result with
    | .waiting _ => none
    | .done r => some r
  else none

/-- The result of the request of a task. -/
def Act.result? (t : TaskId) : Act → Option Settled
  | .leg l => l.result? t
  | _ => none

/-- What the request of a task came to. -/
def resultIn (τ : List Act) (t : TaskId) : Option Settled := τ.findSome? (Act.result? t)

@[simp] theorem issuedIn_append (τ σ : List Act) : issuedIn (τ ++ σ) = issuedIn τ ++ issuedIn σ :=
  List.filterMap_append

theorem resultIn_append (τ σ : List Act) (t : TaskId) :
    resultIn (τ ++ σ) t = (resultIn τ t).or (resultIn σ t) :=
  List.findSome?_append

theorem resultIn_singleton (act : Act) (t : TaskId) : resultIn [act] t = act.result? t := by
  unfold resultIn
  rw [List.findSome?_cons]
  cases act.result? t <;> rfl

namespace Core

variable {t : TaskId} {c c' : Core} {past acts : List Act} {start : Book}

/-- After a stretch of work of a task that had no result, the results are those `Linear` says. -/
theorem resultIn_leg {l : Leg} (hl : l.source = .call t) (hr : resultIn past t = none) :
    resultIn (past ++ [.leg l]) = resultAfter (resultIn past) t l.result := by
  funext u
  rw [resultIn_append, resultIn_singleton]
  unfold Act.result? Leg.result?
  dsimp only
  -- the task that worked, and any other
  by_cases hu : u = t
  · subst hu
    rw [if_pos hl, hr]
    cases l.result with
    | waiting b => exact hr.symm
    | done r =>
      show some r = Function.update (resultIn past) u (some r) u
      rw [Function.update_self]
  · have hne : l.source ≠ .call u := by
      rw [hl]
      exact fun he => hu (Source.call.inj he).symm
    rw [if_neg hne, Option.or_none]
    cases l.result with
    | waiting b => rfl
    | done r =>
      show resultIn past u = Function.update (resultIn past) t (some r) u
      rw [Function.update_of_ne hu]

/-- No bridge and no start takes part. -/
structure Plain (c : Core) : Prop where
  bridges : c.bridges = []
  workers : ∀ t b current, c.entry t ≠ some (.worker b current)
  starts : ∀ t p, c.entry t = some (.command p) → p.starts = false

/-- The requests of the trace take effect in the order they were issued, and the tasks that made
them say so. -/
structure InOrder (start : Book) (past : List Act) (c : Core) : Prop where
  plain : c.Plain
  linear : Linear start (issuedIn past) (resultIn past) c
  asked : ∀ x ∈ issuedIn past, ∃ p, c.entry x.1 = some (callTask false p) ∧
    ∀ r, p = .done r → resultIn past x.1 = some r
  settled : ∀ t r, resultIn past t = some r → c.entry t = some (callTask false (.done r))

/-- The tasks and the bridges stay. -/
theorem Plain.congr (h : c.Plain) (hb : c'.bridges = c.bridges) (he : c'.entry = c.entry) :
    c'.Plain := by
  refine ⟨hb.trans h.bridges, ?_, ?_⟩
  · rw [he]
    exact h.workers
  · rw [he]
    exact h.starts

/-- A task is written that made no request. -/
theorem Plain.write (h : c.Plain) {task : Task} (hw : ∀ b current, task ≠ .worker b current)
    (hs : ∀ p, task = .command p → p.starts = false) : (c.write t task).Plain := by
  -- only the task that is written can have become something else
  have hentry : ∀ u k, (c.write t task).entry u = some k → k = task ∨ c.entry u = some k := by
    intro u k hu
    by_cases he : u = t
    · subst he
      rw [show (c.write u task).entry u = some task from Function.update_self _ _ _] at hu
      exact .inl (Option.some.inj hu).symm
    · rw [show (c.write t task).entry u = c.entry u from Function.update_of_ne he _ _] at hu
      exact .inr hu
  refine ⟨h.bridges, ?_, ?_⟩
  · intro u b current hu
    rcases hentry u _ hu with he | he
    · exact hw b current he.symm
    · exact h.workers u b current he
  · intro u p hu
    rcases hentry u _ hu with he | he
    · exact hs p he.symm
    · exact h.starts u p he

/-- Who has not asked has no entry of a request. -/
theorem InOrder.not_issued (h : InOrder start past c) {old : Option Task} (ho : c.entry t = old)
    (hn : ∀ p, old ≠ some (callTask false p)) :
    t ∉ (issuedIn past).map (·.1) ∧ resultIn past t = none := by
  refine ⟨?_, ?_⟩
  · intro hm
    obtain ⟨x, hx, rfl⟩ := List.mem_map.1 hm
    obtain ⟨p, hp, -⟩ := h.asked x hx
    exact hn p (ho.symm.trans hp)
  · cases hr : resultIn past t with
    | none => rfl
    | some r => exact absurd (ho.symm.trans (h.settled t r hr)) (hn _)

/-- Nothing happens to the requests. -/
theorem InOrder.same (h : InOrder start past c) (hp : c'.Plain) (hb : c'.book = c.book)
    (ht : c'.transition = c.transition) (hs : c'.stage = c.stage) (he : c'.epoch = c.epoch)
    (hk : ∀ u p, c.entry u = some (callTask false p) → c'.entry u = some (callTask false p)) :
    InOrder start past c' := by
  refine ⟨hp, h.linear.same hb ht hs he ?_, ?_, ?_⟩
  · have ho := h.linear.orderly
    exact ⟨ht ▸ ho.wellFormed, ht ▸ ho.nodup, ht ▸ hs ▸ ho.mem, ht ▸ hs ▸ ho.active⟩
  · intro x hx
    obtain ⟨p, hp, hr⟩ := h.asked x hx
    exact ⟨p, hk _ _ hp, hr⟩
  · intro u r hr
    exact hk _ _ (h.settled u r hr)

/-- A task is written that made no request. -/
theorem InOrder.write (h : InOrder start past c) {old : Option Task} {task : Task}
    (ho : c.entry t = old) (hn : ∀ p, old ≠ some (callTask false p))
    (hw : ∀ b current, task ≠ .worker b current) (hs : ∀ p, task = .command p → p.starts = false) :
    InOrder start past (c.write t task) := by
  refine h.same (h.plain.write hw hs) rfl rfl rfl rfl ?_
  intro u p hu
  have hut : u ≠ t := by
    rintro rfl
    exact hn p (ho.symm.trans hu)
  rw [show (c.write t task).entry u = c.entry u from Function.update_of_ne hut _ _]
  exact hu

/-- A stretch of work of a task whose request is issued already. What was issued stays issued, and
the result of the work is the one more that the order has to account for. -/
theorem InOrder.stretch {issued : List Issue} {p : Progress Lifecycle Settled} {l : Leg}
    {c₁ : Core} {more : List Act} (h : InOrder start past c)
    (hm : resultIn (past ++ more) = resultIn past)
    (hi : issuedIn (past ++ more) = issued) (hl : l.source = .call t) (hp : l.result = p)
    (hr : resultIn past t = none) (hlin : Linear start issued (resultIn past) c₁)
    (hent : c'.entry = c.entry) (hbr : c'.bridges = c.bridges)
    (hiss : ∀ x ∈ issued, x ∈ issuedIn past ∨ x.1 = t) (ht : Travel t c₁ p c') :
    InOrder start (past ++ more ++ [.leg l]) (c'.write t (callTask false p)) := by
  have hres : resultIn (past ++ more ++ [.leg l]) = resultAfter (resultIn past) t p := by
    rw [resultIn_leg hl (by rw [hm]; exact hr), hm, hp]
  have hother : ∀ u, u ≠ t → (c'.write t (callTask false p)).entry u = c.entry u := by
    intro u hu
    rw [← hent]
    exact Function.update_of_ne hu _ _
  have hself : (c'.write t (callTask false p)).entry t = some (callTask false p) :=
    Function.update_self _ _ _
  have hlin' := hlin.travel ht
  -- no start and no worker; the order; what was issued has an entry; what was settled has one
  refine ⟨(h.plain.congr hbr hent).write ?_ ?_, ?_, ?_, ?_⟩
  · intro b current he
    cases p <;> cases he
  · intro q he
    cases p with
    | waiting l' =>
      cases he
      rfl
    | done r => cases he
  · rw [issuedIn_append, hi, show issuedIn [Act.leg l] = [] from rfl, List.append_nil, hres]
    refine hlin'.same rfl rfl rfl rfl ?_
    have ho := hlin'.orderly
    exact ⟨ho.wellFormed, ho.nodup, ho.mem, ho.active⟩
  · rw [issuedIn_append, hi, show issuedIn [Act.leg l] = [] from rfl, List.append_nil]
    intro x hx
    -- the task that worked has a new entry, and perhaps a result
    by_cases hxt : x.1 = t
    · refine ⟨p, by rw [hxt]; exact hself, ?_⟩
      rintro r rfl
      rw [hres, hxt]
      exact Function.update_self _ _ _
    · obtain ⟨q, hq, hqr⟩ := h.asked x ((hiss x hx).resolve_right hxt)
      refine ⟨q, (hother _ hxt).trans hq, fun r he => ?_⟩
      rw [hres, resultAfter_of_ne hxt]
      exact hqr r he
  · intro u r hu
    rw [hres] at hu
    by_cases hut : u = t
    · subst hut
      cases p with
      | waiting l' =>
        rw [show resultAfter (resultIn past) u (.waiting l') u = resultIn past u from rfl, hr] at hu
        cases hu
      | done r' =>
        rw [show resultAfter (resultIn past) u (.done r') u = some r' from
          Function.update_self _ _ _]
          at hu
        cases hu
        exact hself
    · rw [resultAfter_of_ne hut] at hu
      rw [hother u hut]
      exact h.settled u r hu

/-- A task issues its request, and works on it. -/
theorem InOrder.issue {act : Act} {g : Option Target} {p : Progress Lifecycle Settled} {l : Leg}
    {c₁ : Core} (h : InOrder start past c) (hi : issuedIn [act] = [(t, g)])
    (hn : resultIn [act] = fun _ => none) (hl : l.source = .call t) (hp : l.result = p)
    (hr : resultIn past t = none)
    (hlin : Linear start (issuedIn past ++ [(t, g)]) (resultIn past) c₁)
    (hent : c'.entry = c.entry) (hbr : c'.bridges = c.bridges) (ht : Travel t c₁ p c') :
    InOrder start (past ++ [act, .leg l]) (c'.write t (callTask false p)) := by
  rw [List.append_cons]
  refine h.stretch ?_ ?_ hl hp hr hlin hent hbr ?_ ht
  · funext u
    rw [resultIn_append, hn]
    exact Option.or_none
  · rw [issuedIn_append, hi]
  · intro x hx
    rcases List.mem_append.1 hx with hx | hx
    · exact .inl hx
    · cases List.mem_singleton.1 hx
      exact .inr rfl

/-- A command that may still ask has not asked yet. -/
theorem callTask_ne_of_asks {p : Point} {target : Target} (h : p.asks? = some target)
    (q : Progress Lifecycle Settled) : some (Task.command p) ≠ some (callTask false q) := by
  intro he
  cases q with
  | waiting l =>
    cases he
    cases h
  | done r => cases he

/-- Who may ask for a connect asks for it directly. -/
theorem callTask_ne_of_turns {old task : Task} (h : old.Turns task)
    (q : Progress Lifecycle Settled) : some old ≠ some (callTask false q) := by
  intro he
  cases h with
  | wait h | reply h =>
    cases q with
    | waiting l =>
      cases he
      cases h
    | done r => cases he
  | receiver | worker => cases q <;> cases he

/-- No bridge comes to be aside. -/
theorem Aside.bridges_nil (ha : Aside c c') (h : c.bridges = []) : c'.bridges = [] := by
  cases ha with
  | look hl => cases hl <;> exact h
  | bridge bs hb =>
    refine List.eq_nil_iff_forall_not_mem.2 fun r hr => ?_
    obtain ⟨b, hlt, rfl⟩ := List.getElem_of_mem hr
    have hsame := hb b
    rw [h, List.getElem?_eq_getElem hlt] at hsame
    cases hsame
  | _ => exact h

/-- What leaves the connection alone keeps the order. -/
theorem InOrder.aside (h : InOrder start past c) (ha : Aside c c') : InOrder start past c' := by
  have hlink := ha.sameLink
  have hbridges : c'.bridges = c.bridges :=
    (ha.bridges_nil h.plain.bridges).trans h.plain.bridges.symm
  refine h.same (h.plain.congr hbridges ha.entry_eq) ha.book_eq hlink.transition hlink.stage
    ha.epoch_eq ?_
  intro u p hu
  rw [ha.entry_eq]
  exact hu

/-- Every step of a direct run keeps the order. Steps of workers and receivers do not occur, as
there is no bridge. -/
theorem InOrder.step (h : InOrder start past c) (hs : Step c acts c') :
    InOrder start (past ++ acts) c' := by
  cases hs with
  | aside ha =>
    rw [List.append_nil]
    exact h.aside ha
  | @turn t old task ho ht _ =>
    rw [List.append_nil]
    refine h.write ho (callTask_ne_of_turns ht) ?_ ?_
    · rintro b current rfl
      cases ht
    · rintro p rfl
      cases ht with
      | wait _ _ hs => exact hs.trans (h.plain.starts t _ ho)
  | @retire t ho _ =>
    rw [List.append_nil]
    have hw : InOrder start past (c.write t (.ended .finished)) := by
      refine h.write ho (fun _ he => nomatch he) (fun _ _ he => nomatch he) fun _ he => nomatch he
    exact hw.same ⟨hw.plain.bridges, hw.plain.workers, hw.plain.starts⟩ rfl rfl rfl rfl
      fun _ _ hu => hu
  | takeAsk hb | takeLeave hb =>
    -- there is no bridge to take a trigger from
    rw [h.plain.bridges] at hb
    cases hb
  | @ask t point target p c' ho ha hst =>
    -- the connect takes its ticket now, so it is valid
    obtain ⟨hn, hr⟩ := h.not_issued ho (callTask_ne_of_asks ha)
    have hstarts : point.starts = false := h.plain.starts t point ho
    have hnear := hst.near
    cases hst with
    | refuse hs hv => exact absurd hv (Nat.lt_irrefl _)
    | connect hs _ ht =>
      rw [hstarts]
      refine h.issue rfl rfl rfl rfl hr ?_ hnear.entry hnear.bridges ht
      exact h.linear.ask hs hn hr target
  | @leave t p c' ho hst =>
    -- issuing a disconnect makes every ticket void
    have hne : ∀ q, some (Task.command (.fresh .disconnect)) ≠ some (callTask false q) := by
      intro q he
      cases q <;> cases he
    obtain ⟨hn, hr⟩ := h.not_issued ho hne
    have hnear := hst.near
    cases hst with
    | disconnect hs ht =>
      refine h.issue rfl rfl rfl rfl hr ?_ hnear.entry hnear.bridges ht
      exact h.linear.leave hs hn hr
  | @resume t l p c' starts ho hst =>
    -- no new request: the work goes on with one that was issued
    have hstarts : starts = false := by
      cases starts with
      | false => rfl
      | true => exact absurd (h.plain.starts t _ ho) nofun
    have hnear := hst.near
    cases hst with
    | resume hs ht =>
      have hr := h.linear.unsettled t (by rw [hs]; exact nofun)
      rw [hstarts]
      have hlin : Linear start (issuedIn past) (resultIn past) c := h.linear
      have hstep : InOrder start (past ++ [] ++ [.leg (c.leg c' (.call t) (some l) p)])
          (c'.write t (callTask false p)) := by
        refine h.stretch ?_ ?_ rfl rfl hr hlin hnear.entry hnear.bridges (fun x hx => .inl hx) ht
        · rw [List.append_nil]
        · rw [List.append_nil]
      rwa [List.append_nil] at hstep
  | begin ho => exact absurd ho (h.plain.workers _ _ _)
  | carry ho => exact absurd ho (h.plain.workers _ _ _)

/-- Every change from outside in a direct run keeps the order. A new command is another task, which
has issued nothing yet. -/
theorem InOrder.outside {e : Event} (h : InOrder start past c) (hc : c.Sound) (he : e.Direct)
    (ho : Outside c e c') : InOrder start past c' := by
  -- a new command is another task, which has issued nothing yet
  have hspawn : ∀ command : Command, command ≠ .start →
      InOrder start past (c.spawnCall command) := by
    intro command hne
    have hgrow : InOrder start past { c with size := c.size + 1 } :=
      h.same (h.plain.congr rfl rfl) rfl rfl rfl rfl fun _ _ hu => hu
    refine hgrow.write (hc.small c.size (Nat.le_refl _)).1 (fun _ hp => nomatch hp)
      (fun _ _ hp => nomatch hp) ?_
    intro p hp
    cases hp
    cases command with
    | start => exact absurd rfl hne
    | _ => rfl
  cases ho with
  | call command => exact hspawn command he
  | go command => exact hspawn command he
  | pass | pin | startPolling =>
    exact h.same (h.plain.congr rfl rfl) rfl rfl rfl rfl fun _ _ hu => hu
  | stopPolling => exact h
  | fail op e =>
    -- failures are scripted for other operations only
    refine h.same (h.plain.congr rfl rfl) ?_ rfl rfl rfl fun _ _ hu => hu
    refine book_congr ⟨rfl, rfl, rfl, rfl, rfl, rfl, rfl⟩ rfl ?_
    exact Backend.store_set_of_other he _
  | openBridge => exact absurd he id
  | bridge bs hb =>
    have hs := h.step (.aside (.bridge bs hb))
    rwa [List.append_nil] at hs

/-- Before the first request, everything is in order, whatever the book is. -/
theorem inOrder_nil (hp : c.Plain) (hs : ∀ t, c.stage t = none) (ho : c.Orderly) :
    InOrder c.book [] c where
  plain := hp
  linear := by
    have hq : c.transition.queue = [] :=
      List.eq_nil_iff_forall_not_mem.2 fun t ht => (ho.mem t).1 ht (hs t)
    refine ⟨ho, ?_, ?_, .nil, ?_, [], [], c.session.state, ?_⟩
    · intro t l k ht
      rw [hs t] at ht
      cases ht
    · intro t l k ht
      rw [hs t] at ht
      cases ht
    · exact fun t ht => absurd (hs t) ht
    · refine ⟨rfl, rfl, rfl, ?_, ?_, .inl rfl⟩
      · unfold undecided
        rw [hq]
        rfl
      · exact fun x hx => absurd hx List.not_mem_nil
  asked x hx := nomatch hx
  settled t r hr := nomatch hr

/-- The requests that were not cancelled. -/
def keptIn (τ : List Act) : List Issue := (issuedIn τ).filter fun x => !isCancelled (resultIn τ x.1)

/-- When no request is under way, those that were not cancelled had the results, and left the book
behind, that they have one after the other. -/
theorem InOrder.complete (h : InOrder start past c) (hs : ∀ t, c.stage t = none) :
    (keptIn past).map (fun x => resultIn past x.1) =
        (start.serveAll ((keptIn past).map (·.2))).1.map some ∧
      (start.serveAll ((keptIn past).map (·.2))).2 = c.book := by
  obtain ⟨done, todo, state, hp⟩ := h.linear.plan
  have ho := h.linear.orderly
  have hq : c.transition.queue = [] :=
    List.eq_nil_iff_forall_not_mem.2 fun t ht => (ho.mem t).1 ht (hs t)
  have hout : ∀ t, c.outcome (resultIn past) t = resultIn past t := by
    intro t
    unfold outcome
    rw [hs t, Option.bind_none, Option.or_none]
  -- nobody is in line, so the plan has nothing left to do
  have hkept : keptIn past = done := by
    have htodo : todo = [] := by
      have hqueue := hp.queue
      unfold undecided at hqueue
      rw [hq, List.filter_nil] at hqueue
      exact List.map_eq_nil_iff.1 hqueue
    have hsplit := hp.split
    unfold kept at hsplit
    simp only [hout] at hsplit
    rw [htodo, List.append_nil] at hsplit
    exact hsplit
  -- and nobody is going to overwrite the state
  have hstate : state = c.session.state := by
    refine hp.state.resolve_right ?_
    rintro ⟨u, l, hu, -⟩
    rw [hs u] at hu
    cases hu
  rw [hkept]
  refine ⟨?_, ?_⟩
  · rw [← hp.results]
    exact List.map_congr_left fun x _ => (hout x.1).symm
  · rw [hp.book, hstate]
    rfl

end Core

namespace Client

/-- In every direct run the requests take effect in the order they were issued. -/
theorem inOrder_after {w : Client} {start : Book} {past : List Act} (hs : w.core.Sound)
    (h : Core.InOrder start past w.core) (events : List Event) (hd : ∀ e ∈ events, e.Direct) :
    (w.after events).core.Sound ∧
      Core.InOrder start (past ++ w.trace events) (w.after events).core :=
  invariant_after (fun _ _ _ _ _ h hs => h.step hs) (fun _ _ _ _ hp hc h ho => h.outside hc hp ho)
    hs past h events hd

end Client

end TunnelSession
