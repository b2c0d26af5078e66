/-
  A direct disconnect does not wait for a connect.

  VOID.  A direct disconnect makes every ticket void before it joins the line, and whoever asks
  later comes behind it.  So all connects in front of it have void tickets (`Core.Yields`): they are
  woken, and go at their next turn.

  AT ONCE.  If no other disconnect is in front of it, it stays so (`Core.Behind`), and the one who
  has the connection is a connect that is woken.  So there is no point at which no task can run, and
  with every turn of the scheduler the one who has the connection comes closer to its own, after
  which one less is in front.
-/
import Mathlib.Data.List.Infix
import TunnelSession.Proofs.Arrival
import TunnelSession.Proofs.Waking

namespace TunnelSession

/-- Does the disconnect call the backend in this stretch of work? -/
def Leg.HangsUp (l : Leg) : Prop :=
  l.backend'.calls.get .disconnect = l.backend.calls.get .disconnect + 1

/-- In `τ`, the disconnect of the call has called the backend. -/
def HungUpIn (t : TaskId) (τ : List Act) : Prop := ∃ l, .leg l ∈ τ ∧ l.source = .call t ∧ l.HangsUp

theorem HungUpIn.append {t : TaskId} {τ : List Act} (h : HungUpIn t τ) (more : List Act) :
    HungUpIn t (τ ++ more) := by
  obtain ⟨l, hl, hs⟩ := h
  exact ⟨l, List.mem_append_left _ hl, hs⟩

theorem HungUpIn.prepend {t : TaskId} {τ : List Act} (h : HungUpIn t τ) (past : List Act) :
    HungUpIn t (past ++ τ) := by
  obtain ⟨l, hl, hs⟩ := h
  exact ⟨l, List.mem_append_right _ hl, hs⟩

namespace Core

variable {t u v : TaskId} {c c₀ c' : Core} {p : Progress Lifecycle Settled} {start : Start}
  {task : Task} {acts past : List Act} {front : List TaskId}

/-! ## A disconnect that goes on -/

/-- The backend is called once: what waits on it only takes the answer. -/
theorem Travel.calls_of_hangingUp {call : Call Unit} (h : Travel t c p c')
    (hs : c.stage t = some (.hangingUp call)) : c'.backend.calls = c.backend.calls := by
  cases h with
  | stay => rfl
  | settle h =>
    cases h with
    | close _ _ ha | fail _ _ ha =>
      have hf := Backend.answer_frame c.backend c.now .disconnect
      rw [ha] at hf
      exact hf.2.2.2.2.2
    | drop hk | noServer hk | abort hk | refuse hk | arrive _ hk =>
      rw [hs] at hk
      cases hk
  | move h =>
    cases h with
    | dial hk | connect hk | look hk | hangUp hk =>
      rw [hs] at hk
      cases hk

/-- A disconnect in line stays there, or calls the backend: it has no ticket that could be void, so
it calls once it has the connection. -/
theorem Travel.hangsUp (h : Travel t c p c') (hs : c.stage t = some .leaving) :
    (p = .waiting .leaving ∧ c' = c ∧ c.transition.holder ≠ some t) ∨
      c'.backend.calls.get .disconnect = c.backend.calls.get .disconnect + 1 := by
  cases h with
  | stay hk hw =>
    rw [hs] at hk
    cases hk
    exact .inl ⟨rfl, rfl, hw⟩
  | settle h =>
    cases h with
    | drop hk | noServer hk | abort hk | refuse hk | arrive _ hk | close hk | fail hk =>
      rw [hs] at hk
      cases hk
  | move h ht =>
    -- it gets the connection and calls, and no further call follows in this stretch
    cases h with
    | hangUp =>
      right
      rw [ht.calls_of_hangingUp (put_stage_self _ _ _)]
      show (c.backend.calls.set .disconnect
        (c.backend.calls.get .disconnect + 1)).get .disconnect = _
      exact Operation.Table.get_set_self _ _ _
    | dial hk | connect hk | look hk =>
      rw [hs] at hk
      cases hk

/-! ## Who is in front of a disconnect -/

/-- The task is a direct disconnect in line. -/
def Leaves (c : Core) (t : TaskId) : Prop := c.entry t = some (.command (.lifecycle .leaving))

/-- Every connect in front of a direct disconnect has a void ticket. -/
def Yields (c : Core) : Prop :=
  ∀ t u l k, c.Leaves t → [u, t].Sublist c.transition.queue → c.stage u = some l →
    l.ticket? = some k → k < c.epoch

/-- In front of the direct disconnect are these tasks at most, and all are connects. -/
structure Behind (front : List TaskId) (t : TaskId) (c : Core) : Prop where
  leaves : c.Leaves t
  ahead : ∀ u l, [u, t].Sublist c.transition.queue → c.stage u = some l →
    u ∈ front ∧ l.ticket? ≠ none

theorem Orderly.exists_stage (h : c.Orderly) (hs : [u, t].Sublist c.transition.queue) :
    ∃ l, c.stage u = some l :=
  Option.ne_none_iff_exists'.1 ((h.mem u).1 (hs.subset List.mem_cons_self))

/-- What makes no disconnect and no ticket valid again keeps the connects in front void. -/
theorem Yields.congr (h : c.Yields) (he : ∀ t, c'.Leaves t → c.Leaves t)
    (hq : c'.transition = c.transition) (hs : c'.stage = c.stage) (hn : c.epoch ≤ c'.epoch) :
    c'.Yields := by
  intro t u l k ht hsub hl hk
  rw [hq] at hsub
  rw [hs] at hl
  exact Nat.lt_of_lt_of_le (h t u l k (he t ht) hsub hl hk) hn

theorem Behind.congr (h : Behind front t c) (he : c'.entry t = c.entry t)
    (hq : c'.transition = c.transition) (hs : c'.stage = c.stage) : Behind front t c' where
  leaves := he.trans h.leaves
  ahead u l hsub hl := h.ahead u l (by rw [← hq]; exact hsub) (by rw [← hs]; exact hl)

/-- A stretch of work. A disconnect that joins the line finds void tickets only, and whoever joins
later is behind it. -/
theorem Yields.stretch (h : c.Yields) (ho : c.Orderly) (ho' : (c'.write v task).Orderly)
    (hs : Stretch v c start p c')
    (hv : task = .command (.lifecycle .leaving) → ∀ u l k, u ∈ c.transition.queue →
      [u, v].Sublist c'.transition.queue → c.stage u = some l → l.ticket? = some k → k < c.epoch) :
    (c'.write v task).Yields := by
  intro t u l k ht hsub hl hk
  show k < c'.epoch
  rw [hs.near.epoch]
  have hentry : Function.update c'.entry v (some task) t =
      some (.command (.lifecycle .leaving)) := ht
  by_cases htv : t = v
  · subst htv
    rw [Function.update_self] at hentry
    -- who is in front of it is another one
    have hne : u ≠ t := by
      rintro rfl
      exact absurd (hsub.nodup ho'.nodup) (by simp)
    have hl' : c.stage u = some l := (hs.near.stage u hne).symm.trans hl
    exact hv (Option.some.inj hentry) u l k ((ho.mem u).2 (by rw [hl']; exact nofun)) hsub hl' hk
  · rw [Function.update_of_ne htv, hs.near.entry] at hentry
    rcases hs.behind ho hsub with hold | ⟨-, -, rfl⟩
    · obtain ⟨a, ha⟩ := ho.exists_stage hold
      exact h t u a k hentry hold ha ((hs.keeps_ticket ha hl).symm.trans hk)
    · exact absurd rfl htv

/-- A stretch of work of another task. -/
theorem Behind.stretch (h : Behind front t c) (ho : c.Orderly) (hs : Stretch v c start p c')
    (hv : t ≠ v) : Behind front t (c'.write v task) where
  leaves := by
    show Function.update c'.entry v (some task) t = _
    rw [Function.update_of_ne hv, hs.near.entry]
    exact h.leaves
  ahead u l hsub hl := by
    rcases hs.behind ho hsub with hold | ⟨-, -, rfl⟩
    · obtain ⟨a, ha⟩ := ho.exists_stage hold
      rw [hs.keeps_ticket ha hl]
      exact h.ahead u a hold ha
    · exact absurd rfl hv

/-- A call that goes on and is in line with its disconnect afterwards was so before. -/
theorem Stretch.leaving_of_waiting {l : Lifecycle}
    (h : Stretch t c (.resume l) (.waiting .leaving) c') : l = .leaving := by
  obtain ⟨hk, hr⟩ := h.ticket_rank _ rfl
  have hrank := hr l rfl
  cases l with
  | leaving => rfl
  | hangingUp => exact absurd hrank (Nat.not_succ_le_zero _)
  | queued | dialing | sampling => cases hk

/-- Whatever happens, the connects in front of a direct disconnect stay void: the counter of
disconnects never falls, and who joins the line comes behind. -/
theorem Yields.step (h : c.Yields) (ha : Accounts past c) (hc : c.Sound) (ho : c.Orderly)
    (ho' : c'.Orderly) (hs : Step c acts c') : c'.Yields := by
  have hwrite : ∀ {d : Core} {v : TaskId} {task : Task}, task ≠ .command (.lifecycle .leaving) →
      d.entry = c.entry → ∀ t, (d.write v task).Leaves t → c.Leaves t := by
    intro d v task hne hd t ht
    have hentry : Function.update d.entry v (some task) t =
      some (.command (.lifecycle .leaving)) := ht
    by_cases htv : t = v
    · subst htv
      rw [Function.update_self] at hentry
      exact absurd (Option.some.inj hentry) hne
    · rwa [Function.update_of_ne htv, hd] at hentry
  cases hs with
  | aside hs =>
    refine h.congr (fun t ht => ?_) hs.sameLink.transition hs.stage_eq
      (Nat.le_of_eq hs.epoch_eq.symm)
    unfold Leaves at ht ⊢
    rwa [hs.entry_eq] at ht
  | turn _ ht =>
    refine h.congr (hwrite ?_ rfl) rfl rfl (Nat.le_refl _)
    rintro rfl
    cases ht with
    | wait _ h' => cases h'
  | retire => exact h.congr (hwrite (d := c) nofun rfl) rfl rfl (Nat.le_refl _)
  | takeAsk => exact h.congr (fun _ => id) rfl rfl (Nat.le_refl _)
  | takeLeave => exact h.congr (fun _ => id) rfl rfl (Nat.le_succ _)
  | @ask _ point _ p _ _ _ hs =>
    refine h.stretch ho ho' hs fun htask => ?_
    cases p with
    | done => cases htask
    | waiting b =>
      cases hst : point.starts <;> rw [hst] at htask <;> cases htask
      cases (hs.ticket_rank _ rfl).1
  | leave _ hs =>
    -- the disconnect counts itself first, so every ticket in line is of before
    have hy : Yields { c with epoch := c.epoch + 1 } :=
      h.congr (fun _ => id) rfl rfl (Nat.le_succ _)
    refine hy.stretch (ho.congr rfl rfl) ho' hs fun _ u l k _ _ hl hk => ?_
    exact Nat.lt_succ_of_le (ha.ticket_le hc hl hk)
  | @resume v l p _ starts hv hs =>
    -- a call that goes on; if it is the disconnect, it was in line already
    refine h.stretch ho ho' hs fun htask u a k _ hsub hl hk => ?_
    cases p with
    | done => cases htask
    | waiting b =>
      cases starts <;> cases htask
      obtain rfl := hs.leaving_of_waiting
      rcases hs.behind ho hsub with hold | ⟨hnone, -⟩
      · exact h v u a k hv hold hl hk
      · cases hnone
  | @begin _ b _ _ rest p _ _ _ _ hs =>
    -- a worker writes no direct disconnect
    have hy : Yields (c.takeJob b rest) := h.congr (fun _ => id) rfl rfl (Nat.le_refl _)
    refine hy.stretch (ho.congr rfl rfl) ho' hs fun htask => ?_
    cases p <;> cases htask
  | @carry _ _ _ _ p _ _ hs =>
    refine h.stretch ho ho' hs fun htask => ?_
    cases p <;> cases htask

/-- The disconnect stays where it is while others work, or it calls the backend. Those in front may
leave, but nobody gets in front. -/
theorem Behind.step (h : Behind front t c) (ho : c.Orderly) (hs : Step c acts c') :
    HungUpIn t acts ∨ Behind front t c' := by
  -- who has another entry is another task
  have hne : ∀ {v : TaskId} {old : Task}, c.entry v = some old →
      old ≠ .command (.lifecycle .leaving) → t ≠ v := by
    rintro v old hold hk rfl
    exact hk (Option.some.inj (hold.symm.trans h.leaves))
  cases hs with
  | aside hs => exact .inr (h.congr (congrFun hs.entry_eq t) hs.sameLink.transition hs.stage_eq)
  | turn hold ht =>
    refine .inr (h.congr (Function.update_of_ne (hne hold ?_) _ _) rfl rfl)
    rintro rfl
    cases ht with
    | wait hk | reply hk => cases hk
  | @retire u hold =>
    refine .inr (h.congr (Function.update_of_ne ?_ _ _) rfl rfl)
    rintro rfl
    rw [h.leaves] at hold
    cases hold
  | takeAsk | takeLeave => exact .inr (h.congr rfl rfl rfl)
  | ask hold ha hs =>
    refine .inr (h.stretch ho hs (hne hold ?_))
    rintro hk
    cases hk
    cases ha
  | leave hold hs =>
    have h' : Behind front t { c with epoch := c.epoch + 1 } := h.congr rfl rfl rfl
    exact .inr (h'.stretch (ho.congr rfl rfl) hs (hne hold nofun))
  | @resume v l _ _ starts hold hs =>
    by_cases hv : t = v
    · subst hv
      rw [h.leaves] at hold
      cases starts <;> cases hold
      cases hs with
      | resume hst ht =>
        rcases ht.hangsUp hst with ⟨rfl, rfl, -⟩ | hcalls
        · refine .inr (h.congr ?_ rfl rfl)
          exact (Function.update_self _ _ _).trans h.leaves.symm
        · exact .inl ⟨_, List.mem_singleton.2 rfl, rfl, hcalls⟩
    · exact .inr (h.stretch ho hs hv)
  | @begin _ b _ _ rest _ _ hold _ _ hs =>
    have h' : Behind front t (c.takeJob b rest) := h.congr rfl rfl rfl
    exact .inr (h'.stretch (ho.congr rfl rfl) hs (hne hold nofun))
  | carry hold hs => exact .inr (h.stretch ho hs (hne hold nofun))

/-- A direct disconnect is made: it calls the backend at once, or is behind those that were in
line. -/
theorem behind_of_leave (ho : c.Orderly) (hn : ∀ u l, c.stage u = some l → l.ticket? ≠ none)
    (hs : Stretch t c .disconnect p c') :
    (c.leg c' (.call t) none p).HangsUp ∨
      Behind c.transition.queue t (c'.write t (callTask false p)) := by
  cases hs with
  | disconnect hst ht =>
    rcases ht.hangsUp (put_stage_self _ _ _) with ⟨rfl, rfl, -⟩ | hcalls
    · -- it is in line behind all that were there, and they are connects
      right
      refine ⟨Function.update_self _ _ _, fun u l hsub hl => ?_⟩
      have hu : u ∈ c.transition.queue := by
        rcases (behind_enter (l := .leaving) ho u).1 hsub with hold | ⟨hin, -⟩
        · exact hold.subset List.mem_cons_self
        · exact hin
      have hne : u ≠ t := by
        rintro rfl
        exact (ho.mem u).1 hu hst
      exact ⟨hu, hn u l ((put_stage_of_ne _ _ hne).symm.trans hl)⟩
    · exact .inl hcalls

/-- The call is a direct disconnect when it is made. -/
theorem Step.behind_of_leave (h : Step c acts c') (ho : c.Orderly)
    (hn : ∀ u l, c.stage u = some l → l.ticket? ≠ none) (hm : .leave (.call t) ∈ acts) :
    HungUpIn t acts ∨ Behind c.transition.queue t c' := by
  cases h with
  | @leave v p c₁ hold hs =>
    have htv : t = v := by simpa [Core.leg] using hm
    subst htv
    refine (behind_of_leave (c := { c with epoch := c.epoch + 1 }) (ho.congr rfl rfl) hn hs).imp
      (fun hcalls => ⟨_, List.mem_cons_of_mem _ (.head _), rfl, hcalls⟩) id
  | aside | turn | retire | takeAsk | takeLeave | ask | resume | begin | carry => simp at hm

/-- Behind as long as it has not called the backend. -/
def Waited (front : List TaskId) (t : TaskId) (past : List Act) (c : Core) : Prop :=
  c.Orderly ∧ (HungUpIn t past ∨ Behind front t c)

theorem Waited.step (h : Waited front t past c) (hc : c.Sound) (hs : Step c acts c') :
    Waited front t (past ++ acts) c' := by
  refine ⟨linkInvariant_orderly.step hs hc h.1, ?_⟩
  rcases h.2 with hp | hb
  · exact .inl (hp.append acts)
  · exact (hb.step h.1 hs).imp_left fun ha => ha.prepend past

theorem Waited.outside {e : Event} (h : Waited front t past c) (hc : c.Sound)
    (ho : Outside c e c') : Waited front t past c' := by
  refine ⟨linkInvariant_orderly.same ho.sameLink h.1, h.2.imp_right fun hb => ?_⟩
  exact hb.congr (ho.entry_eq (hc.lt_size hb.leaves)) ho.sameLink.transition ho.sameLink.stage

/-- A disconnect in line stays there until it calls the backend. -/
theorem Behind.steps (h : Behind front t c) (hc : c.Sound) (ho : c.Orderly)
    (hs : Steps c acts c') : HungUpIn t acts ∨ Behind front t c' := by
  have hw : Waited front t [] c := ⟨ho, .inr h⟩
  exact (Client.invariant_steps (fun _ _ _ _ hc h hs => h.step hc hs) hc hw hs).2

/-- Somebody is first in line, and a disconnect is that one or behind it. -/
theorem Orderly.exists_first (h : c.Orderly) (ht : t ∈ c.transition.queue) :
    ∃ u l, c.transition.holder = some u ∧ c.stage u = some l ∧
      (u = t ∨ [u, t].Sublist c.transition.queue) := by
  cases hh : c.transition.holder with
  | none =>
    unfold Lock.queue at ht
    rw [hh, h.wellFormed hh] at ht
    cases ht
  | some u =>
    obtain ⟨rest, hq, -⟩ := h.queue_cons hh
    have hu : u ∈ c.transition.queue := by
      rw [hq]
      exact List.mem_cons_self
    obtain ⟨l, hl⟩ := Option.ne_none_iff_exists'.1 ((h.mem u).1 hu)
    refine ⟨u, l, rfl, hl, ?_⟩
    rw [hq] at ht ⊢
    rcases List.mem_cons.1 ht with rfl | ht
    · exact .inl rfl
    · exact .inr (List.cons_sublist_cons.2 (List.singleton_sublist.2 ht))

theorem Leaves.stage (h : c.Leaves t) (hc : c.Sound) : c.stage t = some .leaving :=
  hc.stage_of_entry h

theorem Leaves.mem_queue (h : c.Leaves t) (hc : c.Sound) (ho : c.Orderly) :
    t ∈ c.transition.queue := by
  rw [ho.mem, h.stage hc]
  exact Option.some_ne_none _

/-- Nothing from outside makes a disconnect wait or a ticket valid. -/
theorem Yields.outside {e : Event} (h : c.Yields) (hc : c.Sound) (ho : Outside c e c') :
    c'.Yields := by
  refine h.congr (fun t ht => ?_) ho.sameLink.transition ho.sameLink.stage ?_
  · have hst := ht.stage (hc.outside ho)
    rw [ho.sameLink.stage] at hst
    have hlt : t < c.size := by
      by_contra hge
      rw [hc.stage_small (Nat.le_of_not_lt hge)] at hst
      cases hst
    exact (ho.entry_eq hlt).symm.trans ht
  · cases ho <;> exact Nat.le_refl _

end Core

namespace Client

open TunnelSession.Core

variable {w w' v v' : Client} {t u : TaskId} {past : List Act} {front rest : List TaskId}
  {ρ : List Record}

/-! ## When no task can run -/

/-- What is known of a client at every point of a run, with its disconnects. -/
structure Yielding (past : List Act) (w : Client) : Prop extends Attentive past w where
  yields : w.core.Yields

theorem yielding_fresh (config : Config) (servers : List Server) (latency : Nat)
    (version : String) : Yielding [] (fresh config servers latency version) :=
  ⟨attentive_fresh config servers latency version, fun _ _ _ _ ht => nomatch ht⟩

/-- Every run keeps what is known of the disconnects in line. -/
theorem Yielding.after (h : Yielding past w) (events : List Event) :
    Yielding (past ++ w.trace events) (w.after events) := by
  refine ⟨h.toAttentive.after events, ?_⟩
  have hrun := (invariant_after (I := fun past c => (Accounts past c ∧ c.Orderly) ∧ c.Yields)
    (P := fun _ => True) ?_ ?_ h.fit.sound past ⟨⟨h.accounts, h.fit.fitting.orderly⟩, h.yields⟩
    events fun _ _ => trivial).2
  · exact hrun.2
  · intro past c acts c' hc ⟨⟨ha, ho⟩, hy⟩ hs
    have ho' := linkInvariant_orderly.step hs hc ho
    exact ⟨⟨ha.step hs, ho'⟩, hy.step ha hc ho ho' hs⟩
  · intro past c e c' _ hc ⟨⟨ha, ho⟩, hy⟩ hout
    exact ⟨⟨ha.outside hc hout, linkInvariant_orderly.same hout.sameLink ho⟩, hy.outside hc hout⟩

/-- If no task can run and a disconnect is in line, another one is at the backend: who has the
connection is not woken, so it has no void ticket, and whoever is in front of the disconnect and is
a connect has. -/
theorem Yielding.exists_hangingUp (h : Yielding past w) (hr : w.ready = [])
    (ht : w.core.Leaves t) :
    ∃ u call, w.transition.holder = some u ∧ [u, t].Sublist w.transition.queue ∧
      w.stage u = some (.hangingUp call) := by
  have ho := h.fit.fitting.orderly
  have hblocked : ∀ v l, w.stage v = some l → w.core.Blocked v l := by
    intro v l hl
    refine (h.alert v l hl).woken.resolve_left ?_
    rw [hr]
    exact List.not_mem_nil
  obtain ⟨u, l, hh, hl, hfirst⟩ := ho.exists_first (ht.mem_queue h.fit.sound ho)
  have hsub : [u, t].Sublist w.transition.queue := by
    rcases hfirst with rfl | hsub
    · exact absurd hh (hblocked u _ (ht.stage h.fit.sound))
    · exact hsub
  have hb := hblocked u l hl
  cases hk : l.ticket? with
  | some k => exact absurd (h.yields t u l k ht hsub hl hk) (hb.valid hk)
  | none =>
    cases l with
    | queued | dialing | sampling => cases hk
    | leaving => exact absurd hh hb
    | hangingUp call => exact ⟨u, call, hh, hsub, hl⟩

/-- A disconnect with connects only in front has called the backend when no task can run. -/
theorem Yielding.not_behind (h : Yielding past w) (hr : w.ready = []) :
    ¬ Behind front t w.core := by
  intro hb
  obtain ⟨u, call, -, hsub, hl⟩ := h.exists_hangingUp hr hb.leaves
  exact (hb.ahead u _ hsub hl).2 rfl

/-- In line until it calls the backend, whatever happens. -/
theorem Yielding.behind_after (h : Yielding past w) (hb : Behind front t w.core)
    (events : List Event) :
    HungUpIn t (w.trace events) ∨ Behind front t (w.after events).core := by
  have hrun := (invariant_after (I := Waited front t) (P := fun _ => True)
    (fun _ _ _ _ hc h hs => h.step hc hs) (fun _ _ _ _ _ hc h ho => h.outside hc ho)
    h.fit.sound [] ⟨h.fit.fitting.orderly, .inr hb⟩ events fun _ _ => trivial).2
  exact hrun.2

/-! ## Turn by turn -/

/-- Turns in the order in which the tasks were woken. -/
def turns : Nat → Client → List Event
  | 0, _ => []
  | n + 1, w =>
    match w.ready with
    | [] => []
    | t :: _ => .poll t :: turns n (w.happen (.poll t))

theorem happen_poll_head (hr : w.ready = t :: rest) :
    w.happen (.poll t) = ({ w with ready := rest } : Client).run t := by
  show ({ w with ready := w.ready.erase t } : Client).run t = _
  rw [hr, List.erase_cons_head]

/-- The next turn is made of parts, or it is one of a poller. -/
theorem turn_cases (hw : w.Fit) (hr : w.ready = t :: rest) :
    TurnParts t { w with ready := rest } (w.recordsOf (.poll t)) (w.happen (.poll t)) ∨
      w.stage t = none ∧ Watch t w (w.happen (.poll t)) := by
  -- a poller watches; all others work in parts
  by_cases hp : ∃ p, w.task? t = some (.poller p)
  · obtain ⟨p, hp⟩ := hp
    refine .inr ⟨?_, (watch_poll hw.sound hp).2⟩
    unfold Client.stage
    rw [hp]
    rfl
  · left
    have hrec : w.recordsOf (.poll t) = ({ w with ready := rest } : Client).turnRecords t := by
      show ({ w with ready := w.ready.erase t } : Client).turnRecords t = _
      rw [hr, List.erase_cons_head]
    rw [happen_poll_head hr, hrec]
    exact turnParts_run (w := { w with ready := rest }) (hw.steps (.refl _))
      (fun p h => hp ⟨p, h⟩) (.inl rfl)

/-- The task has the connection, and is among the next that get a turn. -/
structure Awaits (n : Nat) (u : TaskId) (w : Client) : Prop where
  holder : w.transition.holder = some u
  ready : u ∈ w.ready.take n

/-- Who is among the next stays so when another one is taken away. -/
theorem mem_take_erase {n : Nat} {l : List TaskId} (h : u ∈ l.take n) (hu : u ≠ t) :
    u ∈ (l.erase t).take n := by
  induction l generalizing n with
  | nil => cases n <;> cases h
  | cons a l ih =>
    cases n with
    | zero => cases h
    | succ n =>
      -- it was the first that was taken away, or one behind it
      by_cases ha : a = t
      · subst ha
        rw [List.erase_cons_head]
        rcases List.mem_cons.1 h with rfl | h
        · exact absurd rfl hu
        · exact (List.take_prefix_take_left (Nat.le_succ n)).subset h
      · rw [List.erase_cons_tail (by simpa using ha)]
        rcases List.mem_cons.1 h with rfl | h
        · exact List.mem_cons_self
        · exact List.mem_cons_of_mem _ (ih h)

/-- A part of another's turn takes nobody's place: who has the connection keeps it, and who is woken
is put behind. -/
theorem TurnPart.awaits {n : Nat} (hb : TurnPart t v ρ v') (h : Awaits n u v) (hu : u ≠ t) :
    Awaits n u v' := by
  obtain ⟨w, w', ready, bridges, k, k', rfl, rfl, -, -, -, -, hr, hs⟩ := hb.connEffects
  have hready : u ∈ ready.take n := by
    rcases hr with rfl | rfl
    · exact h.ready
    · exact mem_take_erase h.ready hu
  exact ⟨(hs.barred h.holder hu).2, (hs.kept.ready.take n).subset hready⟩

theorem TurnParts.awaits {n : Nat} (hb : TurnParts t v ρ v') (h : Awaits n u v) (hu : u ≠ t) :
    Awaits n u v' := by
  induction hb with
  | refl => exact h
  | head hb _ ih => exact ih (hb.awaits h hu)

/-- Who has the connection comes closer to its turn with every turn of another task. -/
theorem Awaits.turn {n : Nat} (h : Awaits (n + 1) u w) (hw : w.Fit) (hr : w.ready = t :: rest)
    (hu : u ≠ t) : Awaits n u (w.happen (.poll t)) := by
  have hrest : u ∈ rest.take n := by
    have hin := h.ready
    rw [hr, List.take_succ_cons] at hin
    exact (List.mem_cons.1 hin).resolve_left hu
  rcases turn_cases hw hr with hb | ⟨-, hwatch⟩
  · exact hb.awaits ⟨h.holder, hrest⟩ hu
  · obtain ⟨p, w₁, k, -, hl, hend, -⟩ := hwatch.turn
    rw [hr, List.erase_cons_head] at hl
    rw [hend]
    exact ⟨(congrArg Lock.holder hl.transition).trans h.holder, (hl.ready.take n).subset hrest⟩

/-- A request that is gone on with is work. -/
theorem turnRecords_ne_nil {l : Lifecycle} (h : w.stage t = some l) : w.turnRecords t ≠ [] := by
  obtain ⟨task, ht, hl⟩ := Option.bind_eq_some_iff.1 h
  unfold turnRecords
  rw [ht]
  cases task with
  | command p => cases p <;> first | exact List.cons_ne_nil _ _ | cases hl
  | worker b current =>
    cases current with
    | none => cases hl
    | some => exact List.cons_ne_nil _ _
  | poller | receiver | ended => cases hl

/-- A connect with a void ticket goes at its turn, and then one less is in front. Its turn does not
wait for the backend, since it drops its call. -/
theorem behind_turn_of_void {l : Lifecycle} {k : Nat} (hb : Behind front t w.core) (hw : w.Fit)
    (hr : w.ready = u :: rest) (hl : w.stage u = some l) (hk : l.ticket? = some k)
    (hv : k < w.epoch) :
    HungUpIn t (w.acts (.poll u)) ∨ Behind (front.erase u) t (w.happen (.poll u)).core := by
  rcases turn_cases hw hr with hparts | ⟨hnone, -⟩
  · rw [← recordsOf_map_act]
    have hne : w.recordsOf (.poll u) ≠ [] := by
      show ({ w with ready := w.ready.erase u } : Client).turnRecords u ≠ []
      exact turnRecords_ne_nil hl
    generalize w.recordsOf (.poll u) = ρ at hparts hne
    generalize w.happen (.poll u) = w' at hparts
    have hw' : Fit { w with ready := rest } := hw.steps (.refl _)
    cases hparts with
    | refl => exact absurd rfl hne
    | @head _ v _ ρ σ h hs =>
      rw [List.map_append]
      -- it is gone after the first part of the turn
      have hgone : v.stage u = none := h.drops l k hl hk hv
      have hv := hw'.steps h.steps
      rcases hb.steps hw'.sound hw'.fitting.orderly h.steps with hp | hb
      · exact .inl (hp.append _)
      · have hb' : Behind (front.erase u) t v.core := by
          refine ⟨hb.leaves, fun x a hsub ha => ?_⟩
          obtain ⟨hx, hn⟩ := hb.ahead x a hsub ha
          refine ⟨(List.mem_erase_of_ne ?_).2 hx, hn⟩
          rintro rfl
          rw [show v.stage x = some a from ha] at hgone
          cases hgone
        exact (hb'.steps hv.sound hv.fitting.orderly hs.steps).imp_left fun hp => hp.prepend _
  · rw [hnone] at hl
    cases hl

/-- A disconnect that has the connection calls the backend at its turn. -/
theorem hungUpIn_turn (hw : w.Fit) (ht : w.core.Leaves t) (hh : w.transition.holder = some t) :
    HungUpIn t (w.acts (.poll t)) := by
  have hst := ht.stage hw.sound
  have hstretch := stretch_resumeLifecycle { w with ready := w.ready.erase t } t .leaving trivial
    hw.sound.prompt
  rw [put_self (c := ({ w with ready := w.ready.erase t } : Client).core) hst] at hstretch
  have hacts : w.acts (.poll t) = [leg { w with ready := w.ready.erase t } (.call t)
      (some .leaving) (resumeLifecycle { w with ready := w.ready.erase t } t .leaving)] := by
    show ({ w with ready := w.ready.erase t } : Client).turnActs t = _
    unfold turnActs
    rw [show ({ w with ready := w.ready.erase t } : Client).task? t =
      some (.command (.lifecycle .leaving)) from task?_of_entry ht]
    rfl
  rw [hacts]
  refine ⟨_, List.mem_singleton.2 rfl, rfl, ?_⟩
  cases hstretch with
  | resume hs htravel =>
    -- it has the connection, so it does not stay in line
    rcases htravel.hangsUp hs with ⟨-, -, hno⟩ | hcalls
    · exact absurd hh hno
    · exact hcalls

/-- Who has the connection while a disconnect waits for it is woken: it is the disconnect itself, or
a connect in front of it, whose ticket is void. -/
theorem Yielding.exists_awaits (h : Yielding past w) (hb : Behind front t w.core) :
    ∃ u l, Awaits w.ready.length u w ∧ w.stage u = some l ∧
      (u = t ∨ u ∈ front ∧ ∃ k, l.ticket? = some k ∧ k < w.epoch) := by
  have ho := h.fit.fitting.orderly
  obtain ⟨u, l, hh, hl, hfirst⟩ := ho.exists_first (hb.leaves.mem_queue h.fit.sound ho)
  have hwoken := (h.alert u l hl).woken
  have hready : u ∈ w.ready → Awaits w.ready.length u w := fun hu =>
    ⟨hh, by rwa [List.take_length]⟩
  rcases hfirst with rfl | hsub
  · have hst : some l = some .leaving := hl.symm.trans (hb.leaves.stage h.fit.sound)
    cases hst
    exact ⟨u, _, hready (hwoken.resolve_right fun hno => hno hh), hl, .inl rfl⟩
  · obtain ⟨hin, hk⟩ := hb.ahead u l hsub hl
    obtain ⟨k, hk⟩ := Option.ne_none_iff_exists'.1 hk
    have hv : k < w.epoch := h.yields t u l k hb.leaves hsub hl hk
    exact ⟨u, l, hready (hwoken.resolve_right fun hno => hno.valid hk hv), hl,
      .inr ⟨hin, k, hk, hv⟩⟩

/-- The acts of some turns are those of the first, and then those of the others. -/
theorem trace_turns (n : Nat) (hr : w.ready = u :: rest) :
    w.trace (turns (n + 1) w) =
      w.acts (.poll u) ++ (w.happen (.poll u)).trace (turns n (w.happen (.poll u))) := by
  rw [turns, hr]
  rfl

/-- Who has the connection gets its turn, unless the disconnect calls the backend before. The
induction is on how many get a turn before it. -/
theorem Awaits.reaches {n : Nat}
    (hturn : ∀ past w rest, Yielding past w → Behind front t w.core →
      w.transition.holder = some u → w.ready = u :: rest → ∃ n, HungUpIn t (w.trace (turns n w)))
    (h : Yielding past w) (hb : Behind front t w.core) (ha : Awaits n u w) :
    ∃ n, HungUpIn t (w.trace (turns n w)) := by
  -- the induction is on how many get a turn before it
  induction n generalizing past w with
  | zero => cases ha.ready
  | succ n ih =>
    cases hr : w.ready with
    | nil =>
      have hin := ha.ready
      rw [hr] at hin
      cases hin
    | cons v rest =>
      -- this turn is its own, or it comes closer by one
      by_cases hu : u = v
      · subst hu
        exact hturn past w rest h hb ha.holder hr
      · rcases h.behind_after hb [.poll v] with hp | hb'
        · refine ⟨1, ?_⟩
          rw [trace_turns 0 hr]
          rw [trace, trace, List.append_nil] at hp
          exact hp.append _
        · obtain ⟨m, hm⟩ := ih (h.after [.poll v]) hb' (ha.turn h.fit hr hu)
          exact ⟨m + 1, by rw [trace_turns m hr]; exact hm.prepend _⟩

/-- Turn by turn the connects in front of a disconnect go, and then it calls the backend. -/
theorem Yielding.hungUpIn_turns (h : Yielding past w) (hb : Behind front t w.core) :
    ∃ n, HungUpIn t (w.trace (turns n w)) := by
  -- on the number of those in front
  induction hlen : front.length using Nat.strong_induction_on generalizing front past w with
  | _ len ih =>
    obtain ⟨u, l, ha, -⟩ := h.exists_awaits hb
    refine ha.reaches (fun past w rest h hb hh hr => ?_) h hb
    -- it is the turn of who has the connection
    obtain ⟨u', l, ha', hl, hfirst⟩ := h.exists_awaits hb
    obtain rfl : u' = u := Option.some.inj (ha'.holder.symm.trans hh)
    rcases hfirst with rfl | ⟨hin, k, hk, hv⟩
    · refine ⟨1, ?_⟩
      rw [trace_turns 0 hr]
      exact (hungUpIn_turn h.fit hb.leaves hh).append _
    · rcases behind_turn_of_void hb h.fit hr hl hk hv with hp | hb'
      · exact ⟨1, by rw [trace_turns 0 hr]; exact hp.append _⟩
      · have hlt : (front.erase u').length < len := by
          rw [List.length_erase_of_mem hin, ← hlen]
          exact Nat.sub_lt (List.length_pos_of_mem hin) Nat.one_pos
        obtain ⟨m, hm⟩ := ih _ hlt (h.after [.poll u']) hb' rfl
        exact ⟨m + 1, by rw [trace_turns m hr]; exact hm.prepend _⟩

/-! ## Disconnects that are made -/

/-- The event makes a direct disconnect: a task calls it, or it was started before and now runs
first. -/
def IsDisconnect (w : Client) (e : Event) (t : TaskId) : Prop :=
  (e = .call .disconnect ∧ t = w.tasks.length) ∨
    (e = .poll t ∧ w.task? t = some (.command (.fresh .disconnect)))

/-- Whether no disconnect is under way can be computed. -/
theorem no_disconnect_of_all
    (h : w.tasks.all (fun k => k.lifecycle?.all fun l => l.ticket?.isSome) = true) :
    ∀ u l, w.stage u = some l → l.ticket? ≠ none := by
  intro u l hl
  obtain ⟨task, ht, hk⟩ := Option.bind_eq_some_iff.1 hl
  have hticket := List.all_eq_true.1 h task (List.mem_of_getElem? ht)
  rw [hk] at hticket
  exact Option.isSome_iff_ne_none.1 hticket

/-- A disconnect is made in its first turn. -/
theorem step_runDisconnect (hs : w.core.Sound)
    (ht : w.task? t = some (.command (.fresh .disconnect))) :
    Step w.core (w.turnActs t) (w.run t).core ∧ .leave (.call t) ∈ w.turnActs t := by
  unfold turnActs run
  rw [ht]
  refine ⟨?_, List.mem_cons_self⟩
  dsimp only
  rw [runCommand_eq, runPoint, begin, asLifecycle_eq]
  exact step_leave hs (entry_of_task? ht rfl)

/-- A direct disconnect that finds no other one calls the backend at once, or has connects only in
front. -/
theorem Yielding.behind_of_disconnect {e : Event} (h : Yielding past w)
    (he : w.IsDisconnect e t) (hn : ∀ u l, w.stage u = some l → l.ticket? ≠ none) :
    HungUpIn t (w.acts e) ∨ ∃ front, Behind front t (w.happen e).core := by
  rcases he with ⟨rfl, rfl⟩ | ⟨rfl, ht⟩
  · have hc := core_spawn_call h.fit.sound .disconnect
    have hout : Outside w.core (.call .disconnect)
        (w.spawn (.command (.fresh .disconnect))).2.core := by
      rw [hc]
      exact .call _
    obtain ⟨hstep, hm⟩ := step_runDisconnect (h.fit.sound.outside hout)
      (by rw [task?_spawn, if_pos rfl])
    refine (hstep.behind_of_leave (linkInvariant_orderly.same hout.sameLink h.fit.fitting.orderly)
      (fun u l hl => hn u l ?_) hm).imp id fun hb => ⟨_, hb⟩
    rw [hout.sameLink.stage] at hl
    exact hl
  · obtain ⟨hstep, hm⟩ := step_runDisconnect (w := { w with ready := w.ready.erase t })
      h.fit.sound ht
    exact (hstep.behind_of_leave h.fit.fitting.orderly hn hm).imp id fun hb => ⟨_, hb⟩

/-- The clock stands still but for the time that passes. -/
theorem now_after (hw : w.Fit) {events : List Event} (he : ∀ ms, .pass ms ∉ events) :
    (w.after events).now = w.now := by
  refine (records_after (I := fun _ v => v.now = w.now) (P := fun e => ∀ ms, e ≠ .pass ms)
    ?_ ?_ ?_ hw [] rfl events fun e hm ms hk => he ms (hk ▸ hm)).2
  · intro past t v ρ v' _ hnow hb
    obtain ⟨w, w', ready, bridges, k, k', rfl, rfl, -, -, -, -, -, hs⟩ := hb.connEffects
    exact hs.kept.now.trans hnow
  · intro past t v v' _ hnow hwatch
    obtain ⟨p, w, k, -, hl, rfl, -⟩ := hwatch.turn
    exact hl.now.trans hnow
  · intro past e v v' he _ hnow ho _
    exact (ho.now he).trans hnow

/-- Turns take no time. -/
theorem not_mem_turns (n : Nat) (w : Client) (ms : Nat) : .pass ms ∉ turns n w := by
  induction n generalizing w with
  | zero => exact List.not_mem_nil
  | succ n ih =>
    unfold turns
    split
    · exact List.not_mem_nil
    · intro hm
      rcases List.mem_cons.1 hm with hm | hm
      · cases hm
      · exact ih _ hm

end Client

open Client

/-- In every run: when no task can run and a direct disconnect waits for the connection, another
disconnect is at the backend.  And a direct disconnect that is made while no other one is under way
calls the backend at that instant: it has done so when no task can run any more, whatever happens in
between, and that is so after finitely many turns. -/
theorem disconnect_calls_at_once (config : Config) (servers : List Server) (latency : Nat)
    (version : String) (events : List Event) :
    let w := (fresh config servers latency version).after events
    (∀ t, w.ready = [] → w.task? t = some (.command (.lifecycle .leaving)) →
      ∃ u call, u ≠ t ∧ w.transition.holder = some u ∧ w.stage u = some (.hangingUp call)) ∧
    ∀ e t, w.IsDisconnect e t → (∀ u l, w.stage u = some l → l.ticket? ≠ none) →
      (∀ more, (∀ ms, .pass ms ∉ more) → (w.after (e :: more)).now = w.now ∧
        ((w.after (e :: more)).ready = [] → HungUpIn t (w.trace (e :: more)))) ∧
      ∃ n, (w.after (e :: turns n (w.happen e))).now = w.now ∧
        HungUpIn t (w.trace (e :: turns n (w.happen e))) := by
  intro w
  have h : Yielding _ w := (yielding_fresh config servers latency version).after events
  refine ⟨fun t hr ht => ?_, fun e t he hn => ?_⟩
  · obtain ⟨u, call, hh, hsub, hl⟩ := h.exists_hangingUp hr (entry_of_task? ht rfl)
    refine ⟨u, call, ?_, hh, hl⟩
    rintro rfl
    exact absurd (hsub.nodup h.fit.fitting.orderly.nodup) (by simp)
  · -- time stands still as long as nothing lets it pass
    have hpass : ∀ more, (∀ ms, .pass ms ∉ more) → (w.after (e :: more)).now = w.now := by
      intro more hmore
      refine now_after h.fit fun ms hm => ?_
      rcases List.mem_cons.1 hm with rfl | hm
      · rcases he with ⟨hk, -⟩ | ⟨hk, -⟩ <;> cases hk
      · exact hmore ms hm
    have hstart := h.behind_of_disconnect he hn
    have hnext : Yielding _ (w.happen e) := h.after [e]
    refine ⟨fun more hmore => ⟨hpass more hmore, fun hr => ?_⟩, ?_⟩
    · rcases hstart with hp | ⟨front, hb⟩
      · exact hp.append _
      · rcases hnext.behind_after hb more with hp | hb'
        · exact hp.prepend _
        · exact absurd hb' ((hnext.after more).not_behind hr)
    · -- the turns that bring it to the backend, one connect after the other
      have hcalls : ∃ n, HungUpIn t (w.trace (e :: turns n (w.happen e))) := by
        rcases hstart with hp | ⟨front, hb⟩
        · exact ⟨0, hp.append _⟩
        · exact (hnext.hungUpIn_turns hb).imp fun n hp => hp.prepend _
      exact hcalls.imp fun n hp => ⟨hpass _ (not_mem_turns n _), hp⟩

/-- A connect is at the backend and another one is in line.  A disconnect makes both go, calls the
backend without the clock, and the next disconnect waits for this one only. -/
theorem disconnect_calls_at_once_of_connects :
    let start := fresh Config.default [Server.make "x" "" "" "" ""] 5 "1"
    let w := start.after [.call (.connect "x"), .call .quickConnect]
    let v := start.after [.call (.connect "x"), .call .quickConnect, .call .disconnect, .poll 0,
      .poll 1, .poll 2, .call .disconnect]
    (∃ n, HungUpIn 2 (w.trace (.call .disconnect :: turns n (w.happen (.call .disconnect))))) ∧
      HungUpIn 2 (w.trace [.call .disconnect, .poll 0, .poll 1, .poll 2]) ∧
      ∃ u call, u ≠ 3 ∧ v.transition.holder = some u ∧ v.stage u = some (.hangingUp call) := by
  obtain ⟨hconn, hturns⟩ := (disconnect_calls_at_once Config.default
    [Server.make "x" "" "" "" ""] 5 "1" [.call (.connect "x"), .call .quickConnect]).2
    (.call .disconnect) 2 (.inl ⟨rfl, rfl⟩) (no_disconnect_of_all rfl)
  have hwaits := (disconnect_calls_at_once Config.default [Server.make "x" "" "" "" ""] 5 "1"
    [.call (.connect "x"), .call .quickConnect, .call .disconnect, .poll 0, .poll 1, .poll 2,
      .call .disconnect]).1 3 rfl rfl
  refine ⟨hturns.imp fun _ => And.right, ?_, hwaits⟩
  exact (hconn [.poll 0, .poll 1, .poll 2] (by simp)).2 rfl

end TunnelSession
