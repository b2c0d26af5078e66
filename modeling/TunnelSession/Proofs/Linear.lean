/-
  The order in which requests take effect.

  ORDER.  A core whose requests take effect in the order they were issued has a plan, and knows
  which tickets are void: exactly those of connects that a disconnect is in line behind
  (`Linear.void`).

  STATE.  A connect that is cancelled while the backend works leaves the state `connecting` behind.
  But then its ticket is void, so a disconnect is in line behind it and overwrites the state.  So
  the state is the one of the plan unless somebody in line is going to overwrite it.
-/
import TunnelSession.Proofs.Plan

namespace TunnelSession

namespace Core

variable {t u : TaskId} {c c' : Core} {res res' : TaskId → Option Settled} {issued : List Issue}
variable {start : Book} {done todo : List Issue} {state : ConnectionState}

/-- The requests take effect in the order they were issued. -/
structure Linear (start : Book) (issued : List Issue) (res : TaskId → Option Settled) (c : Core) :
    Prop where
  orderly : c.Orderly
  ticket : ∀ t l k, c.stage t = some l → l.ticket? = some k → k ≤ c.epoch
  void : ∀ t l k, c.stage t = some l → l.ticket? = some k →
    (k < c.epoch ↔ ∃ u, [t, u].Sublist c.transition.queue ∧ c.stage u = some .leaving)
  nodup : (issued.map (·.1)).Nodup
  unsettled : ∀ t, c.stage t ≠ none → res t = none
  plan : ∃ done todo state, Plan start issued res c done todo state

/-- A change that touches neither the book, nor the queue, nor any ticket keeps the order. -/
theorem Linear.same (h : Linear start issued res c) (hb : c'.book = c.book)
    (ht : c'.transition = c.transition) (hs : c'.stage = c.stage) (he : c'.epoch = c.epoch)
    (ho : c'.Orderly) : Linear start issued res c' := by
  obtain ⟨done, todo, state, hp⟩ := h.plan
  refine ⟨ho, ?_, ?_, h.nodup, ?_, done, todo, state, ?_⟩
  · rw [hs, he]
    exact h.ticket
  · rw [hs, he, ht]
    exact h.void
  · rw [hs]
    exact h.unsettled
  · have hserver : c'.session.server = c.session.server := congrArg Book.server hb
    have hstate : c'.session.state = c.session.state := congrArg Book.state hb
    have hbook : c'.book = c.book.withState c.session.state := hb
    refine hp.congr (fun u => by rw [hs]) ht hbook ?_ ?_
    · rw [hs]
      exact hp.pursues
    · rw [hs, hstate]
      exact hp.state

/-! ## A request is issued -/

section Enter

variable {l : Lifecycle} {g : Option Target}

theorem nodup_issued (hn : (issued.map (·.1)).Nodup) (ht : t ∉ issued.map (·.1)) :
    ((issued ++ [(t, g)]).map (·.1)).Nodup := by
  rw [List.map_append, List.map_singleton, ← List.concat_eq_append]
  exact List.Nodup.concat ht hn

/-- Who joins the line has no result yet, and nobody else is touched. -/
theorem unsettled_enter (h : ∀ t, c.stage t ≠ none → res t = none) (hr : res t = none) (l) :
    ∀ u, (c.enter t l).stage u ≠ none → res u = none := by
  intro u hu
  by_cases he : u = t
  · rw [he]
    exact hr
  · rw [show (c.enter t l).stage u = c.stage u from put_stage_of_ne _ _ he] at hu
    exact h u hu

/-- A connect is issued. It joins the line with a ticket of the disconnects so far, and the plan
gets it as the last request that is to be done. -/
theorem Linear.ask (h : Linear start issued res c) (hs : c.stage t = none)
    (hn : t ∉ issued.map (·.1)) (hr : res t = none) (target : Target) :
    Linear start (issued ++ [(t, some target)]) res (c.enter t (.queued target c.epoch)) := by
  have hq := fun v u => behind_enter (t := t) (u := u) (l := .queued target c.epoch) h.orderly v
  have hother : ∀ u, u ≠ t → (c.enter t (.queued target c.epoch)).stage u = c.stage u :=
    fun u hu => put_stage_of_ne _ _ hu
  have hself : (c.enter t (.queued target c.epoch)).stage t = some (.queued target c.epoch) :=
    put_stage_self _ _ _
  have hnot : t ∉ c.transition.queue := fun hm => (h.orderly.mem t).1 hm hs
  obtain ⟨done, todo, state, hp⟩ := h.plan
  refine ⟨h.orderly.enter hs id, ?_, ?_, nodup_issued h.nodup hn, unsettled_enter h.unsettled hr _,
    done, _, state, hp.enter h.orderly hs hn hr rfl rfl⟩
  · -- its ticket is the number of disconnects so far; the others have their old tickets
    intro u l k hu hk
    by_cases he : u = t
    · subst he
      rw [hself] at hu
      cases hu
      cases hk
      exact Nat.le_refl _
    · rw [hother u he] at hu
      exact h.ticket u l k hu hk
  · -- no disconnect joins the line, so the same tickets are void as before
    intro v l k hv hk
    have hleaving : ∀ u, (c.enter t (.queued target c.epoch)).stage u = some .leaving →
        u ≠ t ∧ c.stage u = some .leaving := by
      intro u hu
      have hut : u ≠ t := by
        rintro rfl
        rw [hself] at hu
        cases hu
      rw [hother u hut] at hu
      exact ⟨hut, hu⟩
    by_cases he : v = t
    · -- the new one: nobody is behind it
      subst he
      rw [hself] at hv
      cases hv
      cases hk
      refine ⟨fun hlt => absurd hlt (Nat.lt_irrefl _), ?_⟩
      rintro ⟨u, hb, hu⟩
      rcases (hq v u).1 hb with hb | ⟨hb, -⟩
      · exact absurd (hb.subset List.mem_cons_self) hnot
      · exact absurd hb hnot
    · -- an old one: whoever disconnects behind it was behind it before
      rw [hother v he] at hv
      refine (h.void v l k hv hk).trans ⟨?_, ?_⟩
      · rintro ⟨u, hb, hu⟩
        have hut : u ≠ t := by
          rintro rfl
          rw [hs] at hu
          cases hu
        exact ⟨u, (hq v u).2 (.inl hb), (hother u hut).trans hu⟩
      · rintro ⟨u, hb, hu⟩
        obtain ⟨hut, hu⟩ := hleaving u hu
        rcases (hq v u).1 hb with hb | ⟨-, rfl⟩
        · exact ⟨u, hb, hu⟩
        · exact absurd rfl hut

/-- A disconnect is issued: all tickets are void, and it is in line behind all of them. So whoever
is cancelled for it comes before it in the order. -/
theorem Linear.leave (h : Linear start issued res c) (hs : c.stage t = none)
    (hn : t ∉ issued.map (·.1)) (hr : res t = none) :
    Linear start (issued ++ [(t, none)]) res
      ({ c with epoch := c.epoch + 1 }.enter t .leaving) := by
  have ho : Orderly { c with epoch := c.epoch + 1 } :=
    ⟨h.orderly.wellFormed, h.orderly.nodup, h.orderly.mem, h.orderly.active⟩
  have hother : ∀ u, u ≠ t →
      (Core.enter { c with epoch := c.epoch + 1 } t .leaving).stage u = c.stage u :=
    fun u hu => put_stage_of_ne _ _ hu
  have hself : (Core.enter { c with epoch := c.epoch + 1 } t .leaving).stage t = some .leaving :=
    put_stage_self _ _ _
  obtain ⟨done, todo, state, hp⟩ := h.plan
  have hp' : Plan start issued res { c with epoch := c.epoch + 1 } done todo state :=
    ⟨hp.split, hp.results, hp.book, hp.queue, hp.pursues, hp.state⟩
  -- who has a ticket is somebody else, and was in line before
  have hold : ∀ v l k, (Core.enter { c with epoch := c.epoch + 1 } t .leaving).stage v = some l →
      l.ticket? = some k → v ≠ t ∧ k ≤ c.epoch ∧ v ∈ c.transition.queue := by
    intro v l k hv hk
    have hvt : v ≠ t := by
      rintro rfl
      rw [hself] at hv
      cases hv
      cases hk
    rw [hother v hvt] at hv
    refine ⟨hvt, h.ticket v l k hv hk, (h.orderly.mem v).2 ?_⟩
    rw [hv]
    exact nofun
  refine ⟨ho.enter hs id, ?_, ?_, nodup_issued h.nodup hn, ?_, done, _, state,
    hp'.enter ho hs hn hr rfl rfl⟩
  · intro v l k hv hk
    exact Nat.le_succ_of_le (hold v l k hv hk).2.1
  · -- everybody in line has this disconnect behind it now, and every ticket is too old
    intro v l k hv hk
    obtain ⟨-, hle, hm⟩ := hold v l k hv hk
    refine ⟨fun _ => ⟨t, ?_, hself⟩, fun _ => Nat.lt_succ_of_le hle⟩
    exact (behind_enter ho v).2 (.inr ⟨hm, rfl⟩)
  · exact unsettled_enter (c := { c with epoch := c.epoch + 1 }) h.unsettled hr _

end Enter

/-! ## Moves -/

/-- A move takes nobody out of line and voids no ticket, so that the order is kept if only the plan
is. -/
theorem Linear.of_move (h : Linear start issued res c) (hm : Move t c c')
    (hp : ∃ done todo state, Plan start issued res c' done todo state) :
    Linear start issued res c' := by
  obtain ⟨hh, hq, hst, b, hstage, -⟩ := hm.frame (h.orderly.active t)
  obtain ⟨a, ha⟩ := Option.ne_none_iff_exists'.1 hst
  obtain ⟨b', hb', hticket, -⟩ := hm.ticket_rank ha
  obtain ⟨rest, hqueue, hrest⟩ := h.orderly.queue_cons hh
  have hother : ∀ u, u ≠ t → c'.stage u = c.stage u := by
    intro u hu
    rw [hstage]
    exact Function.update_of_ne hu _ _
  -- a ticket of the core after the move is one of the core before
  have hback : ∀ u l k, c'.stage u = some l → l.ticket? = some k →
      ∃ l', c.stage u = some l' ∧ l'.ticket? = some k := by
    intro u l k hu hk
    by_cases he : u = t
    · subst he
      rw [hb'] at hu
      cases hu
      exact ⟨a, ha, hticket ▸ hk⟩
    · exact ⟨l, (hother u he).symm.trans hu, hk⟩
  refine ⟨h.orderly.move hm, ?_, ?_, h.nodup, ?_, hp⟩
  · intro u l k hu hk
    obtain ⟨l', hu', hk'⟩ := hback u l k hu hk
    rw [hm.near.epoch]
    exact h.ticket u l' k hu' hk'
  · intro v l k hv hk
    obtain ⟨l', hv', hk'⟩ := hback v l k hv hk
    rw [hm.near.epoch, hq]
    refine (h.void v l' k hv' hk').trans ⟨?_, ?_⟩
    · rintro ⟨u, hb, hu⟩
      refine ⟨u, hb, ?_⟩
      rw [hother u, hu]
      rintro rfl
      rw [hqueue] at hb
      exact not_behind hrest hb
    · rintro ⟨u, hb, hu⟩
      refine ⟨u, hb, ?_⟩
      rw [← hother u, hu]
      rintro rfl
      rw [hqueue] at hb
      exact not_behind hrest hb
  · intro u hu
    refine h.unsettled u fun he => hu ?_
    rw [hother u, he]
    rintro rfl
    exact hst he

/-- Every move keeps the order. To call the backend decides nothing yet; the answer that makes the
tunnel decides the request, before its first look is over. -/
theorem Linear.move (h : Linear start issued res c) (hm : Move t c c') :
    Linear start issued res c' := by
  have hm' := hm
  obtain ⟨done, todo, state, hp⟩ := h.plan
  cases hm with
  | @dial target ticket state' ask hs hv hh ha =>
    -- the backend is called: nothing is decided yet
    refine h.of_move hm' ⟨done, todo, state, hp.advance hs rfl rfl ⟨state', rfl⟩ rfl trivial ?_⟩
    rintro g rfl
    exact ⟨target, ask, rfl, Target.ask?_of_aim ha, _, rfl⟩
  | @connect ticket ask due server b hs hd hv ha =>
    -- the backend answered: this decides the request, though it still looks at the statistics
    have hh := h.orderly.active t _ hs trivial
    have hr := h.unsettled t (by rw [hs]; exact nofun)
    refine h.of_move hm' (hp.commit (r := .ok (some server)) h.nodup h.orderly hh hs rfl hr
      (fun u hu => put_stage_of_ne _ _ hu) (fun _ _ => rfl) ?_ (fun he => nomatch he)
      (undecided_of_sampled rfl (fun u hu => put_stage_of_ne _ _ hu) ?_) ?_)
    · exact outcome_of_stage hr (put_stage_self _ _ _)
    · rw [put_stage_self]
      rfl
    · intro g hg
      obtain ⟨hdial, hserve⟩ := hg.serve_eq (b := c.book.withState state)
      rw [hserve]
      exact dial_connect hdial ha
  | @look ticket server call _ hs hl =>
    have hlink := hl.sameLink
    exact h.same hl.book_eq hlink.transition hlink.stage hm'.near.epoch (h.orderly.move hm')
  | hangUp hs hh =>
    -- a disconnect calls the backend, which decides nothing yet
    refine h.of_move hm' ⟨done, todo, state,
      hp.advance hs rfl rfl ⟨.disconnecting, rfl⟩ rfl trivial ?_⟩
    exact fun g hg => hg

/-! ## Results -/

section Settles

variable {r : Settled}

/-- A disconnect calls the backend before it settles. -/
theorem Settle.ne_leaving (h : Settle t c r c') : c.stage t ≠ some .leaving := by
  cases h with
  | drop hs | noServer hs | abort hs | refuse hs | arrive _ hs | close hs | fail hs =>
    rw [hs]
    exact nofun

/-- A result takes its request out of line, and voids no ticket, so that the order is kept if only
the plan is. -/
theorem Linear.of_settle (h : Linear start issued res c) (hm : Settle t c r c')
    (hp : ∃ done todo state,
      Plan start issued (Function.update res t (some r)) c' done todo state) :
    Linear start issued (Function.update res t (some r)) c' := by
  obtain ⟨ht, hst, hstage⟩ := hm.frame (h.orderly.active t)
  have hq : c'.transition.queue = c.transition.queue.filter (· != t) := by
    rw [ht]
    exact Lock.queue_withdraw h.orderly.nodup t
  -- who is still at a stage is somebody else, and has not moved
  have hback : ∀ u l, c'.stage u = some l → u ≠ t ∧ c.stage u = some l := by
    intro u l hu
    have hut : u ≠ t := by
      rintro rfl
      rw [hstage, Function.update_self] at hu
      cases hu
    rw [hstage, Function.update_of_ne hut] at hu
    exact ⟨hut, hu⟩
  refine ⟨h.orderly.settle hm, ?_, ?_, h.nodup, ?_, hp⟩
  · intro u l k hu hk
    rw [hm.near.epoch]
    exact h.ticket u l k (hback u l hu).2 hk
  · -- a ticket is void for the same disconnect as before: that one has not settled
    intro v l k hv hk
    obtain ⟨hvt, hv⟩ := hback v l hv
    rw [hm.near.epoch, hq]
    refine (h.void v l k hv hk).trans ⟨?_, ?_⟩
    · -- the disconnect behind is not the one that settled, which had called the backend
      rintro ⟨u, hb, hu⟩
      have hut : u ≠ t := by
        rintro rfl
        exact hm.ne_leaving hu
      refine ⟨u, ?_, ?_⟩
      · have hpair : [v, u].filter (· != t) = [v, u] := by simp [hvt, hut]
        rw [← hpair]
        exact hb.filter _
      · rw [hstage, Function.update_of_ne hut]
        exact hu
    · rintro ⟨u, hb, hu⟩
      exact ⟨u, hb.trans List.filter_sublist, (hback u _ hu).2⟩
  · intro u hu
    obtain ⟨l, hl⟩ := Option.ne_none_iff_exists'.1 hu
    obtain ⟨hut, hl⟩ := hback u l hl
    rw [Function.update_of_ne hut]
    exact h.unsettled u (by rw [hl]; exact nofun)

/-- Behind a connect with a valid ticket that has not called the backend nobody disconnects, so the
state is the one of the plan. -/
theorem Linear.state_eq {target : Target} {ticket : Nat} (h : Linear start issued res c)
    (hp : Plan start issued res c done todo state) (hh : c.transition.holder = some t)
    (hs : c.stage t = some (.queued target ticket)) (hv : ¬ ticket < c.epoch) :
    state = c.session.state := by
  rcases hp.state with hstate | ⟨u, l, hu, hl⟩
  · exact hstate
  · -- somebody in line would overwrite the state; that one has not called the backend
    exfalso
    have hut : u ≠ t := by
      rintro rfl
      rw [hs] at hu
      cases hu
      exact hl
    have hin := h.orderly.inactive hh hu hut
    cases l with
    | dialing | hangingUp => exact hin trivial
    | queued | sampling => exact hl
    | leaving =>
      -- a disconnect behind the connect would have made its ticket void
      obtain ⟨rest, hqueue, -⟩ := h.orderly.queue_cons hh
      have hm : u ∈ c.transition.queue := (h.orderly.mem u).2 (by rw [hu]; exact nofun)
      rw [hqueue] at hm
      have hbehind : u ∈ rest := (List.mem_cons.1 hm).resolve_left hut
      refine hv ((h.void t _ ticket hs rfl).2 ⟨u, ?_, hu⟩)
      rw [hqueue]
      exact (List.singleton_sublist.2 hbehind).cons_cons t

/-- Every result keeps the order. A void ticket cancels the request; an answer decides it, if the
tunnel has not done so before. -/
theorem Linear.settle (h : Linear start issued res c) (hm : Settle t c r c') :
    Linear start issued (Function.update res t (some r)) c' := by
  obtain ⟨ht, hst, hstage⟩ := hm.frame (h.orderly.active t)
  have hr := h.unsettled t hst
  have hother : ∀ u, u ≠ t → c'.stage u = c.stage u := by
    intro u hu
    rw [hstage]
    exact Function.update_of_ne hu _ _
  have hres : ∀ u, u ≠ t → Function.update res t (some r) u = res u :=
    fun u hu => Function.update_of_ne hu _ _
  have hout : c'.outcome (Function.update res t (some r)) t = some r :=
    outcome_of_res (Function.update_self _ _ _)
  have hund : c'.undecided = c.undecided.filter (· != t) := by
    refine undecided_of_exit ?_ hother
    rw [ht]
    exact Lock.queue_withdraw h.orderly.nodup t
  obtain ⟨done, todo, state, hp⟩ := h.plan
  refine h.of_settle hm ?_
  cases hm with
  | @drop target ticket hs hv =>
    -- it gave up in line, and whoever is to overwrite the state is another one
    refine ⟨done, _, state, hp.cancel hr hs rfl hother hres hout hund rfl ?_⟩
    rintro ⟨u, l, hu, hl⟩
    have hut : u ≠ t := by
      rintro rfl
      rw [hs] at hu
      cases hu
      exact hl
    exact ⟨u, l, (hother u hut).trans hu, hl⟩
  | @noServer ticket hs hv hh hn =>
    -- a reconnect without a server fails, and serving it on the book fails for the same reason
    have hstate := h.state_eq hp hh hs hv
    refine hp.commit h.nodup h.orderly hh hs rfl hr hother hres hout (fun he => nomatch he) hund ?_
    rintro g rfl
    unfold Book.serve
    rw [show (c.book.withState state).server = c.session.server from rfl, hn, hstate]
    rfl
  | @abort ticket call hs hv =>
    refine ⟨done, _, state, hp.cancel hr hs rfl hother hres hout hund rfl fun _ => ?_⟩
    -- the disconnect that made the ticket void is in line behind it
    obtain ⟨u, -, hu⟩ := (h.void t _ ticket hs rfl).1 hv
    have hut : u ≠ t := by
      rintro rfl
      rw [hs] at hu
      cases hu
    exact ⟨u, .leaving, (hother u hut).trans hu, trivial⟩
  | @refuse ticket ask due e b hs hd hv ha =>
    have hh := h.orderly.active t _ hs trivial
    refine hp.commit h.nodup h.orderly hh hs rfl hr hother hres hout (fun he => nomatch he) hund ?_
    intro g hg
    -- the refusal is what serving the request on the book comes to
    obtain ⟨hdial, hserve⟩ := hg.serve_eq (b := c.book.withState state)
    rw [hserve]
    exact dial_refuse hdial ha
  | @arrive ticket server call pollers hs =>
    -- decided when its tunnel was made, so that the plan has its result already
    refine ⟨done, todo, state, hp.arrive hs nofun hother ?_ hund rfl id⟩
    funext u
    by_cases hut : u = t
    · rw [hut, hout, outcome_of_stage hr hs]
      rfl
    · exact outcome_congr (hother u hut) (hres u hut)
  | @close due b hs hd ha =>
    have hh := h.orderly.active t _ hs trivial
    refine hp.commit h.nodup h.orderly hh hs rfl hr hother hres hout (fun he => nomatch he) hund ?_
    rintro g rfl
    exact hangUp_close ha
  | @fail due e b hs hd ha =>
    have hh := h.orderly.active t _ hs trivial
    refine hp.commit h.nodup h.orderly hh hs rfl hr hother hres hout (fun he => nomatch he) hund ?_
    rintro g rfl
    exact hangUp_fail ha

/-- What a task has as its result after a stretch of work. -/
def resultAfter (res : TaskId → Option Settled) (t : TaskId) :
    Progress Lifecycle Settled → TaskId → Option Settled
  | .waiting _ => res
  | .done r => Function.update res t (some r)

theorem resultAfter_of_ne {p : Progress Lifecycle Settled} (hu : u ≠ t) :
    resultAfter res t p u = res u := by
  cases p with
  | waiting l => rfl
  | done r => exact Function.update_of_ne hu _ _

/-- Moves keep the order. -/
theorem Linear.travel {p : Progress Lifecycle Settled} (ht : Travel t c p c')
    (h : Linear start issued res c) : Linear start issued (resultAfter res t p) c' := by
  induction ht with
  | stay => exact h
  | settle hm => exact h.settle hm
  | move hm _ ih => exact ih (h.move hm)

end Settles

end Core

end TunnelSession
