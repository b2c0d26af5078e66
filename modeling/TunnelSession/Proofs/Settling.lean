/-
  Nobody leaves the connection half-way.

  PROBLEM.  A connect that is superseded while it waits for the backend gives the connection back
  and leaves the state as it is, `connecting` or `reconnecting`.  Until somebody takes the
  connection again, nobody who has it knows of that state.

  DEBT.  So every state of a request that runs is owed a settlement (`Core.Debt`): the request that
  made it still has the connection, or it came to `cancelled`, and then there is a disconnect, in
  line, handed the connection, or waiting for the worker of its bridge (`Core.Owed`).  Others may
  take the connection before that disconnect does.  They make a state of their own and owe that, or
  they change nothing.

  OUTCOMES.  A stretch of work changes nothing, leaves the old connection behind and waits, or ends
  in a state of no request (`Core.Outcome`).  That is all the invariant has to look at.
-/
import TunnelSession.Proofs.Accounts
import TunnelSession.Proofs.Mirror

namespace TunnelSession

/-- In `τ`, the last stretch of work that changed anything is `l`, and `post` follows it. -/
structure LastChange (τ pre : List Act) (l : Leg) (post : List Act) : Prop where
  split : τ = pre ++ .leg l :: post
  changes : ¬ l.Idle
  idle : ∀ m, .leg m ∈ post → m.Idle

/-- In `τ`, the request that a source has under way comes to `cancelled`. -/
def CancelledIn (s : Source) (τ : List Act) : Prop :=
  ∃ mid m rest, τ = mid ++ .leg m :: rest ∧ m.source = s ∧ settledBy s mid = 0 ∧
    m.result = .done (.error .cancelled)

/-- The task carries out the requests of the source. -/
def Client.Carries (w : Client) (t : TaskId) : Source → Prop
  | .call u => t = u
  | .bridge b => (w.bridge? b).map (·.worker) = some t

/-- A disconnect is in line for the connection or was handed it, or waits for the worker of its
bridge. -/
def Client.Owed (w : Client) : Prop :=
  (∃ t ∈ w.transition.queue, w.stage t = some .leaving) ∨
    ∃ b bridge job, w.bridge? b = some bridge ∧ job ∈ bridge.jobs ∧ job.request = .disconnect

theorem Backend.count_ne (b : Backend) (op : Operation) : b.count op ≠ b := by
  intro h
  have hc := congrArg (fun b : Backend => b.calls.get op) h
  simp [Backend.count] at hc

theorem CancelledIn.append {s : Source} {τ : List Act} (h : CancelledIn s τ) (more : List Act) :
    CancelledIn s (τ ++ more) := by
  obtain ⟨mid, m, rest, rfl, hm⟩ := h
  exact ⟨mid, m, rest ++ more, by simp, hm⟩

/-- An act that changes nothing comes after. -/
theorem LastChange.snoc {τ pre post : List Act} {l : Leg} (h : LastChange τ pre l post) {act : Act}
    (ha : ∀ m, act = .leg m → m.Idle) : LastChange (τ ++ [act]) pre l (post ++ [act]) where
  split := by rw [h.split, List.append_assoc, List.cons_append]
  changes := h.changes
  idle m hm := by
    rcases List.mem_append.1 hm with hm | hm
    · exact h.idle m hm
    · exact ha m (List.mem_singleton.1 hm).symm

namespace Core

variable {t : TaskId} {c c₀ c' : Core} {p : Progress Lifecycle Settled} {ticket : Nat}

/-- A disconnect has not begun. -/
def Owed (c : Core) : Prop :=
  (∃ t, c.stage t = some .leaving) ∨
    ∃ b u jobs job, c.crew b = some (u, jobs) ∧ job ∈ jobs ∧ job.request = .disconnect

/-! ## A connect that is through finds the connection up -/

/-- Who waits for the first statistics finds the connection up. -/
structure Sampled (c : Core) : Prop where
  orderly : c.Orderly
  up : ∀ t ticket server call, c.stage t = some (.sampling ticket server call) →
    c.session.state = .connected

/-- Nobody waits for statistics, since the task that has the connection does not. -/
theorem sampled_of_holder {l : Option Lifecycle} (ho : c.Orderly)
    (hh : ∀ u k, c.stage u = some k → k.IsActive → u = t) (hs : c.stage t = l)
    (hl : ∀ ticket server call, l ≠ some (.sampling ticket server call)) : Sampled c where
  orderly := ho
  up u ticket server call hu := by
    obtain rfl := hh u _ hu trivial
    exact absurd (hs.symm.trans hu) (hl ticket server call)

/-- A task that goes takes no connection with it. -/
theorem Sampled.leave (h : Sampled c) (ho : c'.Orderly)
    (hst : c'.stage = Function.update c.stage t none) (hs : c'.session = c.session) :
    Sampled c' where
  orderly := ho
  up u ticket server call hu := by
    rw [hs]
    refine h.up u ticket server call ?_
    by_cases he : u = t
    · subst he
      rw [hst, Function.update_self] at hu
      cases hu
    · rwa [hst, Function.update_of_ne he] at hu

/-- A connect gets its tunnel in the move that makes the connection up, and no other move follows
before it settles. -/
theorem Sampled.move (h : Sampled c) (hm : Move t c c') : Sampled c' := by
  have ho := h.orderly.move hm
  have honly : ∀ u k, c'.stage u = some k → k.IsActive → u = t :=
    fun u k => h.orderly.only_active_of_move hm
  cases hm with
  | dial | hangUp => exact sampled_of_holder ho honly (put_stage_self _ _ _) nofun
  | connect => exact ⟨ho, fun _ _ _ _ _ => rfl⟩
  | look _ hl =>
    refine ⟨ho, fun u ticket server call hu => ?_⟩
    rw [hl.sameLink.state]
    rw [hl.stage_eq] at hu
    exact h.up u ticket server call hu

/-- Who settles leaves nobody at the backend. -/
theorem Sampled.settle {s : Settled} (h : Sampled c) (hm : Settle t c s c') : Sampled c' := by
  have ho := h.orderly.settle hm
  obtain ⟨-, -, hst⟩ := hm.frame (h.orderly.active t)
  -- with the task that had the connection, nobody is left who has called the backend
  have hnone : ∀ l, c.stage t = some l → l.IsActive → Sampled c' := by
    intro l hl ha
    refine ⟨ho, fun u ticket server call hu => ?_⟩
    have he : u = t := by
      by_contra hne
      rw [hst, Function.update_of_ne hne] at hu
      exact hne (h.orderly.unique hu hl trivial ha)
    subst he
    rw [hst, Function.update_self] at hu
    cases hu
  cases hm with
  | drop | noServer => exact h.leave ho hst rfl
  | abort hs | refuse hs | arrive _ hs | close hs | fail hs => exact hnone _ hs trivial

/-- Every move keeps what a connect with a tunnel finds. -/
theorem linkInvariant_sampled : LinkInvariant Sampled where
  same h hi := by
    refine ⟨linkInvariant_orderly.same h hi.orderly, ?_⟩
    rw [h.stage, h.state]
    exact hi.up
  enter {t c} l hs hl hi := by
    refine ⟨linkInvariant_orderly.enter l hs hl hi.orderly, fun u ticket server call hu => ?_⟩
    -- who joins the line has no tunnel
    by_cases he : u = t
    · subst he
      rw [show (c.enter u l).stage u = _ from put_stage_self _ _ _] at hu
      rcases hl with rfl | ⟨_, _, rfl⟩ <;> cases hu
    · rw [show (c.enter t l).stage u = _ from put_stage_of_ne _ _ he] at hu
      exact hi.up u ticket server call hu
  move _ hi h := hi.move h
  settle _ hi h := hi.settle h

/-! ## What a stretch of work comes to -/

/-- What a stretch of work comes to for the state, if something says that a disconnect is owed. -/
inductive Outcome (owed : Prop) (c c' : Core) (start : Option Lifecycle)
    (p : Progress Lifecycle Settled) : Prop
  /-- Nothing is changed; who waited for the backend still does, or was superseded. -/
  | idle (hs : c'.session = c.session) (hb : c'.backend = c.backend) (ho : owed → c'.Owed)
    (hx : ∀ x, start = some x → x.IsBetween → p = .waiting x ∨
      p = .done (.error .cancelled) ∧ ∃ ticket call, x = .dialing ticket call ∧ ticket < c.epoch)
  /-- The old connection is left behind, and the request waits for the backend. -/
  | begins {x : Lifecycle} (hp : p = .waiting x) (hx : x.IsBetween) (hb : c'.backend ≠ c.backend)
    (hv : ∀ ticket, x.ticket? = some ticket → ¬ ticket < c.epoch)
  /-- The state is that of no request. -/
  | ends (h : c'.session.state.isTransitioning = false)

/-- A task that is through was no disconnect in line. -/
theorem Owed.leave (h : c.Owed) (hs : c.stage t ≠ some .leaving) (hb : c'.bridges = c.bridges)
    (hst : c'.stage = Function.update c.stage t none) : c'.Owed := by
  rcases h with ⟨u, hu⟩ | ⟨b, v, jobs, job, hjob⟩
  · refine .inl ⟨u, ?_⟩
    have hne : u ≠ t := by
      rintro rfl
      exact hs hu
    rw [hst, Function.update_of_ne hne]
    exact hu
  · exact .inr ⟨b, v, jobs, job, by unfold crew; rw [hb]; exact hjob⟩

/-- Once a connect is through, the connection stays up. -/
theorem Travel.state_of_sampling {server : Server} {call : Call Stats} (h : Travel t c p c')
    (hs : c.stage t = some (.sampling ticket server call)) :
    c'.session.state = c.session.state := by
  induction h with
  | stay => rfl
  | settle h =>
    cases h with
    | arrive => rfl
    | drop hk | noServer hk | abort hk | refuse hk | close hk | fail hk =>
      rw [hs] at hk
      cases hk
  | move h _ ih =>
    cases h with
    -- looks are all that such a connect does before it settles
    | look _ hl => exact (ih ((congrFun hl.stage_eq t).trans hs)).trans hl.sameLink.state
    | dial hk | connect hk | hangUp hk =>
      rw [hs] at hk
      cases hk

/-- What a connect that waits for the backend comes to: it waits on, gives up with a void ticket, or
has an answer that settles the state. -/
theorem Travel.outcome_dialing {call : Call Server} (h : Travel t c p c')
    (hs : c.stage t = some (.dialing ticket call)) :
    (c' = c ∧ p = .waiting (.dialing ticket call)) ∨
      (ticket < c.epoch ∧ p = .done (.error .cancelled) ∧ c' = c.exit t) ∨
      c'.session.state.isTransitioning = false := by
  cases h with
  | stay hk =>
    rw [hs] at hk
    cases hk
    exact .inl ⟨rfl, rfl⟩
  | settle h =>
    cases h with
    | abort hk hv =>
      rw [hs] at hk
      cases hk
      exact .inr (.inl ⟨hv, rfl, rfl⟩)
    | refuse => exact .inr (.inr rfl)
    | drop hk | noServer hk | arrive _ hk | close hk | fail hk =>
      rw [hs] at hk
      cases hk
  | move h ht =>
    cases h with
    | connect =>
      -- the tunnel is made: the state is settled, and stays so
      refine .inr (.inr ?_)
      rw [ht.state_of_sampling (put_stage_self _ _ _)]
      rfl
    | dial hk | look hk | hangUp hk =>
      rw [hs] at hk
      cases hk

/-- What a disconnect that waits for the backend comes to. -/
theorem Travel.outcome_hangingUp {call : Call Unit} (h : Travel t c p c')
    (hs : c.stage t = some (.hangingUp call)) :
    (c' = c ∧ p = .waiting (.hangingUp call)) ∨ c'.session.state.isTransitioning = false := by
  cases h with
  | stay hk =>
    rw [hs] at hk
    cases hk
    exact .inl ⟨rfl, rfl⟩
  | settle h =>
    cases h with
    | close | fail => exact .inr rfl
    | drop hk | noServer hk | abort hk | refuse hk | arrive _ hk =>
      rw [hs] at hk
      cases hk
  | move h =>
    cases h with
    | dial hk | connect hk | look hk | hangUp hk =>
      rw [hs] at hk
      cases hk

/-- A task that had the connection and changed nothing is through. -/
theorem outcome_exit {l : Lifecycle} (hs : c.stage t = some l) (hl : l ≠ .leaving)
    (hx : l.IsBetween → p = .waiting l ∨ p = .done (.error .cancelled) ∧
      ∃ ticket call, l = .dialing ticket call ∧ ticket < c.epoch) {q : Lock} :
    Outcome c.Owed c ({ c with transition := q }.put t none) (some l) p := by
  refine .idle rfl rfl (fun ho => ho.leave ?_ rfl rfl) ?_
  · rw [hs]
    exact fun he => hl (Option.some.inj he)
  · intro x he
    cases he
    exact hx

/-- What the work of any request comes to, one case for each stage that it starts from. It ends in a
settled state, or leaves the state alone. -/
theorem Travel.outcome {l : Lifecycle} (h : Travel t c p c') (hs : c.stage t = some l)
    (hc : c.Sampled) : Outcome c.Owed c c' (some l) p := by
  cases l with
  | sampling ticket server call =>
    -- it has its tunnel, so the state was settled before
    refine .ends ?_
    rw [h.state_of_sampling hs, hc.up t _ _ _ hs]
    rfl
  | dialing ticket call =>
    rcases h.outcome_dialing hs with ⟨rfl, rfl⟩ | ⟨hv, rfl, rfl⟩ | he
    · refine .idle rfl rfl id fun x hx _ => .inl ?_
      cases hx
      rfl
    · exact outcome_exit hs nofun fun _ => .inr ⟨rfl, ticket, call, rfl, hv⟩
    · exact .ends he
  | hangingUp call =>
    rcases h.outcome_hangingUp hs with ⟨rfl, rfl⟩ | he
    · refine .idle rfl rfl id fun x hx _ => .inl ?_
      cases hx
      rfl
    · exact .ends he
  | queued target ticket =>
    -- in line: it stays there, goes, or leaves the old connection behind
    cases h with
    | stay => exact .idle rfl rfl id fun x hx hb => by cases hx; cases hb
    | settle h =>
      cases h with
      | drop | noServer => exact outcome_exit hs nofun nofun
      | abort hk | refuse hk | arrive _ hk | close hk | fail hk =>
        rw [hs] at hk
        cases hk
    | move h ht =>
      cases h with
      | dial hk hv =>
        rw [hs] at hk
        cases hk
        -- the call begins with a ticket that is not void, so the request cannot be superseded here
        rcases ht.outcome_dialing (put_stage_self _ _ _) with ⟨rfl, rfl⟩ | ⟨hv', -⟩ | he
        · refine .begins rfl trivial (Backend.count_ne _ _) fun k hk => ?_
          cases hk
          exact hv
        · exact absurd hv' hv
        · exact .ends he
      | connect hk | look hk | hangUp hk =>
        rw [hs] at hk
        cases hk
  | leaving =>
    -- a disconnect in line: it stays there, or leaves the old connection behind
    cases h with
    | stay => exact .idle rfl rfl id fun x hx hb => by cases hx; cases hb
    | settle h =>
      cases h with
      | drop hk | noServer hk | abort hk | refuse hk | arrive _ hk | close hk | fail hk =>
        rw [hs] at hk
        cases hk
    | move h ht =>
      cases h with
      | hangUp =>
        rcases ht.outcome_hangingUp (put_stage_self _ _ _) with ⟨rfl, rfl⟩ | he
        · exact .begins rfl trivial (Backend.count_ne _ _) fun k hk => nomatch hk
        · exact .ends he
      | dial hk | connect hk | look hk =>
        rw [hs] at hk
        cases hk

/-- Who joins the line owes nothing less. -/
theorem Owed.enter (h : c.Owed) (hs : c.stage t = none) (l : Lifecycle) : (c.enter t l).Owed := by
  rcases h with ⟨u, hu⟩ | hjob
  · refine .inl ⟨u, ?_⟩
    have hne : u ≠ t := by
      rintro rfl
      rw [hs] at hu
      cases hu
    rw [show (c.enter t l).stage u = _ from put_stage_of_ne _ _ hne]
    exact hu
  · exact .inr hjob

/-- A request that was asked for just now is in line first. -/
theorem Outcome.of_enter {owed : Prop} {l : Lifecycle}
    (h : Outcome (c.enter t l).Owed (c.enter t l) c' (some l) p)
    (ho : owed → (c.enter t l).Owed) : Outcome owed c c' none p := by
  cases h with
  | idle hs hb ho' => exact .idle hs hb (fun h => ho' (ho h)) fun _ he => nomatch he
  | begins hp hx hb hv => exact .begins hp hx hb hv
  | ends h => exact .ends h

/-- What a stretch of work comes to; a disconnect is owed if it is one. -/
theorem Stretch.outcome {start : Start} (h : Stretch t c start p c') (hc : c.Sampled) :
    Outcome (c.Owed ∨ start = .disconnect) c c' start.stage? p := by
  cases h with
  | refuse => exact .idle rfl rfl (fun ho => ho.resolve_right nofun) fun _ he => nomatch he
  | @connect target ticket _ _ hs hv ht =>
    have hin := linkInvariant_sampled.enter (.queued target ticket) hs (.inr ⟨_, _, rfl⟩) hc
    exact (ht.outcome (put_stage_self _ _ _) hin).of_enter fun ho =>
      (ho.resolve_right nofun).enter hs _
  | disconnect hs ht =>
    -- the disconnect itself is owed from now on
    have hin := linkInvariant_sampled.enter .leaving hs (.inl rfl) hc
    exact (ht.outcome (put_stage_self _ _ _) hin).of_enter fun _ =>
      .inl ⟨t, put_stage_self _ _ _⟩
  | resume hs ht =>
    cases ht.outcome hs hc with
    | idle hs hb ho hx => exact .idle hs hb (fun h => ho (h.resolve_right nofun)) hx
    | begins hp hx hb hv => exact .begins hp hx hb hv
    | ends h => exact .ends h

/-! ## Who owes what -/

/-- In `past`, with `post` after the work that made the state: its request is still under way, or
came to `cancelled` and left the state to a disconnect. -/
inductive Debt (past post : List Act) (c : Core) (s : Source) (x : Lifecycle) : Prop
  | own (hs : standingOf s past = some x) (hn : settledBy s post = 0)
    (hv : ∀ ticket, x.ticket? = some ticket → ticket < c.epoch → c.Owed)
  | left (hc : CancelledIn s post) (hx : ∃ ticket call, x = .dialing ticket call) (ho : c.Owed)

/-- A state of a request that runs is owed a settlement. -/
def Indebted (past : List Act) (c : Core) : Prop :=
  c.session.state.isTransitioning = true → ∃ pre l post x, LastChange past pre l post ∧
    l.session'.state = c.session.state ∧ l.result = .waiting x ∧ x.IsBetween ∧
    Debt past post c l.source x

section Steps

variable {past : List Act}

/-- Nothing happens to the connection, and no disconnect is forgotten. -/
theorem Indebted.silent (h : Indebted past c) (hs : c'.session.state = c.session.state)
    (he : c'.epoch = c.epoch ∨ c'.Owed) (ho : c.Owed → c'.Owed) : Indebted past c' := by
  intro htr
  rw [hs] at htr
  obtain ⟨pre, l, post, x, hl, hstate, hr, hx, hd⟩ := h htr
  refine ⟨pre, l, post, x, hl, hstate.trans hs.symm, hr, hx, ?_⟩
  cases hd with
  | own hst hn hv =>
    refine .own hst hn fun ticket hk hlt => ?_
    rcases he with he | he
    · exact ho (hv ticket hk (he ▸ hlt))
    · exact he
  | left hc hx hw => exact .left hc hx (ho hw)

/-- A request is made. -/
theorem Indebted.request (h : Indebted past c) {act : Act} (ha : ∀ l, act ≠ .leg l) :
    Indebted (past ++ [act]) c := by
  intro htr
  obtain ⟨pre, l, post, x, hl, hstate, hr, hx, hd⟩ := h htr
  refine ⟨pre, l, post ++ [act], x, hl.snoc fun m hm => absurd hm (ha m), hstate, hr, hx, ?_⟩
  -- a request that is made is no work, so it moves nobody and settles nothing
  cases hd with
  | own hst hn hv =>
    refine .own ?_ ?_ hv
    · rw [standingOf_append, hst]
      cases act with
      | ask | leave => rfl
      | leg l => exact absurd rfl (ha l)
    · rw [settledBy_append, hn]
      cases act with
      | ask | leave => rfl
      | leg l => exact absurd rfl (ha l)
  | left hc hx hw => exact .left (hc.append _) hx hw

/-- Work that changes nothing is done while a settlement is owed. If it is the owner's own, the
owner waits on or gives up, and then a disconnect owes it. -/
theorem Debt.leg {post : List Act} {s : Source} {x : Lifecycle} {m : Leg}
    (h : Debt past post c s x) (hx : x.IsBetween) (hst : m.start = standingOf m.source past)
    (hm : m.start = some x → m.result = .waiting x ∨ m.result = .done (.error .cancelled) ∧
      ∃ ticket call, x = .dialing ticket call ∧ ticket < c'.epoch)
    (ho : c.Owed → c'.Owed) (he : c'.epoch = c.epoch ∨ c'.Owed) :
    Debt (past ++ [.leg m]) (post ++ [.leg m]) c' s x := by
  cases h with
  | left hc hx how => exact .left (hc.append _) hx (ho how)
  | own hown hn hvoid =>
    have hvoid' : ∀ ticket, x.ticket? = some ticket → ticket < c'.epoch → c'.Owed := by
      intro ticket hk hlt
      rcases he with he | how
      · exact ho (hvoid ticket hk (he ▸ hlt))
      · exact how
    have hstand := standingOf_append s past [.leg m]
    rw [List.foldl_cons, List.foldl_nil, Act.standing_leg] at hstand
    by_cases hsrc : m.source = s
    · -- the work is on the request that made the state: it waits, or was superseded
      rw [if_pos hsrc] at hstand
      rcases hm (by rw [hst, hsrc, hown]) with hr | ⟨hr, ticket, call, rfl, hlt⟩
      · refine .own (by rw [hstand, hr]; rfl) ?_ hvoid'
        rw [settledBy_append, hn]
        simp [settledBy, Act.settles, hr, Progress.stage?]
      · exact .left ⟨post, m, [], rfl, hsrc, hn, hr⟩ ⟨ticket, call, rfl⟩ (hvoid' ticket rfl hlt)
    · -- the work is on another request, and the one that made the state is where it was
      rw [if_neg hsrc] at hstand
      refine .own (hstand.trans hown) ?_ hvoid'
      rw [settledBy_append, hn]
      simp [settledBy, Act.settles, hsrc]

/-- A stretch of work is done.  No disconnect is forgotten, since if one is not owed any more it is
the one that begins. -/
theorem Indebted.leg {s : Source} {start : Start} (h : Indebted past c)
    (hs : Stretch t c₀ start p c') (hc : c₀.Sampled) (hsession : c₀.session = c.session)
    (hbackend : c₀.backend = c.backend) (hst : start.stage? = standingOf s past)
    (hd : start = .disconnect ∨ c₀.epoch = c.epoch ∧ (c.Owed → c₀.Owed ∨ start = .disconnect)) :
    Indebted (past ++ [.leg (c.leg c' s start.stage? p)]) c' := by
  intro htr
  have hepoch := hs.near.epoch
  cases hs.outcome hc with
  | ends he =>
    -- the work settled the state
    rw [he] at htr
    cases htr
  | @begins x hp hx hb hv =>
    -- the work made the state that is there now, and is where a settlement is owed from
    refine ⟨past, c.leg c' s start.stage? p, [], x, ⟨rfl, fun hi => hb (hi.backend.trans ?_), ?_⟩,
      rfl, hp, hx, .own ?_ rfl fun ticket hk hlt => ?_⟩
    · exact hbackend.symm
    · exact fun _ hm => nomatch hm
    · rw [standingOf_append, List.foldl_cons, List.foldl_nil, Act.standing_leg]
      simp [Core.leg, hp, Progress.stage?]
    · exact absurd (hepoch ▸ hlt) (hv ticket hk)
  | idle hss hb ho hx =>
    -- the work changed nothing, and what was owed before is owed still
    have hsame := hss.trans hsession
    rw [hsame] at htr
    obtain ⟨pre, l, post, x, hl, hstate, hr, hbetween, hdebt⟩ := h htr
    refine ⟨pre, l, post ++ [.leg (c.leg c' s start.stage? p)], x, hl.snoc ?_, ?_, hr, hbetween,
      hdebt.leg hbetween hst ?_ ?_ ?_⟩
    · intro m hm
      cases hm
      exact ⟨hsame, hb.trans hbackend⟩
    · rw [hstate, hsame]
    · intro hstart
      rw [hepoch]
      exact hx x hstart hbetween
    · rcases hd with hd | ⟨-, hw⟩
      · exact fun _ => ho (.inr hd)
      · exact fun how => ho (hw how)
    · rcases hd with hd | ⟨he, -⟩
      · exact .inr (ho (.inr hd))
      · exact .inl (hepoch.trans he)

end Steps

/-! ## Runs -/

/-- Who is in line, and who waits for a worker, is said by the stages and the crews. -/
theorem Owed.congr (h : c.Owed) (hs : c'.stage = c.stage) (hc : c'.crew = c.crew) : c'.Owed := by
  unfold Owed
  rw [hs, hc]
  exact h

/-- A job more takes no disconnect away. -/
theorem Owed.handOver (h : c.Owed) (b : BridgeId) (job : Job) : (c.handOver b job).Owed := by
  rcases h with hstage | ⟨b', u, jobs, job', hb, hmem, hjob⟩
  · exact .inl hstage
  · right
    -- the job is for the bridge where the disconnect waits, or for another one
    by_cases he : b' = b
    · subst he
      refine ⟨b', u, jobs ++ [job], job', ?_, List.mem_append_left _ hmem, hjob⟩
      rw [crew_handOver, Function.update_self, hb]
      rfl
    · refine ⟨b', u, jobs, job', ?_, hmem, hjob⟩
      rw [crew_handOver, Function.update_of_ne he]
      exact hb

/-- A disconnect that is handed over is owed. -/
theorem owed_handOver {b : BridgeId} {bridge : Bridge} (hb : c.bridges[b]? = some bridge)
    (ticket : Nat) : (c.handOver b ⟨.disconnect, ticket⟩).Owed := by
  refine .inr ⟨b, bridge.worker, bridge.jobs ++ [⟨.disconnect, ticket⟩], ⟨.disconnect, ticket⟩, ?_,
    List.mem_append_right _ (.head _), rfl⟩
  rw [crew_handOver, Function.update_self]
  unfold crew
  rw [hb]
  rfl

/-- A disconnect that is not owed any more begins: only its worker takes it off the jobs, to carry
it out. -/
theorem Owed.takeJob (h : c.Owed) {b : BridgeId} {bridge : Bridge} {job : Job} {rest : List Job}
    (hb : c.bridges[b]? = some bridge) (hj : bridge.jobs = job :: rest) :
    (c.takeJob b rest).Owed ∨ job.start = .disconnect := by
  rcases h with hstage | ⟨b', u, jobs, job', hb', hmem, hjob⟩
  · exact .inl (.inl hstage)
  by_cases he : b' = b
  · subst he
    have hcrew : c.crew b' = some (bridge.worker, job :: rest) := by
      unfold crew
      rw [hb, ← hj]
      rfl
    obtain ⟨rfl, rfl⟩ := Prod.mk.inj (Option.some.inj (hb'.symm.trans hcrew))
    -- the job that is taken is the disconnect itself, or one before it
    rcases List.mem_cons.1 hmem with rfl | hmem
    · right
      unfold Job.start
      rw [hjob]
      rfl
    · refine .inl (.inr ⟨b', bridge.worker, rest, job', ?_, hmem, hjob⟩)
      rw [crew_takeJob, Function.update_self, hcrew]
      rfl
  · refine .inl (.inr ⟨b', u, jobs, job', ?_, hmem, hjob⟩)
    rw [crew_takeJob, Function.update_of_ne he]
    exact hb'

/-- What is written of a task does not matter. -/
theorem Indebted.write {past : List Act} (h : Indebted past c) (t : TaskId) (task : Task) :
    Indebted past (c.write t task) :=
  h.silent rfl (.inl rfl) fun ho => ho.congr rfl rfl

/-- Every step keeps track of what is owed. A stretch of work that changes the state either settles
it or makes its task the owner. -/
theorem Indebted.step {past acts : List Act} (h : Indebted past c) (hc : c.Sampled)
    (ha : Accounts (past ++ acts) c') (hs : Step c acts c') : Indebted (past ++ acts) c' := by
  -- the accounts say where each stretch of work starts
  have hstart : ∀ pre l, past ++ acts = pre ++ [.leg l] → l.start = standingOf l.source pre :=
    fun pre l he => (ha.ledger.legs pre l [] he).start
  cases hs with
  | aside hw =>
    rw [List.append_nil]
    refine h.silent hw.sameLink.state (.inl hw.epoch_eq) fun ho => ho.congr hw.stage_eq ?_
    cases hw with
    | look hl => cases hl <;> rfl
    | bridge bs hb => exact crew_sameJobs hb
    | _ => rfl
  | turn | retire =>
    rw [List.append_nil]
    exact h.silent rfl (.inl rfl) fun ho => ho.congr rfl rfl
  | takeAsk =>
    exact (h.request fun _ => Act.ask_ne_leg).silent rfl (.inl rfl) fun ho => ho.handOver _ _
  | takeLeave hb =>
    -- the disconnect is owed as soon as its trigger is taken
    have how := owed_handOver (c := { c with epoch := c.epoch + 1 }) hb c.epoch
    exact (h.request fun _ => Act.leave_ne_leg).silent rfl (.inr how) fun _ => how
  | @ask t point target p c₁ _ _ hst =>
    have hr : Indebted (past ++ [.ask (.call t) target]) c := h.request fun _ => Act.ask_ne_leg
    have hl := hr.leg hst hc rfl rfl
      (hstart _ (c.leg c₁ (.call t) none p) (List.append_assoc _ [_] [_]).symm) (.inr ⟨rfl, .inl⟩)
    rw [List.append_assoc] at hl
    exact hl.write t _
  | @leave t p c₁ _ hst =>
    -- the disconnect that begins is the one that is owed
    have hr : Indebted (past ++ [.leave (.call t)]) c := h.request fun _ => Act.leave_ne_leg
    have hc' : Sampled { c with epoch := c.epoch + 1 } :=
      linkInvariant_sampled.same (c := c) ⟨rfl, rfl, rfl, rfl, rfl, rfl, rfl⟩ hc
    have hl := hr.leg hst hc' rfl rfl
      (hstart _ (c.leg c₁ (.call t) none p) (List.append_assoc _ [_] [_]).symm) (.inl rfl)
    rw [List.append_assoc] at hl
    exact hl.write t _
  | @resume t l p c₁ starts _ hst =>
    have hl := h.leg hst hc rfl rfl (hstart past (c.leg c₁ (.call t) (some l) p) rfl)
      (.inr ⟨rfl, .inl⟩)
    exact hl.write t _
  | @begin t b bridge job rest p c₁ _ hb hj hst =>
    have hc' : Sampled (c.takeJob b rest) :=
      linkInvariant_sampled.same (c := c) ⟨rfl, rfl, rfl, rfl, rfl, rfl, rfl⟩ hc
    have hl := h.leg hst hc' rfl rfl
      ((Job.stage?_start job).trans (hstart past (c.leg c₁ (.bridge b) none p) rfl))
      (.inr ⟨rfl, fun ho => ho.takeJob hb hj⟩)
    rw [Job.stage?_start] at hl
    exact hl.write t _
  | @carry t b job l p c₁ _ hst =>
    have hl := h.leg hst hc rfl rfl (hstart past (c.leg c₁ (.bridge b) (some l) p) rfl)
      (.inr ⟨rfl, .inl⟩)
    exact hl.write t _

/-- No change from outside settles anything or forgets a disconnect. -/
theorem Indebted.outside {past : List Act} {e : Event} (h : Indebted past c)
    (ho : Outside c e c') : Indebted past c' := by
  refine h.silent ho.sameLink.state (.inl ?_) fun hw => ?_
  · cases ho <;> rfl
  · cases ho with
    | openBridge hwk hj =>
      -- a new bridge takes no job away from the others
      rcases hw with hstage | ⟨b, u, jobs, job, hb, hjob⟩
      · exact .inl hstage
      · refine .inr ⟨b, u, jobs, job, ?_, hjob⟩
        rw [crew_openBridge hwk hj, Function.update_of_ne, hb]
        rintro rfl
        rw [crew_length] at hb
        cases hb
    | bridge bs hb => exact hw.congr rfl (crew_sameJobs hb)
    | _ => exact hw.congr rfl rfl

/-- What is kept throughout a run. -/
structure Settling (past : List Act) (c : Core) : Prop where
  accounts : Accounts past c
  sampled : c.Sampled
  indebted : Indebted past c

theorem Settling.step {past acts : List Act} (h : Settling past c) (hc : c.Sound)
    (hs : Step c acts c') : Settling (past ++ acts) c' := by
  have ha := h.accounts.step hs
  exact ⟨ha, linkInvariant_sampled.step hs hc h.sampled, h.indebted.step h.sampled ha hs⟩

theorem Settling.outside {past : List Act} {e : Event} (h : Settling past c) (hc : c.Sound)
    (ho : Outside c e c') : Settling past c' :=
  ⟨h.accounts.outside hc ho, linkInvariant_sampled.same ho.sameLink h.sampled,
    h.indebted.outside ho⟩

theorem settling_make (config : Config) (backend : Backend) :
    Settling [] (Client.make config backend).core where
  accounts := accounts_make config backend
  sampled := ⟨orderly_make config backend, fun _ _ _ _ h => nomatch h⟩
  indebted h := nomatch h

end Core

/-- In every run the state is owed a settlement if it is one of a request that runs. -/
theorem Client.settling_after (config : Config) {backend : Backend} (hb : backend.Prompt)
    (events : List Event) :
    ((make config backend).after events).core.Sound ∧
      Core.Settling ((make config backend).trace events)
        ((make config backend).after events).core := by
  exact invariant_after (I := Core.Settling) (P := fun _ => True)
    (fun _ _ _ _ hc h hs => h.step hc hs) (fun _ _ _ _ _ hc h ho => h.outside hc ho)
    (sound_make config hb) [] (Core.settling_make config backend) events fun _ _ => trivial

/-- What a source has under way, its task is at. -/
theorem Client.carries_of_standing {w : Client} (hc : w.core.Sound) {s : Source} {x : Lifecycle}
    (h : w.core.standing s = some x) : ∃ t, w.Carries t s ∧ w.stage t = some x := by
  have hstage : ∀ t task, w.core.entry t = some task → task.lifecycle? = some x →
      w.stage t = some x := fun t task ht hk => (hc.stage_of_entry ht).trans hk
  cases s with
  | call t =>
    -- a call is carried by itself
    obtain ⟨task, ht, hk⟩ := Option.bind_eq_some_iff.1 h
    refine ⟨t, rfl, hstage t task ht ?_⟩
    unfold Task.call? at hk
    split at hk <;> first | exact hk | cases hk
  | bridge b =>
    -- a request of a bridge is carried by its worker
    obtain ⟨⟨t, jobs⟩, hb, hwork⟩ := Option.bind_eq_some_iff.1 h
    obtain ⟨task, ht, hk⟩ := Option.bind_eq_some_iff.1 hwork
    obtain ⟨bridge, hbridge, he⟩ := Option.map_eq_some_iff.1 hb
    cases he
    refine ⟨bridge.worker, ?_, hstage _ task ht ?_⟩
    · show (w.bridges[b]?).map _ = _
      rw [show w.bridges[b]? = some bridge from hbridge]
      rfl
    · unfold Task.work? at hk
      split at hk <;> first | exact hk | cases hk

/-- A disconnect that is owed is in line, or waits for its worker. -/
theorem Client.owed_of_core {w : Client} (ho : w.core.Orderly) (h : w.core.Owed) : w.Owed := by
  rcases h with ⟨t, ht⟩ | ⟨b, u, jobs, job, hb, hmem, hjob⟩
  · have hmem : t ∈ w.transition.queue := (ho.mem t).2 (by rw [ht]; exact nofun)
    exact .inl ⟨t, hmem, ht⟩
  · obtain ⟨bridge, hbridge, he⟩ := Option.map_eq_some_iff.1 hb
    cases he
    exact .inr ⟨b, bridge, job, hbridge, hmem, hjob⟩

/-- At any point of any run at which the state is that of a request that runs, the work that made
it is known, and since then nothing was changed.  Either its request still has the connection, or
it was a connect that came to `cancelled`, and a disconnect is in line, has been handed the
connection, or waits for the worker of its bridge; the same disconnect is there already while the
connect is superseded and has not noticed.  So if no request is under way and no job waits, the
state is that of no request. -/
theorem transitioning_after (config : Config) (servers : List Server) (latency : Nat)
    (version : String) (events : List Event) :
    let w := (Client.fresh config servers latency version).after events
    let τ := (Client.fresh config servers latency version).trace events
    (w.session.state.isTransitioning = true → ∃ pre l post x, LastChange τ pre l post ∧
      l.session'.state = w.session.state ∧ l.result = .waiting x ∧ x.IsBetween ∧
      ((settledBy l.source post = 0 ∧
          (∃ t, w.Carries t l.source ∧ w.transition.holder = some t ∧ w.stage t = some x) ∧
          ∀ ticket, x.ticket? = some ticket → w.isVoid ticket = true → w.Owed) ∨
        ((∃ ticket call, x = .dialing ticket call) ∧ CancelledIn l.source post ∧ w.Owed))) ∧
    ((∀ t, w.stage t = none) → (∀ b bridge, w.bridge? b = some bridge → bridge.jobs = []) →
      w.session.state = .disconnected ∨ w.session.state = .connected ∨
        w.session.state = .error) := by
  intro w τ
  obtain ⟨hc, h⟩ : w.core.Sound ∧ Core.Settling τ w.core :=
    Client.settling_after config (Backend.prompt_make servers latency version) events
  have howed : w.core.Owed → w.Owed := Client.owed_of_core h.sampled.orderly
  have hrun : ∀ s x, standingOf s τ = some x → ∃ t, w.Carries t s ∧ w.stage t = some x :=
    fun s x hs => Client.carries_of_standing hc ((h.accounts.ledger.standing s).trans hs)
  refine ⟨fun htr => ?_, fun hidle hjobs => ?_⟩
  · obtain ⟨pre, l, post, x, hl, hstate, hr, hx, hd⟩ := h.indebted htr
    refine ⟨pre, l, post, x, hl, hstate, hr, hx, ?_⟩
    cases hd with
    | own hs hn hv =>
      -- the request that made the state still runs: it is at the backend, so it has the connection
      obtain ⟨t, hcarries, ht⟩ := hrun l.source x hs
      have hh : w.transition.holder = some t := h.sampled.orderly.active t x ht hx.isActive
      exact .inl ⟨hn, ⟨t, hcarries, hh, ht⟩, fun ticket hk hlt =>
        howed (hv ticket hk (of_decide_eq_true hlt))⟩
    | left hcan hdial ho => exact .inr ⟨hdial, hcan, howed ho⟩
  · -- a state of a request that runs would be owed a settlement by somebody
    have hno : ¬ w.core.Owed := by
      intro ho
      rcases howed ho with ⟨t, -, ht⟩ | ⟨b, bridge, job, hbridge, hmem, -⟩
      · rw [hidle t] at ht
        cases ht
      · rw [hjobs b bridge hbridge] at hmem
        cases hmem
    have hnot : w.session.state.isTransitioning ≠ true := by
      intro htr
      obtain ⟨pre, l, post, x, -, -, -, -, hd⟩ := h.indebted htr
      cases hd with
      | own hs =>
        obtain ⟨t, -, ht⟩ := hrun l.source x hs
        rw [hidle t] at ht
        cases ht
      | left _ _ ho => exact hno ho
    cases hs : w.session.state with
    | disconnected => exact .inl rfl
    | connected => exact .inr (.inl rfl)
    | error => exact .inr (.inr rfl)
    | connecting | disconnecting | reconnecting =>
      rw [hs] at hnot
      exact absurd rfl hnot

/-- A connect that was superseded leaves the state to the disconnect behind it. -/
theorem transitioning_after_cancelled :
    let w := (Client.fresh Config.default [] 5 "1").after
      [.call (.connect "x"), .call .disconnect, .poll 0]
    w.session.state = .connecting ∧ w.stage 0 = none ∧ w.Owed := by
  refine ⟨rfl, rfl, ?_⟩
  obtain ⟨pre, l, post, x, -, -, -, hx, hd⟩ := (transitioning_after Config.default [] 5 "1"
    [.call (.connect "x"), .call .disconnect, .poll 0]).1 rfl
  rcases hd with ⟨-, ⟨t, -, hh, ht⟩, -⟩ | ⟨-, -, ho⟩
  · -- the connection was handed to the disconnect, which has not begun
    cases hh
    cases ht
    cases hx
  · exact ho

end TunnelSession
