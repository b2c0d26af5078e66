/-
  The plan behind a run.

  PLAN.  Of the requests that were issued and not cancelled, the first ones are decided and the rest
  is in line, in the order they were issued (`Core.Plan`).  Serving the decided ones after each
  other gives the results that they had, and the book of the core but for the state.

  CHANGES.  A request that is issued is the last one to be done (`Plan.enter`).  It may call the
  backend (`Plan.advance`), be decided (`Plan.commit`), be cancelled (`Plan.cancel`) or, once it is
  decided, leave (`Plan.arrive`).
-/
import TunnelSession.Proofs.Book
import TunnelSession.Proofs.Exclusion
import TunnelSession.Proofs.Attempts

namespace TunnelSession

/-- A request as it was issued: who made it, and its target; a disconnect has none. -/
abbrev Issue := TaskId × Option Target

/-- The result of a connect that waits for the statistics is known. -/
def Lifecycle.outcome? : Lifecycle → Option Settled
  | .sampling _ server _ => some (.ok (some server))
  | _ => none

/-- The stage is one that a request has before it is decided. -/
def Lifecycle.Pursues (server : Option Server) (g : Option Target) : Lifecycle → Prop
  | .queued target _ => g = some target
  | .dialing _ call => ∃ target ask, g = some target ∧ target.ask? server = some ask ∧ call.Runs ask
  | .sampling .. => False
  | .leaving | .hangingUp _ => g = none

/-- Will the request overwrite the state, whatever it is? -/
def Lifecycle.Overwrites : Lifecycle → Prop
  | .dialing .. | .leaving | .hangingUp _ => True
  | .queued .. | .sampling .. => False

/-- Was the request cancelled? -/
def isCancelled : Option Settled → Bool
  | some (.error .cancelled) => true
  | _ => false

/-- Only the result `cancelled` says so. -/
theorem isCancelled_iff {o : Option Settled} :
    isCancelled o = true ↔ o = some (.error .cancelled) := by
  constructor
  · intro h
    unfold isCancelled at h
    split at h
    · rfl
    · cases h
  · rintro rfl
    rfl

theorem isCancelled_of_ne {r : Settled} (h : r ≠ .error .cancelled) :
    isCancelled (some r) = false := by
  rw [← Bool.not_eq_true, isCancelled_iff]
  exact fun he => h (Option.some.inj he)

/-- What serving a connect asks the backend for is a tunnel. -/
theorem Target.isDial_of_ask? {server : Option Server} {target : Target} {ask : Ask Server}
    (h : target.ask? server = some ask) : ask.IsDial := by
  cases target with
  | server id =>
    cases h
    exact .inl ⟨id, rfl⟩
  | best =>
    cases h
    exact .inr rfl
  | last =>
    obtain ⟨server, -, he⟩ := Option.map_eq_some_iff.1 h
    exact .inl ⟨server.id, he.symm⟩

/-- Where a request stands that has not called the backend, the server does not matter. -/
theorem Lifecycle.Pursues.of_inactive {l : Lifecycle} {server server' : Option Server}
    {g : Option Target} (h : l.Pursues server g) (hl : ¬ l.IsActive) : l.Pursues server' g := by
  cases l with
  | queued | leaving => exact h
  | dialing | sampling | hangingUp => exact absurd trivial hl

/-- Serving a connect that has called the backend is that call. -/
theorem Lifecycle.Pursues.serve_eq {b : Book} {g : Option Target} {ticket due : Nat}
    {ask : Ask Server} (h : (Lifecycle.dialing ticket (.running ask due 0)).Pursues b.server g) :
    ask.IsDial ∧ b.serve g = b.dial ask := by
  obtain ⟨target, ask', rfl, hask, due', hrun⟩ := h
  cases hrun
  refine ⟨Target.isDial_of_ask? hask, ?_⟩
  unfold Book.serve
  dsimp only
  rw [hask]

namespace Core

variable {t u : TaskId} {c c' : Core} {res res' : TaskId → Option Settled} {issued : List Issue}

/-- What the request of a task came to, or comes to once it has its statistics. -/
def outcome (c : Core) (res : TaskId → Option Settled) (t : TaskId) : Option Settled :=
  (res t).or ((c.stage t).bind Lifecycle.outcome?)

/-- The requests that were not cancelled. -/
def kept (c : Core) (res : TaskId → Option Settled) (issued : List Issue) : List Issue :=
  issued.filter fun x => !isCancelled (c.outcome res x.1)

/-- Who is in line and not decided. -/
def undecided (c : Core) : List TaskId :=
  c.transition.queue.filter fun t => ((c.stage t).bind Lifecycle.outcome?).isNone

/-- The decided requests were served, and the others are in line. -/
structure Plan (start : Book) (issued : List Issue) (res : TaskId → Option Settled) (c : Core)
    (done todo : List Issue) (state : ConnectionState) : Prop where
  split : c.kept res issued = done ++ todo
  results : done.map (fun x => c.outcome res x.1) = (start.serveAll (done.map (·.2))).1.map some
  book : (start.serveAll (done.map (·.2))).2 = c.book.withState state
  queue : todo.map (·.1) = c.undecided
  pursues : ∀ x ∈ todo, ∃ l, c.stage x.1 = some l ∧ l.Pursues c.session.server x.2
  state : state = c.session.state ∨ ∃ u l, c.stage u = some l ∧ l.Overwrites

/-! ## The queue -/

/-- Nobody is in front of the first. -/
theorem not_behind {rest : List TaskId} (h : t ∉ rest) : ¬ [u, t].Sublist (t :: rest) := by
  intro hs
  cases hs with
  | cons _ hs => exact h (hs.subset (by simp))
  | cons_cons _ hs => exact h (hs.subset (by simp))

/-- Only the first has called the backend. -/
theorem Orderly.inactive (h : c.Orderly) (hh : c.transition.holder = some t) {l : Lifecycle}
    (hu : c.stage u = some l) (hne : u ≠ t) : ¬ l.IsActive := by
  intro ha
  have hhu := h.active u l hu ha
  rw [hh] at hhu
  exact hne (Option.some.inj hhu).symm

/-! ## Outcomes -/

theorem outcome_congr (hs : c'.stage u = c.stage u) (hr : res' u = res u) :
    c'.outcome res' u = c.outcome res u := by
  unfold outcome
  rw [hs, hr]

theorem outcome_of_stage {l : Lifecycle} (hr : res t = none) (hs : c.stage t = some l) :
    c.outcome res t = l.outcome? := by
  unfold outcome
  rw [hr, hs]
  rfl

theorem outcome_of_res {r : Settled} (hr : res t = some r) : c.outcome res t = some r := by
  unfold outcome
  rw [hr]
  rfl

theorem mem_kept {x : Issue} : x ∈ c.kept res issued ↔
    x ∈ issued ∧ c.outcome res x.1 ≠ some (.error .cancelled) := by
  unfold kept
  rw [List.mem_filter, Bool.not_eq_true', ← Bool.not_eq_true, isCancelled_iff]

/-- Whether a request is kept depends on its outcome only. -/
theorem kept_congr (h : ∀ x ∈ issued,
    isCancelled (c'.outcome res' x.1) = isCancelled (c.outcome res x.1)) :
    c'.kept res' issued = c.kept res issued := by
  refine List.filter_congr fun x hx => ?_
  rw [h x hx]

variable {start : Book} {done todo : List Issue} {state : ConnectionState}

theorem Plan.issued_of_done (h : Plan start issued res c done todo state) {x : Issue}
    (hx : x ∈ done) : x ∈ issued := by
  have hm : x ∈ c.kept res issued := by
    rw [h.split]
    exact List.mem_append_left _ hx
  exact (mem_kept.1 hm).1

theorem Plan.issued_of_todo (h : Plan start issued res c done todo state) {x : Issue}
    (hx : x ∈ todo) : x ∈ issued := by
  have hm : x ∈ c.kept res issued := by
    rw [h.split]
    exact List.mem_append_right _ hx
  exact (mem_kept.1 hm).1

/-- Nobody is in the plan twice. -/
theorem Plan.nodup (h : Plan start issued res c done todo state)
    (hn : (issued.map (·.1)).Nodup) : ((done ++ todo).map (·.1)).Nodup := by
  rw [← h.split]
  exact hn.sublist (List.filter_sublist.map _)

/-- Who is not decided is not done. -/
theorem Plan.ne_of_done (h : Plan start issued res c done todo state)
    (ht : c.outcome res t = none) {x : Issue} (hx : x ∈ done) : x.1 ≠ t := by
  intro he
  have hm : c.outcome res x.1 ∈ done.map fun x => c.outcome res x.1 := List.mem_map_of_mem hx
  rw [h.results] at hm
  obtain ⟨r, -, hr⟩ := List.mem_map.1 hm
  rw [he, ht] at hr
  cases hr

/-- Nobody is decided, comes or leaves: the book stays but for its state, and if that is another
one, somebody at the backend will overwrite it. -/
theorem Plan.congr (h : Plan start issued res c done todo state)
    (hs : ∀ u, (c'.stage u).bind Lifecycle.outcome? = (c.stage u).bind Lifecycle.outcome?)
    (hq : c'.transition = c.transition) {state' : ConnectionState}
    (hb : c'.book = c.book.withState state')
    (hp : ∀ x ∈ todo, ∃ l, c'.stage x.1 = some l ∧ l.Pursues c.session.server x.2)
    (hd : state = c'.session.state ∨ ∃ u l, c'.stage u = some l ∧ l.Overwrites) :
    Plan start issued res c' done todo state := by
  have hserver : c'.session.server = c.session.server := congrArg Book.server hb
  have hout : c'.outcome res = c.outcome res := by
    funext u
    unfold outcome
    rw [hs u]
  -- the parts of the plan, each read off the core that has the same outcomes
  refine ⟨?_, ?_, ?_, ?_, ?_, hd⟩
  · unfold kept
    rw [hout]
    exact h.split
  · rw [hout]
    exact h.results
  · rw [hb]
    exact h.book
  · unfold undecided
    simp only [hs]
    rw [hq]
    exact h.queue
  · rw [hserver]
    exact hp

/-! ## A request is issued -/

section Enter

variable {l : Lifecycle} {g : Option Target}

/-- A new request is the last one that is to be done. It is in line behind everybody, and nothing of
the book depends on it yet. -/
theorem Plan.enter (h : Plan start issued res c done todo state) (ho : c.Orderly)
    (hs : c.stage t = none) (hn : t ∉ issued.map (·.1)) (hr : res t = none)
    (hl : l.outcome? = none) (hg : l.Pursues c.session.server g) :
    Plan start (issued ++ [(t, g)]) res (c.enter t l) done (todo ++ [(t, g)]) state := by
  have hother : ∀ u, u ≠ t → (c.enter t l).stage u = c.stage u :=
    fun u hu => put_stage_of_ne _ _ hu
  have hself : (c.enter t l).stage t = some l := put_stage_self _ _ _
  have hne : ∀ x ∈ issued, x.1 ≠ t := by
    rintro x hx rfl
    exact hn (List.mem_map_of_mem hx)
  have hout : ∀ x ∈ issued, (c.enter t l).outcome res x.1 = c.outcome res x.1 :=
    fun x hx => outcome_congr (hother _ (hne x hx)) rfl
  have hnone : (c.enter t l).outcome res t = none := (outcome_of_stage hr hself).trans hl
  refine ⟨?_, ?_, h.book, ?_, ?_, ?_⟩
  · -- the new request is kept, behind those that were
    have hkept := kept_congr fun x hx => congrArg isCancelled (hout x hx)
    have hnew : (c.enter t l).kept res [(t, g)] = [(t, g)] := by
      unfold kept
      rw [List.filter_cons_of_pos (by rw [hnone]; rfl), List.filter_nil]
    show (c.enter t l).kept res (issued ++ [(t, g)]) = _
    rw [kept, List.filter_append, ← kept, ← kept, hkept, hnew, h.split, List.append_assoc]
  · rw [← h.results]
    exact List.map_congr_left fun x hx => hout x (h.issued_of_done hx)
  · -- the new task is in line, behind those that were
    have hq : (c.enter t l).transition.queue = c.transition.queue ++ [t] :=
      Lock.queue_request ho.wellFormed t
    have hold : c.transition.queue.filter
        (fun u => (((c.enter t l).stage u).bind Lifecycle.outcome?).isNone) = c.undecided := by
      refine List.filter_congr fun u hu => ?_
      have hut : u ≠ t := by
        rintro rfl
        exact (ho.mem u).1 hu hs
      rw [hother u hut]
    have hnew : [t].filter
        (fun u => (((c.enter t l).stage u).bind Lifecycle.outcome?).isNone) = [t] := by
      refine List.filter_eq_self.2 fun u hu => ?_
      rw [List.mem_singleton.1 hu, hself]
      show l.outcome?.isNone = true
      rw [hl]
      rfl
    unfold undecided
    rw [hq, List.filter_append, hold, hnew, List.map_append, h.queue]
    rfl
  · -- the new request pursues what it was issued for
    intro x hx
    rcases List.mem_append.1 hx with hx | hx
    · rw [hother _ (hne x (h.issued_of_todo hx))]
      exact h.pursues x hx
    · cases List.mem_singleton.1 hx
      exact ⟨l, hself, hg⟩
  · -- who was going to overwrite the state still is
    refine h.state.imp id ?_
    rintro ⟨u, k, hu, hk⟩
    have hut : u ≠ t := by
      rintro rfl
      rw [hs] at hu
      cases hu
    exact ⟨u, k, (hother u hut).trans hu, hk⟩

end Enter

/-! ## A plan is carried out -/

section Carry

variable {l l' : Lifecycle} {r : Settled}

/-- A request calls the backend. Nothing is decided by that, and the state that it shows meanwhile
is one that its answer overwrites. -/
theorem Plan.advance (h : Plan start issued res c done todo state) (hs : c.stage t = some l)
    (hst : c'.stage = Function.update c.stage t (some l')) (hq : c'.transition = c.transition)
    (hb : ∃ state', c'.book = c.book.withState state') (ho : l'.outcome? = l.outcome?)
    (hw : l'.Overwrites)
    (hp : ∀ g, l.Pursues c.session.server g → l'.Pursues c.session.server g) :
    Plan start issued res c' done todo state := by
  obtain ⟨state', hb⟩ := hb
  have hself : c'.stage t = some l' := by
    rw [hst]
    exact Function.update_self _ _ _
  have hother : ∀ u, u ≠ t → c'.stage u = c.stage u := by
    intro u hu
    rw [hst]
    exact Function.update_of_ne hu _ _
  refine h.congr ?_ hq hb ?_ (.inr ⟨t, l', hself, hw⟩)
  · -- calling the backend gives nobody an outcome
    intro u
    by_cases hu : u = t
    · rw [hu, hself, hs]
      exact ho
    · rw [hother u hu]
  · -- the request that calls goes on pursuing its target
    intro x hx
    obtain ⟨k, hk, hpk⟩ := h.pursues x hx
    by_cases hxt : x.1 = t
    · rw [hxt, hs] at hk
      cases hk
      exact ⟨l', by rw [hxt, hself], hp _ hpk⟩
    · exact ⟨k, by rw [hother _ hxt, hk], hpk⟩

/-- Who has an outcome now, or left the queue, is no longer undecided. -/
theorem undecided_of_sampled (hq : c'.transition = c.transition)
    (hother : ∀ u, u ≠ t → c'.stage u = c.stage u)
    (ht : ((c'.stage t).bind Lifecycle.outcome?).isNone = false) :
    c'.undecided = c.undecided.filter (· != t) := by
  unfold undecided
  rw [hq, List.filter_filter]
  refine List.filter_congr fun u _ => ?_
  by_cases hu : u = t
  · rw [hu, ht]
    simp
  · rw [hother u hu]
    simp [hu]

/-- Who leaves the queue is not undecided any more. -/
theorem undecided_of_exit (hq : c'.transition.queue = c.transition.queue.filter (· != t))
    (hother : ∀ u, u ≠ t → c'.stage u = c.stage u) :
    c'.undecided = c.undecided.filter (· != t) := by
  unfold undecided
  rw [hq, List.filter_filter, List.filter_filter]
  refine List.filter_congr fun u _ => ?_
  by_cases hu : u = t
  · simp [hu]
  · rw [hother u hu, Bool.and_comm]

/-- The first request is decided. It is the first of those to be done, as the holder is the first in
line, and serving it on the book gives its result and the book there is. -/
theorem Plan.commit (h : Plan start issued res c done todo state)
    (hn : (issued.map (·.1)).Nodup) (ho : c.Orderly) (hh : c.transition.holder = some t)
    (hs : c.stage t = some l) (hl : l.outcome? = none) (hr : res t = none)
    (hother : ∀ u, u ≠ t → c'.stage u = c.stage u) (hres : ∀ u, u ≠ t → res' u = res u)
    (hout : c'.outcome res' t = some r) (hrc : r ≠ .error .cancelled)
    (hq : c'.undecided = c.undecided.filter (· != t))
    (hserve : ∀ g, l.Pursues c.session.server g →
      (c.book.withState state).serve g = (r, c'.book)) :
    ∃ done todo state, Plan start issued res' c' done todo state := by
  obtain ⟨rest, hqueue, hrest⟩ := ho.queue_cons hh
  have hnone : c.outcome res t = none := (outcome_of_stage hr hs).trans hl
  -- the holder is the first that is undecided
  have hfirst : c.undecided =
      t :: rest.filter fun u => ((c.stage u).bind Lifecycle.outcome?).isNone := by
    unfold undecided
    rw [hqueue, List.filter_cons_of_pos]
    rw [hs]
    show l.outcome?.isNone = true
    rw [hl]
    rfl
  -- so the first of those that are to be done is its request
  obtain ⟨⟨t', g⟩, todo, rfl⟩ : ∃ x todo', todo = x :: todo' := by
    cases todo with
    | nil =>
      have hq' := h.queue
      rw [hfirst] at hq'
      cases hq'
    | cons x todo => exact ⟨x, todo, rfl⟩
  have hq' := h.queue
  rw [hfirst, List.map_cons] at hq'
  obtain ⟨rfl, htodo⟩ := List.cons.inj hq'
  obtain ⟨k, hk, hpk⟩ := h.pursues (t', g) List.mem_cons_self
  have hkl : k = l := Option.some.inj (hk.symm.trans hs)
  subst hkl
  have hnd := h.nodup hn
  have hsplit : done ++ (t', g) :: todo = (done ++ [(t', g)]) ++ todo := by simp
  have hdone : ∀ x ∈ done, x.1 ≠ t' := fun x hx => h.ne_of_done hnone hx
  have hne : ∀ x ∈ todo, x.1 ≠ t' := by
    intro x hx he
    have hm : t' ∈ todo.map (·.1) := by
      rw [← he]
      exact List.mem_map_of_mem hx
    rw [htodo] at hm
    exact hrest (List.mem_of_mem_filter hm)
  -- with the result the request moves from those to be done to those that are
  refine ⟨done ++ [(t', g)], todo, c'.session.state, ?_, ?_, ?_, ?_, ?_, .inl rfl⟩
  · rw [← hsplit, ← h.split]
    refine kept_congr fun x _ => ?_
    by_cases hx : x.1 = t'
    · rw [hx, hout, hnone]
      exact isCancelled_of_ne hrc
    · rw [outcome_congr (hother _ hx) (hres _ hx)]
  · -- what the book serves next is this request, with this result
    rw [List.map_append, List.map_append, List.map_singleton, List.map_singleton,
      Book.serveAll_snoc, h.book, hserve g hpk, List.map_append, ← h.results, List.map_singleton,
        hout]
    congr 1
    exact List.map_congr_left fun x hx =>
      outcome_congr (hother _ (hdone x hx)) (hres _ (hdone x hx))
  · rw [List.map_append, List.map_singleton, Book.serveAll_snoc, h.book, hserve g hpk]
    rfl
  · -- one less in line is undecided
    rw [hq, hfirst, List.filter_cons_of_neg (by simp), htodo]
    refine (List.filter_eq_self.2 fun u hu => ?_).symm
    have hut : u ≠ t' := by
      rintro rfl
      exact hrest (List.mem_of_mem_filter hu)
    simpa using hut
  · intro x hx
    obtain ⟨k', hk', hpk'⟩ := h.pursues x (List.mem_cons_of_mem _ hx)
    refine ⟨k', (hother _ (hne x hx)).trans hk', hpk'.of_inactive ?_⟩
    exact ho.inactive hh hk' (hne x hx)

/-- A request is cancelled: it is taken off those that are to be done, and the book is as if it had
never been issued. -/
theorem Plan.cancel (h : Plan start issued res c done todo state) (hr : res t = none)
    (hs : c.stage t = some l) (hl : l.outcome? = none)
    (hother : ∀ u, u ≠ t → c'.stage u = c.stage u)
    (hres : ∀ u, u ≠ t → res' u = res u)
    (hout : c'.outcome res' t = some (.error .cancelled))
    (hq : c'.undecided = c.undecided.filter (· != t)) (hb : c'.book = c.book)
    (hd : (∃ u l, c.stage u = some l ∧ l.Overwrites) → ∃ u l, c'.stage u = some l ∧ l.Overwrites) :
    Plan start issued res' c' done (todo.filter fun x => x.1 != t) state := by
  have hnone : c.outcome res t = none := (outcome_of_stage hr hs).trans hl
  have hdone : ∀ x ∈ done, x.1 ≠ t := fun x hx => h.ne_of_done hnone hx
  have hserver : c'.session.server = c.session.server := congrArg Book.server hb
  have hstate : c'.session.state = c.session.state := congrArg Book.state hb
  refine ⟨?_, ?_, ?_, ?_, ?_, ?_⟩
  · -- one request less is kept
    have hkept : c'.kept res' issued = (c.kept res issued).filter fun x => x.1 != t := by
      unfold kept
      rw [List.filter_filter]
      refine List.filter_congr fun x _ => ?_
      by_cases hx : x.1 = t
      · rw [hx, hout]
        simp [isCancelled]
      · rw [outcome_congr (hother _ hx) (hres _ hx)]
        simp [hx]
    rw [hkept, h.split, List.filter_append]
    congr 1
    exact List.filter_eq_self.2 fun x hx => by simpa using hdone x hx
  · -- what was done has its results still
    rw [← h.results]
    exact List.map_congr_left fun x hx =>
      outcome_congr (hother _ (hdone x hx)) (hres _ (hdone x hx))
  · -- the book does not know of it
    rw [hb]
    exact h.book
  · rw [hq, ← h.queue, List.filter_map]
    rfl
  · -- the others in line are where they were
    intro x hx
    obtain ⟨hx, hxt⟩ := List.mem_filter.1 hx
    rw [hserver, hother x.1 (by simpa using hxt)]
    exact h.pursues x hx
  · rw [hstate]
    exact h.state.imp id hd

/-- A request that was decided leaves. It was not among those to be done any more, so the plan
stays. -/
theorem Plan.arrive (h : Plan start issued res c done todo state) (hs : c.stage t = some l)
    (hl : l.outcome? ≠ none) (hother : ∀ u, u ≠ t → c'.stage u = c.stage u)
    (hout : c'.outcome res' = c.outcome res) (hq : c'.undecided = c.undecided.filter (· != t))
    (hb : c'.book = c.book) (hd : ¬ l.Overwrites) : Plan start issued res' c' done todo state := by
  have hserver : c'.session.server = c.session.server := congrArg Book.server hb
  have hstate : c'.session.state = c.session.state := congrArg Book.state hb
  -- who leaves was decided before, so the undecided ones are others
  have hnot : ∀ u ∈ c.undecided, u ≠ t := by
    rintro u hu rfl
    have hn := (List.mem_filter.1 hu).2
    rw [hs, Option.isNone_iff_eq_none] at hn
    exact hl hn
  refine ⟨?_, ?_, ?_, ?_, ?_, ?_⟩
  · unfold kept
    rw [hout]
    exact h.split
  · rw [hout]
    exact h.results
  · rw [hb]
    exact h.book
  · rw [hq, h.queue]
    exact (List.filter_eq_self.2 fun u hu => by simpa using hnot u hu).symm
  · intro x hx
    have hxt : x.1 ≠ t := by
      refine hnot x.1 ?_
      rw [← h.queue]
      exact List.mem_map_of_mem hx
    rw [hserver, hother _ hxt]
    exact h.pursues x hx
  · rw [hstate]
    refine h.state.imp id ?_
    rintro ⟨u, k, hu, hk⟩
    have hut : u ≠ t := by
      rintro rfl
      rw [hs] at hu
      cases hu
      exact hd hk
    exact ⟨u, k, (hother u hut).trans hu, hk⟩

end Carry

end Core

end TunnelSession
