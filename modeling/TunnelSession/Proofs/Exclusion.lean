/-
  Who has the connection.

  QUEUE.  The holder of the lock and those in line, in order (`Lock.queue`): who asks goes to its
  end, and who is through or gives up leaves it.

  ORDER.  In every run exactly the tasks at a stage of a connect or a disconnect are in the queue,
  each of them once, and only its first has called the backend (`Core.Orderly`).  So there is at
  most one connect or disconnect of the backend under way at any time.
-/
import Mathlib.Data.List.Nodup
import TunnelSession.Proofs.Connection

namespace TunnelSession

namespace Lock

/-- The holder and those in line. -/
def queue (l : Lock) : List TaskId := l.holder.toList ++ l.line

variable {l : Lock} {t : TaskId}

/-- Who asks goes to the end of the queue, which may be its front. -/
theorem queue_request (h : l.WellFormed) (t : TaskId) : (l.request t).queue = l.queue ++ [t] := by
  unfold request queue
  cases hh : l.holder with
  | none =>
    dsimp only
    rw [h hh]
    rfl
  | some u => simp

theorem queue_release (hh : l.holder = some t) : l.queue = t :: l.release.queue := by
  unfold release queue
  rw [hh]
  cases l.line <;> rfl

theorem withdraw_of_holder (hh : l.holder = some t) : l.withdraw t = l.release := by
  unfold withdraw isHeldBy
  simp [hh]

theorem holder_withdraw_of_ne (hh : l.holder ≠ some t) : (l.withdraw t).holder = l.holder := by
  unfold withdraw isHeldBy
  simp [hh]

/-- Nobody waits for a lock that is free, also after somebody gave up. -/
theorem wellFormed_withdraw (h : l.WellFormed) (t : TaskId) : (l.withdraw t).WellFormed := by
  unfold withdraw
  split
  · exact wellFormed_release l
  · intro hn
    simp [h hn]

/-- Who gives up leaves the queue, and the others keep their order. The holder hands the lock on to
the next, and anybody else just leaves the line. -/
theorem queue_withdraw (h : l.queue.Nodup) (t : TaskId) :
    (l.withdraw t).queue = l.queue.filter (· != t) := by
  by_cases hh : l.holder = some t
  · -- the holder gives up: it was the first, and is not in line again
    have hq := queue_release hh
    rw [withdraw_of_holder hh, hq, List.filter_cons_of_neg (by simp)]
    rw [hq] at h
    refine (List.filter_eq_self.2 fun u hu => ?_).symm
    have hne : u ≠ t := by
      rintro rfl
      exact (List.nodup_cons.1 h).1 hu
    simpa using hne
  · -- somebody in line gives up, or somebody who is not there: the holder stays
    have hk : l.holder.toList.filter (· != t) = l.holder.toList := by
      refine List.filter_eq_self.2 fun u hu => ?_
      have hne : u ≠ t := by
        rintro rfl
        exact hh (Option.mem_toList.1 hu)
      simpa using hne
    have hw : l.withdraw t = { l with line := l.line.filter (· != t) } := by
      unfold withdraw isHeldBy
      simp [hh]
    rw [hw]
    unfold queue
    rw [List.filter_append, hk]

/-- The holder is the first of the queue. -/
theorem head?_queue (h : l.WellFormed) : l.queue.head? = l.holder := by
  unfold queue
  cases hh : l.holder with
  | none =>
    rw [h hh]
    rfl
  | some u => rfl

end Lock

/-- Has the request called the backend? -/
def Lifecycle.IsActive : Lifecycle → Prop
  | .queued .. | .leaving => False
  | _ => True

instance : DecidablePred Lifecycle.IsActive
  | .queued .. | .leaving => .isFalse id
  | .dialing .. | .sampling .. | .hangingUp _ => .isTrue trivial

namespace Core

variable {t u : TaskId} {c c' : Core}

/-- A request that moves holds the connection, and calls or has called the backend afterwards. -/
theorem Move.frame (h : Move t c c')
    (ha : ∀ l, c.stage t = some l → l.IsActive → c.transition.holder = some t) :
    c.transition.holder = some t ∧ c'.transition = c.transition ∧ c.stage t ≠ none ∧
      ∃ l, c'.stage = Function.update c.stage t (some l) ∧ l.IsActive := by
  cases h with
  | dial hs _ hh _ => exact ⟨hh, rfl, by simp [hs], _, rfl, trivial⟩
  | connect hs _ _ _ => exact ⟨ha _ hs trivial, rfl, by simp [hs], _, rfl, trivial⟩
  | @look ticket server call _ hs h =>
    have hl := h.sameLink
    refine ⟨ha _ hs trivial, hl.transition, by simp [hs], .sampling ticket server call, ?_, trivial⟩
    rw [hl.stage, ← hs, Function.update_eq_self]
  | hangUp hs hh => exact ⟨hh, rfl, by simp [hs], _, rfl, trivial⟩

/-- A request that settles leaves the queue. -/
theorem Settle.frame {s : Settled} (h : Settle t c s c')
    (ha : ∀ l, c.stage t = some l → l.IsActive → c.transition.holder = some t) :
    c'.transition = c.transition.withdraw t ∧ c.stage t ≠ none ∧
      c'.stage = Function.update c.stage t none := by
  cases h with
  | drop hs _ => exact ⟨rfl, by simp [hs], rfl⟩
  | noServer hs _ hh _ => exact ⟨(Lock.withdraw_of_holder hh).symm, by simp [hs], rfl⟩
  | abort hs | refuse hs | arrive _ hs | close hs | fail hs =>
    exact ⟨(Lock.withdraw_of_holder (ha _ hs trivial)).symm, by simp [hs], rfl⟩

/-- The queue is in order. -/
structure Orderly (c : Core) : Prop where
  wellFormed : c.transition.WellFormed
  nodup : c.transition.queue.Nodup
  mem : ∀ t, t ∈ c.transition.queue ↔ c.stage t ≠ none
  active : ∀ t l, c.stage t = some l → l.IsActive → c.transition.holder = some t

/-- A task that was at no stage joins the queue at its end. It was not in the queue before, so
nobody is in it twice. -/
theorem Orderly.enter (h : c.Orderly) {l : Lifecycle} (hs : c.stage t = none)
    (hl : ¬ l.IsActive) : (c.enter t l).Orderly := by
  have hq : (c.enter t l).transition.queue = c.transition.queue ++ [t] :=
    Lock.queue_request h.wellFormed t
  have hn : t ∉ c.transition.queue := fun hm => (h.mem t).1 hm hs
  refine ⟨Lock.wellFormed_request _ _, ?_, ?_, ?_⟩
  · -- it was not in the queue before
    rw [hq]
    rw [← List.concat_eq_append]
    exact List.Nodup.concat hn h.nodup
  · -- in the queue are those who were, and this one
    intro u
    rw [hq, List.mem_append, List.mem_singleton]
    by_cases hu : u = t
    · subst hu
      rw [show (c.enter u l).stage u = _ from put_stage_self _ _ _]
      simp
    · rw [show (c.enter t l).stage u = _ from put_stage_of_ne _ _ hu]
      simpa [hu] using h.mem u
  · -- it has not called the backend yet, so the first of the queue is who it was
    intro u k hk hak
    by_cases hu : u = t
    · subst hu
      rw [show (c.enter u l).stage u = _ from put_stage_self _ _ _] at hk
      cases hk
      exact absurd hak hl
    · rw [show (c.enter t l).stage u = _ from put_stage_of_ne _ _ hu] at hk
      have hh : c.transition.holder = some u := h.active u k hk hak
      show (c.transition.request t).holder = some u
      unfold Lock.request
      rw [hh]

/-- Who moves is the holder and stays it, so the queue is the same and has the same first. -/
theorem Orderly.move (h : c.Orderly) (hm : Move t c c') : c'.Orderly := by
  obtain ⟨hh, ht, hs, l, hst, hl⟩ := hm.frame (h.active t)
  refine ⟨ht ▸ h.wellFormed, ht ▸ h.nodup, ?_, ?_⟩
  · intro u
    rw [ht, hst]
    by_cases hu : u = t
    · subst hu
      simpa [hs] using h.mem u
    · rw [Function.update_of_ne hu]
      exact h.mem u
  · -- who has called the backend: the holder, which moved, or somebody who had before
    intro u k hk hak
    rw [ht]
    by_cases hu : u = t
    · subst hu
      exact hh
    · rw [hst, Function.update_of_ne hu] at hk
      exact h.active u k hk hak

/-- Who moves has the connection and keeps it, so nobody else has called the backend after it. -/
theorem Orderly.only_active_of_move (h : c.Orderly) (hm : Move t c c') {u : TaskId} {k : Lifecycle}
    (hu : c'.stage u = some k) (hk : k.IsActive) : u = t := by
  obtain ⟨hh, hq, -⟩ := hm.frame (h.active t)
  exact Option.some.inj (((h.move hm).active u k hu hk).symm.trans (by rw [hq, hh]))

/-- Who leaves the queue leaves the others in order, each at the stage where it was. If it had the
lock, the next in line has it now. -/
theorem Orderly.leave (h : c.Orderly) (ht : c'.transition = c.transition.withdraw t)
    (hst : c'.stage = Function.update c.stage t none) : c'.Orderly := by
  have hq : c'.transition.queue = c.transition.queue.filter (· != t) := by
    rw [ht]
    exact Lock.queue_withdraw h.nodup t
  refine ⟨ht ▸ Lock.wellFormed_withdraw h.wellFormed t, ?_, ?_, ?_⟩
  · rw [hq]
    exact h.nodup.filter _
  · -- whoever is left is at the stage where it was
    intro u
    rw [hq, hst, List.mem_filter]
    by_cases hu : u = t
    · subst hu
      simp
    · rw [Function.update_of_ne hu]
      simpa [hu] using h.mem u
  · -- who has called the backend and is still there was the first, and stays it
    intro u k hk hak
    have hu : u ≠ t := by
      rintro rfl
      rw [hst, Function.update_self] at hk
      cases hk
    rw [hst, Function.update_of_ne hu] at hk
    have hh : c.transition.holder = some u := h.active u k hk hak
    rw [ht, Lock.holder_withdraw_of_ne]
    · exact hh
    · rw [hh]
      exact fun he => hu (Option.some.inj he)

/-- A request that settles leaves the queue, and the others stay in order. -/
theorem Orderly.settle {s : Settled} (h : c.Orderly) (hm : Settle t c s c') : c'.Orderly := by
  obtain ⟨ht, -, hst⟩ := hm.frame (h.active t)
  exact h.leave ht hst

/-- The holder is the first of the queue, and is not in it again. -/
theorem Orderly.queue_cons (h : c.Orderly) (hh : c.transition.holder = some t) :
    ∃ rest, c.transition.queue = t :: rest ∧ t ∉ rest := by
  have hq := Lock.queue_release hh
  refine ⟨_, hq, ?_⟩
  have hn := h.nodup
  rw [hq] at hn
  exact (List.nodup_cons.1 hn).1

/-- Who is behind whom, when one more is in line: the pairs of before, and everybody in line in
front of the new one. -/
theorem behind_enter (h : c.Orderly) {l : Lifecycle} (v : TaskId) :
    [v, u].Sublist (c.enter t l).transition.queue ↔
      [v, u].Sublist c.transition.queue ∨ (v ∈ c.transition.queue ∧ u = t) := by
  have hq : (c.enter t l).transition.queue = c.transition.queue ++ [t] :=
    Lock.queue_request h.wellFormed t
  rw [hq]
  constructor
  · -- the pair lies in the old queue, or its second is the new one
    intro hs
    obtain ⟨l₁, l₂, heq, h₁, h₂⟩ := List.sublist_append_iff.1 hs
    rcases l₂ with _ | ⟨x, l₂⟩
    · -- nothing of the pair is the new one
      rw [List.append_nil] at heq
      rw [heq]
      exact .inl h₁
    · -- the second of the pair is the new one, so the first was in the queue
      have hlen := h₂.length_le
      have hx : x = t := List.mem_singleton.1 (h₂.subset List.mem_cons_self)
      have hnil : l₂ = [] := List.eq_nil_of_length_eq_zero (by simpa using hlen)
      subst hx hnil
      obtain ⟨rfl, he⟩ : l₁ = [v] ∧ [u] = [x] := by
        have := List.append_inj' (show [v] ++ [u] = l₁ ++ [x] from heq) rfl
        exact ⟨this.1.symm, this.2⟩
      cases he
      exact .inr ⟨h₁.subset List.mem_cons_self, rfl⟩
  · rintro (hs | ⟨hv, rfl⟩)
    · exact hs.trans (List.sublist_append_left _ _)
    · exact (List.singleton_sublist.2 hv).append (List.Sublist.refl [u])

/-- Every move keeps the queue in order. -/
theorem linkInvariant_orderly : LinkInvariant Orderly where
  -- the lock and the stages are all that the queue depends on
  same h ho := ⟨by rw [h.transition]; exact ho.wellFormed, by rw [h.transition]; exact ho.nodup,
    by rw [h.transition, h.stage]; exact ho.mem, by rw [h.transition, h.stage]; exact ho.active⟩
  enter l hs hl ho := by
    refine ho.enter hs ?_
    rcases hl with rfl | ⟨_, _, rfl⟩ <;> exact id
  move _ ho h := ho.move h
  settle _ ho h := ho.settle h

/-- At first nobody has the connection and nobody is in line. -/
theorem orderly_make (config : Config) (backend : Backend) :
    (Client.make config backend).core.Orderly where
  wellFormed := Lock.wellFormed_free
  nodup := .nil
  mem t := by
    show t ∈ [] ↔ (none : Option Lifecycle) ≠ none
    simp
  active t l h := by cases h

/-- Only one request can have called the backend. -/
theorem Orderly.unique (h : c.Orderly) {l k : Lifecycle} (ht : c.stage t = some l)
    (hu : c.stage u = some k) (hl : l.IsActive) (hk : k.IsActive) : t = u :=
  Option.some.inj ((h.active t l ht hl).symm.trans (h.active u k hu hk))

end Core

end TunnelSession
