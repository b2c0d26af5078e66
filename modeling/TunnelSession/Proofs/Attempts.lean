/-
  What one stretch of work on a connect comes to.

  CANCELLED.  It ends with `cancelled` exactly if a disconnect was asked for since the ticket, and
  the backend has not answered before (`Leg.Tries`).  There is no other way: a void ticket is looked
  at before anything else, and nobody waits with one.

  NO TRACE.  Up to the answer of the backend a connect changes the state and forgets the statistics
  and nothing else (`Leg.Innocent`); while it is in line it changes nothing at all (`Leg.Idle`).
-/
import TunnelSession.Proofs.Requests
import TunnelSession.Proofs.Soundness

namespace TunnelSession

/-- Had the backend answered the connect before this stretch of work? -/
def Leg.Decided (l : Leg) : Prop :=
  ∃ ticket server call, l.start = some (.sampling ticket server call)

/-- Was the request still in line, for its worker or for the connection? -/
def Leg.InLine (l : Leg) : Prop :=
  l.start = none ∨ ∃ target ticket, l.start = some (.queued target ticket)

/-- The stretch of work changes neither the server nor the recently used ones, it makes the state
connecting at most, and it neither moves the tunnel nor uses up a failure. -/
structure Leg.Innocent (l : Leg) : Prop where
  server : l.session'.server = l.session.server
  recents : l.session'.recents = l.session.recents
  state : l.session'.state = l.session.state ∨ l.session'.state = .connecting ∨
    l.session'.state = .reconnecting
  tunnel : l.backend'.tunnel = l.backend.tunnel
  failures : l.backend'.failures = l.backend.failures

/-- The stretch of work changes nothing of the session and does not call the backend. -/
structure Leg.Idle (l : Leg) : Prop where
  session : l.session' = l.session
  backend : l.backend' = l.backend

/-- Work that changes nothing changes no more than an innocent one may. -/
theorem Leg.Idle.innocent {l : Leg} (h : l.Idle) : l.Innocent := by
  refine ⟨?_, ?_, .inl ?_, ?_, ?_⟩
  · rw [h.session]
  · rw [h.session]
  · rw [h.session]
  · rw [h.backend]
  · rw [h.backend]

/-- What a stretch of work on a connect with a ticket comes to after so many disconnects. -/
structure Leg.Tries (leaves ticket : Nat) (l : Leg) : Prop where
  cancelled : l.result = .done (.error .cancelled) ↔ ¬ l.Decided ∧ ticket < leaves
  dropped : l.result = .done (.error .cancelled) → l.Idle
  innocent : ∀ b, l.result = .waiting b → b.rank < 2 → l.Innocent
  idle : ∀ b, l.result = .waiting b → b.rank = 0 → l.Idle

theorem Lifecycle.rank_eq_two_iff {l : Lifecycle} :
    l.rank = 2 ↔ ∃ ticket server call, l = .sampling ticket server call := by
  cases l <;> simp [rank]

theorem Lifecycle.rank_le_two (l : Lifecycle) : l.rank ≤ 2 := by
  cases l <;> simp [rank]

namespace Core

variable {t : TaskId} {c c' c₁ : Core} {p : Progress Lifecycle Settled} {a : Lifecycle}

/-- A move takes a request on and leaves its ticket. -/
theorem Move.ticket_rank (h : Move t c c') (ha : c.stage t = some a) :
    ∃ b, c'.stage t = some b ∧ b.ticket? = a.ticket? ∧ a.rank ≤ b.rank := by
  cases h with
  | dial hs | connect hs =>
    rw [hs] at ha
    cases ha
    exact ⟨_, put_stage_self _ _ _, rfl, Nat.le_succ _⟩
  | look _ h => exact ⟨a, by rw [h.stage_eq, ha], rfl, Nat.le_refl _⟩
  | hangUp hs =>
    rw [hs] at ha
    cases ha
    exact ⟨_, put_stage_self _ _ _, rfl, Nat.le_succ _⟩

/-- A request that waits keeps its ticket and does not go back. -/
theorem Travel.ticket_rank (h : Travel t c p c') (ha : c.stage t = some a) :
    ∀ b, p = .waiting b → b.ticket? = a.ticket? ∧ a.rank ≤ b.rank := by
  induction h generalizing a with
  | stay hs _ =>
    intro b hb
    cases hb
    rw [ha] at hs
    cases hs
    exact ⟨rfl, Nat.le_refl _⟩
  | settle =>
    intro b hb
    cases hb
  | move h _ ih =>
    -- one move takes it on, and the rest does not take it back
    intro b hb
    obtain ⟨a', ha', ht, hr⟩ := h.ticket_rank ha
    obtain ⟨ht', hr'⟩ := ih ha' b hb
    exact ⟨ht'.trans ht, Nat.le_trans hr hr'⟩

/-- The leg of a stretch of work, of whatever source. -/
theorem Stretch.ticket_rank {start : Start} (h : Stretch t c start p c') :
    ∀ b, p = .waiting b → b.ticket? = start.ticket? ∧
      ∀ a, start = .resume a → a.rank ≤ b.rank := by
  intro b hb
  cases h with
  | refuse => cases hb
  | connect _ _ ht =>
    refine ⟨(ht.ticket_rank (put_stage_self _ _ _) b hb).1, ?_⟩
    intro a ha
    cases ha
  | disconnect _ ht =>
    refine ⟨(ht.ticket_rank (put_stage_self _ _ _) b hb).1, ?_⟩
    intro a ha
    cases ha
  | resume hs ht =>
    -- only work that goes on has a stage to compare with
    obtain ⟨hk, hr⟩ := ht.ticket_rank hs b hb
    refine ⟨hk, ?_⟩
    intro a ha
    cases ha
    exact hr

/-! ## Connects -/

section Connects

variable {s : Source} {k : Nat}

/-- Nothing is done. -/
theorem tries_stay (hw : c.Waits t a) (hk : a.ticket? = some k) :
    (c.leg c s (some a) (.waiting a)).Tries c.epoch k := by
  have hidle : (c.leg c s (some a) (.waiting a)).Idle := ⟨rfl, rfl⟩
  refine ⟨⟨?_, ?_⟩, fun _ => hidle, fun _ _ _ => hidle.innocent, fun _ _ _ => hidle⟩
  · intro he
    cases he
  · rintro ⟨-, hlt⟩
    cases a with
    | queued | dialing | sampling =>
      cases hk
      exact absurd hlt hw.1
    | leaving | hangingUp => cases hk

/-- A connect is dropped because of a disconnect. -/
theorem tries_cancelled {o : Option Lifecycle} (hs : c'.session = c.session)
    (hb : c'.backend = c.backend)
    (ho : ∀ ticket server call, o ≠ some (.sampling ticket server call))
    (hk : k < c.epoch) : (c.leg c' s o (.done (.error .cancelled))).Tries c.epoch k := by
  constructor
  · refine ⟨fun _ => ⟨?_, hk⟩, fun _ => rfl⟩
    rintro ⟨ticket, server, call, hstart⟩
    exact ho ticket server call hstart
  · intro _
    exact ⟨hs, hb⟩
  · intro b hw
    cases hw
  · intro b hw
    cases hw

/-- A connect that comes to something else was not superseded, or could not be any more. -/
theorem tries_done {r : Settled} (hr : r ≠ .error .cancelled)
    (hn : (∃ ticket server call, a = .sampling ticket server call) ∨ ¬ k < c.epoch) :
    (c.leg c' s (some a) (.done r)).Tries c.epoch k := by
  have hne : (c.leg c' s (some a) (.done r)).result ≠ .done (.error .cancelled) := by
    intro he
    cases he
    exact hr rfl
  refine ⟨⟨fun he => absurd he hne, ?_⟩, fun he => absurd he hne, ?_, ?_⟩
  · -- it had its tunnel, or its ticket was valid
    rintro ⟨hd, hlt⟩
    rcases hn with ⟨ticket, server, call, rfl⟩ | hv
    · exact absurd ⟨ticket, server, call, rfl⟩ hd
    · exact absurd hlt hv
  · intro b hw
    cases hw
  · intro b hw
    cases hw

/-- A connect that settles in one move: dropped from the line, aborted at the backend, or
through. -/
theorem Settle.tries {r : Settled} (h : Settle t c r c') (ha : c.stage t = some a)
    (hk : a.ticket? = some k) : (c.leg c' s (some a) (.done r)).Tries c.epoch k := by
  cases h with
  | drop hs hv =>
    rw [hs] at ha
    cases ha
    cases hk
    refine tries_cancelled rfl rfl ?_ hv
    intro ticket server call he
    cases he
  | noServer hs hv =>
    rw [hs] at ha
    cases ha
    cases hk
    exact tries_done nofun (.inr hv)
  | abort hs hv =>
    rw [hs] at ha
    cases ha
    cases hk
    refine tries_cancelled rfl rfl ?_ hv
    intro ticket server call he
    cases he
  | refuse hs _ hv =>
    rw [hs] at ha
    cases ha
    cases hk
    exact tries_done nofun (.inr hv)
  | arrive _ hs =>
    rw [hs] at ha
    cases ha
    exact tries_done nofun (.inl ⟨_, _, _, rfl⟩)
  | close hs | fail hs =>
    -- a disconnect has no ticket
    rw [hs] at ha
    cases ha
    cases hk

/-- A connect that went on without being superseded. -/
theorem tries_move {b : Lifecycle} (hb : c₁.stage t = some b) (ht : Travel t c₁ p c')
    (hc : p ≠ .done (.error .cancelled))
    (hn : (∃ ticket server call, a = .sampling ticket server call) ∨ ¬ k < c.epoch)
    (hr : 0 < b.rank) (hi : ∀ d, p = .waiting d → d.rank < 2 → (c.leg c' s (some a) p).Innocent) :
    (c.leg c' s (some a) p).Tries c.epoch k := by
  refine ⟨⟨fun he => absurd he hc, ?_⟩, fun he => absurd he hc, hi, ?_⟩
  · rintro ⟨hd, hlt⟩
    rcases hn with ⟨ticket, server, call, rfl⟩ | hv
    · exact absurd ⟨ticket, server, call, rfl⟩ hd
    · exact absurd hlt hv
  · intro d hd hz
    have hle := (ht.ticket_rank hb d hd).2
    omega

/-- All work on a connect, by induction on its moves: only the move that leaves the old connection
tries the backend, and the ticket was valid then. -/
theorem Travel.tries (h : Travel t c p c') (ha : c.stage t = some a) (hk : a.ticket? = some k) :
    (c.leg c' s (some a) p).Tries c.epoch k := by
  induction h generalizing a with
  | stay hs hw =>
    rw [ha] at hs
    cases hs
    exact tries_stay hw hk
  | settle h => exact h.tries ha hk
  | move h ht ih =>
    cases h with
    | @dial target ticket state ask hs hv _ haim =>
      -- the move that leaves the old connection: the ticket was valid, and the state is connecting
      -- or reconnecting
      rw [hs] at ha
      cases ha
      cases hk
      have hih := ih (put_stage_self _ _ _) rfl
      refine tries_move (put_stage_self _ _ _) ht ?_ (.inr hv) Nat.one_pos ?_
      · exact fun hp => hv (hih.cancelled.1 hp).2
      · intro d hd hlt
        obtain ⟨h1, h2, h3, h4, h5⟩ := hih.innocent d hd hlt
        refine ⟨h1, h2, ?_, h4, h5⟩
        rcases h3 with h3 | h3
        · rcases Session.state_of_aim haim with rfl | ⟨rfl, -⟩
          · exact .inr (.inl h3)
          · exact .inr (.inr h3)
        · exact .inr h3
    | connect hs _ hv _ =>
      -- the move that gets the tunnel: from here on it cannot be superseded
      rw [hs] at ha
      cases ha
      cases hk
      have hih := ih (put_stage_self _ _ _) rfl
      refine tries_move (put_stage_self _ _ _) ht ?_ (.inr hv) Nat.two_pos ?_
      · exact fun hp => hv (hih.cancelled.1 hp).2
      · intro d hd hlt
        exact absurd (ht.ticket_rank (put_stage_self _ _ _) d hd).2 (Nat.not_le.2 hlt)
    | @look ticket server call _ hs h =>
      -- it has its tunnel
      rw [hs] at ha
      cases ha
      have hb := (congrFun h.stage_eq t).trans hs
      have hih := ih hb hk
      refine tries_move hb ht ?_ (.inl ⟨_, _, _, rfl⟩) Nat.two_pos ?_
      · exact fun hp => (hih.cancelled.1 hp).1 ⟨_, _, _, rfl⟩
      · intro d hd hlt
        exact absurd (ht.ticket_rank hb d hd).2 (Nat.not_le.2 hlt)
    | hangUp hs =>
      rw [hs] at ha
      cases ha
      cases hk

/-- Where the leg of a stretch of work starts. -/
def Start.stage? : Start → Option Lifecycle
  | .resume l => some l
  | _ => none

theorem Job.stage?_start (job : Job) : job.start.stage? = none := by
  unfold Job.start
  cases job.request.target? <;> rfl

/-- A stretch of work on a connect. -/
theorem Stretch.tries {start : Start} (h : Stretch t c start p c')
    (hk : start.ticket? = some k) : (c.leg c' s start.stage? p).Tries c.epoch k := by
  cases h with
  | refuse _ hv =>
    cases hk
    refine tries_cancelled rfl rfl ?_ hv
    intro ticket server call he
    cases he
  | connect _ hv ht =>
    cases hk
    -- from the line on, it is a connect that stands somewhere
    have h := ht.tries (s := s) (put_stage_self _ _ _) rfl
    refine ⟨⟨fun he => ?_, fun ⟨_, hlt⟩ => absurd hlt hv⟩, fun he => ?_, ?_, ?_⟩
    · exact absurd (h.cancelled.1 he).2 hv
    · exact absurd (h.cancelled.1 he).2 hv
    · intro b hb hlt
      obtain ⟨h1, h2, h3, h4, h5⟩ := h.innocent b hb hlt
      exact ⟨h1, h2, h3, h4, h5⟩
    · intro b hb hz
      obtain ⟨h1, h2⟩ := h.idle b hb hz
      exact ⟨h1, h2⟩
  | disconnect => cases hk
  | resume hs ht => exact ht.tries hs hk

end Connects

end Core

end TunnelSession
