/-
  The tunnel that is up, and the disconnects since.

  TUNNEL.  A stretch of work makes a tunnel if it gets to the first statistics, or past them, from
  somewhere before (`Leg.Makes`).  While the state is `connected`, the last one that was made is the
  one that is up (`LiveTunnel`).

  SINCE.  No disconnect that was asked for since then has come to its result, for it would have left
  the connection down (`Step.down`).  And who waits for statistics is the connect that made this
  tunnel, with a ticket that was valid then; so a ticket that is void became so since.
-/
import TunnelSession.Proofs.Graph

namespace TunnelSession

/-- Did the connect get its tunnel in this stretch of work? -/
def Leg.Makes (l : Leg) : Prop := l.result.HasTunnel ∧ ¬ l.Decided

/-- Does the connect that got its tunnel come to its result in this stretch of work? -/
def Leg.Arrives (l : Leg) : Prop := l.Decided ∧ l.result.stage? = none

/-- In `τ`, the last tunnel was made by `l`, and `post` follows it. -/
structure LastTunnel (τ pre : List Act) (l : Leg) (post : List Act) : Prop where
  split : τ = pre ++ .leg l :: post
  makes : l.Makes
  last : ∀ m, .leg m ∈ post → ¬ m.Makes

/-- In `τ`, the last tunnel is up. -/
structure LiveTunnel (τ pre : List Act) (l : Leg) (post : List Act) : Prop
    extends LastTunnel τ pre l post where
  /-- A disconnect that was asked for since has no result yet. -/
  undone : ∀ a s b, post = a ++ .leave s :: b → settledBy s τ ≤ madeBy s (pre ++ .leg l :: a)
  /-- Who waits for statistics has made it, and its ticket was valid then. -/
  own : ∀ s ticket server call, standingOf s τ = some (.sampling ticket server call) →
    s = l.source ∧ leavesIn (pre ++ [.leg l]) ≤ ticket

/-- A disconnect has no ticket. -/
theorem ticketsOf_leave (s : Source) (past rest : List Act) :
    (ticketsOf s 0 (past ++ .leave s :: rest))[madeBy s past]? = some none := by
  rw [ticketsOf_append, ← length_ticketsOf s past 0,
    List.getElem?_append_right (Nat.le_refl _), Nat.sub_self, Nat.zero_add, ticketsOf]
  simp [Act.tickets]

namespace Ledger

variable {past : List Act} {leaves : Nat} {standing : Source → Option Lifecycle}
  {pending : Source → List (Option Nat)} {s : Source}

/-- The oldest request without a result has the number of the results. -/
theorem oldest (h : Ledger past leaves standing pending) {k : Option Nat}
    {more : List (Option Nat)} (hp : pending s = k :: more) :
    (ticketsOf s 0 past)[settledBy s past]? = some k := by
  obtain ⟨settled, ht, hn⟩ := h.pending s
  rw [ht, hp, ← hn, List.getElem?_append_right (Nat.le_refl _), Nat.sub_self]
  rfl

theorem settledBy_le (h : Ledger past leaves standing pending) (s : Source) :
    settledBy s past ≤ madeBy s past := by
  obtain ⟨settled, ht, hn⟩ := h.pending s
  rw [← length_ticketsOf s past 0, ht, ← hn, List.length_append]
  exact Nat.le_add_right _ _

end Ledger

/-! ## A disconnect that is through -/

namespace Core

variable {t : TaskId} {c c' : Core} {p : Progress Lifecycle Settled}

/-- A disconnect that comes to its result leaves the connection down. -/
theorem Travel.down {l : Lifecycle} (h : Travel t c p c') (hs : c.stage t = some l)
    (hl : l.ticket? = none) (hp : p.stage? = none) : c'.session.state ≠ .connected := by
  -- the induction is on the moves: only a disconnect has no ticket, and it leaves the connection
  -- first
  induction h generalizing l with
  | stay => cases hp
  | settle h =>
    cases h with
    | close | fail => exact nofun
    | drop hk | noServer hk | abort hk | refuse hk | arrive _ hk =>
      rw [hs] at hk
      cases hk
      cases hl
  | move h _ ih =>
    cases h with
    | hangUp => exact ih (put_stage_self _ _ _) rfl hp
    | dial hk | connect hk | look hk =>
      rw [hs] at hk
      cases hk
      cases hl

/-- A disconnect that comes to its result leaves the connection down. -/
theorem Stretch.down {start : Start} (h : Stretch t c start p c') (hk : start.ticket? = none)
    (hp : p.stage? = none) : c'.session.state ≠ .connected := by
  cases h with
  | refuse | connect => cases hk
  | disconnect _ ht => exact ht.down (put_stage_self _ _ _) rfl hp
  | resume hs ht => exact ht.down hs hk hp

/-- Work on a request without a ticket that comes to its result leaves the connection down. Such a
request is a disconnect, and a step with work in it ends with that work. -/
theorem Step.down {past acts pre : List Act} {m : Leg} (h : Step c acts c') (ha : Accounts past c)
    (hacts : acts = pre ++ [.leg m]) (hm : m.result.stage? = none)
    (ht : (ticketsOf m.source 0 (past ++ pre))[settledBy m.source (past ++ pre)]? = some none) :
    c'.session.state ≠ .connected := by
  -- the work comes last
  have hlast : ∀ (first : List Act) {l : Leg}, first ++ [.leg l] = pre ++ [.leg m] →
      pre = first ∧ m = l := by
    intro first l he
    obtain ⟨h₁, h₂⟩ := List.append_inj' he rfl
    cases List.singleton_inj.1 h₂
    exact ⟨h₁.symm, rfl⟩
  -- its request is the oldest one of its source without a result
  have hnone : ∀ {leaves standing pending} (k : Option Nat) (more : List (Option Nat)),
      Ledger (past ++ pre) leaves standing pending → pending m.source = k :: more → k = none :=
    fun _ _ hl hp => Option.some.inj ((hl.oldest hp).symm.trans ht)
  cases h with
  | aside | turn | retire => cases pre <;> cases hacts
  | takeAsk | takeLeave =>
    rcases pre with _ | ⟨_, _ | ⟨_, _⟩⟩ <;> cases hacts
  | @ask t point target p c₁ ho hask hs =>
    obtain ⟨rfl, rfl⟩ := hlast [_] hacts
    have hp :
        Function.update c.pending (.call t) (c.pending (.call t) ++ [some c.epoch]) (.call t) =
        [some c.epoch] := by
      rw [Function.update_self, pending_call ho, call?_of_asks hask]
      rfl
    cases hnone _ _ (ha.ledger.ask (.call t) target) hp
  | leave _ hs =>
    obtain ⟨rfl, rfl⟩ := hlast [_] hacts
    exact hs.down rfl hm
  | @resume t l p c₁ starts ho hs =>
    obtain ⟨rfl, rfl⟩ := hlast [] hacts
    rw [List.append_nil] at hnone
    refine hs.down (hnone _ [] ha.ledger ?_) hm
    show c.pending (.call t) = _
    cases starts <;> exact pending_call ho
  | @begin t b bridge job rest p c₁ ho hb hj hs =>
    obtain ⟨rfl, rfl⟩ := hlast [] hacts
    rw [List.append_nil] at hnone
    obtain ⟨jobs, hcb⟩ := ha.staffed.owner t b none ho
    have hjobs : jobs = job :: rest := by
      have hcb' := hcb
      unfold crew at hcb'
      rw [hb] at hcb'
      cases hcb'
      exact hj
    refine hs.down (job.ticket?_start.trans (hnone _ (rest.map Job.ticket?) ha.ledger ?_)) hm
    rw [show (c.leg c₁ (.bridge b) none p).source = .bridge b from rfl, pending_bridge hcb ho,
      hjobs]
    rfl
  | @carry t b job l p c₁ ho hs =>
    obtain ⟨rfl, rfl⟩ := hlast [] hacts
    rw [List.append_nil] at hnone
    obtain ⟨jobs, hcb⟩ := ha.staffed.owner t b _ ho
    exact hs.down (hnone _ _ ha.ledger (pending_bridge hcb ho)) hm

end Core

/-! ## What follows a tunnel -/

namespace LiveTunnel

variable {τ pre post : List Act} {l m : Leg}

/-- The disconnects up to the tunnel, and those since. -/
theorem leavesIn_eq (h : LiveTunnel τ pre l post) :
    leavesIn τ = leavesIn (pre ++ [.leg l]) + leavesIn post := by
  rw [h.split, ← leavesIn_append, List.append_assoc, List.singleton_append]

/-- Requests come after: as long as nobody works, the tunnel that was made last is still the last
one. -/
theorem requests {acts : List Act} (h : LiveTunnel τ pre l post) (hn : ∀ m, .leg m ∉ acts)
    (hle : ∀ s, settledBy s τ ≤ madeBy s τ) :
    LiveTunnel (τ ++ acts) pre l (post ++ acts) where
  split := by rw [h.split, List.append_assoc, List.cons_append]
  makes := h.makes
  last m hm := by
    rcases List.mem_append.1 hm with hm | hm
    · exact h.last m hm
    · exact absurd hm (hn m)
  undone a s b he := by
    rw [settledBy_append_of_noLeg _ _ _ hn]
    -- the disconnect is one of those that come now, or of before
    rcases List.append_eq_append_iff.1 he with ⟨a', rfl, -⟩ | ⟨b', hb', hb⟩
    · -- the disconnect is one of those that come after
      rw [← List.cons_append, ← List.append_assoc, ← h.split, madeBy_append]
      exact Nat.le_trans (hle s) (Nat.le_add_right _ _)
    · cases b' with
      | nil =>
        rw [List.append_nil] at hb'
        rw [← hb', ← h.split]
        exact hle s
      | cons act b' =>
        cases hb
        exact h.undone a s b' hb'
  own s ticket server call hs := by
    rw [standingOf_append_of_noLeg _ _ _ hn] at hs
    exact h.own s ticket server call hs

/-- Work comes after that makes no tunnel, and leaves the connection up. So it settles no
disconnect, and the disconnects since are still to come. -/
theorem leg (h : LiveTunnel τ pre l post) (hm : ¬ m.Makes)
    (hstart : m.start = standingOf m.source τ)
    (hdown : m.result.stage? = none →
      (ticketsOf m.source 0 τ)[settledBy m.source τ]? ≠ some none)
    (hvalid : ∀ ticket server call, m.result = .waiting (.sampling ticket server call) →
      leavesIn τ ≤ ticket) : LiveTunnel (τ ++ [.leg m]) pre l (post ++ [.leg m]) where
  split := by rw [h.split, List.append_assoc, List.cons_append]
  makes := h.makes
  last n hn := by
    rcases List.mem_append.1 hn with hn | hn
    · exact h.last n hn
    · cases List.mem_singleton.1 hn
      exact hm
  undone a s b he := by
    obtain ⟨b', rfl⟩ : ∃ b', post = a ++ .leave s :: b' := by
      rcases List.append_eq_append_iff.1 he with ⟨a', -, hb⟩ | ⟨b', hb', hb⟩
      · rcases a' with _ | ⟨_, _ | ⟨_, _⟩⟩ <;> cases hb
      · cases b' with
        | nil => cases hb
        | cons act b' =>
          cases hb
          exact ⟨b', hb'⟩
    have hle := h.undone a s b' rfl
    have hsettled : settledBy s [.leg m] = if Act.settles s (.leg m) then 1 else 0 := by
      unfold settledBy
      rw [List.countP_cons, List.countP_nil, Nat.zero_add]
    rw [settledBy_append, hsettled, Act.settles_leg]
    split
    · -- the work comes to the result of another request
      rename_i hset
      obtain ⟨rfl, hres⟩ : m.source = s ∧ m.result.stage? = none := by simpa using hset
      refine Nat.lt_of_le_of_ne hle fun heq => hdown hres ?_
      rw [heq, h.split, ← List.cons_append, ← List.append_assoc]
      exact ticketsOf_leave m.source _ b'
    · exact hle
  own s ticket server call hs := by
    rw [standingOf_append, List.foldl_cons, List.foldl_nil, Act.standing_leg] at hs
    split at hs
    · rename_i hsrc
      have hres := Client.waiting_of_stage? hs
      -- who waits for statistics now did so before, since no tunnel was made
      have hdecided : m.Decided := by
        by_contra hd
        exact hm ⟨.inl ⟨_, _, _, hres⟩, hd⟩
      obtain ⟨ticket', server', call', hk⟩ := hdecided
      obtain ⟨hown, -⟩ := h.own m.source ticket' server' call' (hstart.symm.trans hk)
      refine ⟨hsrc ▸ hown, Nat.le_trans ?_ (hvalid ticket server call hres)⟩
      rw [h.leavesIn_eq]
      exact Nat.le_add_right _ _
    · exact h.own s ticket server call hs

/-- A ticket of who made the tunnel that is void became so since. -/
theorem exists_leave (h : LiveTunnel τ pre l post) {ticket : Nat}
    (hk : leavesIn (pre ++ [.leg l]) ≤ ticket) (hv : ticket < leavesIn τ) :
    ∃ a s b, post = a ++ .leave s :: b := by
  have hpos : 0 < leavesIn post := by
    rw [h.leavesIn_eq] at hv
    omega
  obtain ⟨s, hs⟩ := leavesIn_pos_iff.1 hpos
  obtain ⟨a, b, hab⟩ := List.append_of_mem hs
  exact ⟨a, s, b, hab⟩

end LiveTunnel

/-- A tunnel that was just made, while nobody waited for statistics. -/
theorem liveTunnel_made {τ : List Act} {m : Leg} (hm : m.Makes)
    (hno : ∀ s ticket server call, standingOf s τ ≠ some (.sampling ticket server call))
    (hvalid : ∀ ticket server call, m.result = .waiting (.sampling ticket server call) →
      leavesIn (τ ++ [.leg m]) ≤ ticket) : LiveTunnel (τ ++ [.leg m]) τ m [] where
  split := rfl
  makes := hm
  last n hn := nomatch hn
  undone a s b he := by cases a <;> cases he
  own s ticket server call hs := by
    rw [standingOf_append, List.foldl_cons, List.foldl_nil, Act.standing_leg] at hs
    split at hs
    · rename_i hsrc
      exact ⟨hsrc.symm, hvalid ticket server call (Client.waiting_of_stage? hs)⟩
    · exact absurd hs (hno s ticket server call)

end TunnelSession
