/-
  The requests in a trace.

  NUMBERS.  A source makes its requests one after the other, and they come to their results in that
  order.  So the number of results so far (`settledBy`) is the number of the request that its next
  stretch of work is on.

  TICKETS.  A connect gets the number of the disconnects before it as its ticket, a disconnect gets
  none (`ticketsOf`).

  RANKS.  A request comes from the line to the backend, and from there to the statistics; its
  stages never go back (`Leg.Advances`).
-/
import TunnelSession.Proofs.Steps

namespace TunnelSession

/-- Is somebody asking for a disconnect? -/
def Act.isLeave : Act → Bool
  | .leave _ => true
  | _ => false

/-- Is it a request of the source? -/
def Act.isRequest (s : Source) : Act → Bool
  | .ask s' _ | .leave s' => s' == s
  | .leg _ => false

/-- Does a request of the source come to its result? -/
def Act.settles (s : Source) : Act → Bool
  | .leg l => l.source == s && l.result.stage?.isNone
  | _ => false

/-- How many disconnects were asked for. -/
def leavesIn (τ : List Act) : Nat := τ.countP Act.isLeave

/-- How many requests a source made. -/
def madeBy (s : Source) (τ : List Act) : Nat := τ.countP (Act.isRequest s)

/-- How many requests of a source came to their result. -/
def settledBy (s : Source) (τ : List Act) : Nat := τ.countP (Act.settles s)

/-- The ticket of a request of the source, after so many disconnects. -/
def Act.tickets (s : Source) (leaves : Nat) : Act → List (Option Nat)
  | .ask s' _ => if s' = s then [some leaves] else []
  | .leave s' => if s' = s then [none] else []
  | .leg _ => []

/-- The tickets of the requests that a source made, after so many disconnects. -/
def ticketsOf (s : Source) : (leaves : Nat) → List Act → List (Option Nat)
  | _, [] => []
  | n, act :: τ => act.tickets s n ++ ticketsOf s (n + leavesIn [act]) τ

/-- Where a source stands after an act. -/
def Act.standing (s : Source) (o : Option Lifecycle) : Act → Option Lifecycle
  | .leg l => if l.source = s then l.result.stage? else o
  | _ => o

/-- Where the request stands that a source has under way. -/
def standingOf (s : Source) (τ : List Act) : Option Lifecycle := τ.foldl (Act.standing s) none

theorem Act.ask_ne_leg {s : Source} {target : Target} {l : Leg} : Act.ask s target ≠ .leg l := by
  intro h
  cases h

theorem Act.leave_ne_leg {s : Source} {l : Leg} : Act.leave s ≠ .leg l := by
  intro h
  cases h

theorem Act.standing_leg (s : Source) (o : Option Lifecycle) (l : Leg) :
    Act.standing s o (.leg l) = if l.source = s then l.result.stage? else o := rfl

/-- Work settles a request of its own source when it does not wait at the end. -/
theorem Act.settles_leg (s : Source) (l : Leg) :
    Act.settles s (.leg l) = (l.source == s && l.result.stage?.isNone) := rfl

section Append

variable (s : Source) (τ σ : List Act)

@[simp] theorem leavesIn_append : leavesIn (τ ++ σ) = leavesIn τ + leavesIn σ := List.countP_append

@[simp] theorem madeBy_append : madeBy s (τ ++ σ) = madeBy s τ + madeBy s σ := List.countP_append

@[simp] theorem settledBy_append : settledBy s (τ ++ σ) = settledBy s τ + settledBy s σ :=
  List.countP_append

/-- The tickets of the later requests depend on the disconnects of the earlier acts. -/
theorem ticketsOf_append (n : Nat) :
    ticketsOf s n (τ ++ σ) = ticketsOf s n τ ++ ticketsOf s (n + leavesIn τ) σ := by
  induction τ generalizing n with
  | nil => rfl
  | cons act τ ih =>
    have hl : leavesIn (act :: τ) = leavesIn [act] + leavesIn τ := leavesIn_append [act] τ
    rw [List.cons_append, ticketsOf, ticketsOf, ih, hl, List.append_assoc, Nat.add_assoc]

/-- Every request has one entry in the list of tickets. -/
theorem length_ticketsOf (n : Nat) : (ticketsOf s n τ).length = madeBy s τ := by
  induction τ generalizing n with
  | nil => rfl
  | cons act τ ih =>
    have hm : madeBy s (act :: τ) = madeBy s [act] + madeBy s τ := madeBy_append s [act] τ
    have ha : (act.tickets s n).length = madeBy s [act] := by
      unfold Act.tickets madeBy
      cases act with
      | ask s' | leave s' =>
        by_cases h : s' = s <;> simp [Act.isRequest, h]
      | leg l => rfl
    rw [ticketsOf, List.length_append, ih, hm, ha]

theorem standingOf_append :
    standingOf s (τ ++ σ) = σ.foldl (Act.standing s) (standingOf s τ) := List.foldl_append

/-- Where a source stands is said by legs. -/
theorem standingOf_append_of_noLeg (h : ∀ l, Act.leg l ∉ σ) :
    standingOf s (τ ++ σ) = standingOf s τ := by
  rw [standingOf_append]
  generalize standingOf s τ = o
  induction σ with
  | nil => rfl
  | cons act σ ih =>
    have hact : Act.standing s o act = o := by
      cases act with
      | ask | leave => rfl
      | leg l => exact absurd List.mem_cons_self (h l)
    rw [List.foldl_cons, hact]
    exact ih fun l hl => h l (List.mem_cons_of_mem _ hl)

/-- Only legs come to results. -/
theorem settledBy_append_of_noLeg (h : ∀ l, Act.leg l ∉ σ) :
    settledBy s (τ ++ σ) = settledBy s τ := by
  rw [settledBy_append, show settledBy s σ = 0 from List.countP_eq_zero.2 fun act ha => ?_,
    Nat.add_zero]
  cases act with
  | ask | leave => exact Bool.false_ne_true
  | leg l => exact absurd ha (h l)

end Append

/-- The ticket of a connect is the number of disconnects before it. -/
theorem ticketsOf_ask (s : Source) (past rest : List Act) (target : Target) :
    (ticketsOf s 0 (past ++ .ask s target :: rest))[madeBy s past]? =
      some (some (leavesIn past)) := by
  rw [ticketsOf_append, ← length_ticketsOf s past 0,
    List.getElem?_append_right (Nat.le_refl _), Nat.sub_self, Nat.zero_add, ticketsOf]
  simp [Act.tickets]

/-- Some disconnect was asked for exactly if one is in the trace. -/
theorem leavesIn_pos_iff {τ : List Act} : 0 < leavesIn τ ↔ ∃ s, .leave s ∈ τ := by
  unfold leavesIn
  rw [List.countP_pos_iff]
  constructor
  · rintro ⟨act, hmem, hact⟩
    cases act with
    | leave s => exact ⟨s, hmem⟩
    | ask | leg => cases hact
  · rintro ⟨s, hmem⟩
    exact ⟨_, hmem, rfl⟩

/-! ## Stages of a request -/

/-- The ticket of a request. -/
def Lifecycle.ticket? : Lifecycle → Option Nat
  | .queued _ k | .dialing k _ | .sampling k _ _ => some k
  | .leaving | .hangingUp _ => none

/-- How far a request is: in line, at the backend, or at the statistics. -/
def Lifecycle.rank : Lifecycle → Nat
  | .queued .. | .leaving => 0
  | .dialing .. | .hangingUp _ => 1
  | .sampling .. => 2

/-- The ticket of a job. -/
def Job.ticket? (job : Job) : Option Nat := job.request.target?.map fun _ => job.ticket

/-- The ticket with which the work starts. -/
def Core.Start.ticket? : Core.Start → Option Nat
  | .connect _ k => some k
  | .disconnect => none
  | .resume l => l.ticket?

theorem Job.ticket?_start (job : Job) : job.start.ticket? = job.ticket? := by
  unfold start ticket?
  cases job.request.target? <;> rfl

/-- A stretch of work does not go back. -/
def Leg.Advances (l : Leg) : Prop :=
  ∀ a b, l.start = some a → l.result = .waiting b → a.rank ≤ b.rank

/-- Every stretch of work of a source starts where the one before it got, and does not go back. -/
def Linked (s : Source) (τ : List Act) : Prop :=
  ∀ pre l post, τ = pre ++ .leg l :: post → l.source = s →
    l.start = standingOf s pre ∧ l.Advances

/-- As long as a request has no result, it does not go back, by induction on the acts: each leg
begins where the one before it ended. -/
theorem Linked.rank_le {s : Source} {pre mid : List Act} (h : Linked s (pre ++ mid))
    (hs : settledBy s mid = 0) {a : Lifecycle} (ha : standingOf s pre = some a) :
    ∃ b, standingOf s (pre ++ mid) = some b ∧ a.rank ≤ b.rank := by
  induction mid generalizing pre a with
  | nil =>
    rw [List.append_nil]
    exact ⟨a, ha, Nat.le_refl _⟩
  | cons act mid ih =>
    have heq : pre ++ act :: mid = (pre ++ [act]) ++ mid := by simp
    have hact : Act.settles s act = false ∧ settledBy s mid = 0 := by
      unfold settledBy at hs ⊢
      rw [List.countP_cons] at hs
      refine ⟨?_, by omega⟩
      by_contra hne
      rw [Bool.not_eq_false] at hne
      rw [if_pos hne] at hs
      omega
    rw [heq] at h ⊢
    -- the act leaves the request where it is, or takes it on
    obtain ⟨b, hb, hle⟩ : ∃ b, standingOf s (pre ++ [act]) = some b ∧ a.rank ≤ b.rank := by
      rw [standingOf_append, List.foldl_cons, List.foldl_nil, ha]
      cases act with
      | ask | leave => exact ⟨a, rfl, Nat.le_refl _⟩
      | leg l =>
        rw [Act.standing_leg]
        by_cases hl : l.source = s
        · obtain ⟨hstart, hadv⟩ := h pre l mid (by simp) hl
          rw [ha] at hstart
          have hk := hact.1
          rw [Act.settles_leg] at hk
          rw [if_pos hl]
          cases hr : l.result with
          | waiting b => exact ⟨b, rfl, hadv a b hstart hr⟩
          | done r =>
            rw [hr] at hk
            simp [hl, Progress.stage?] at hk
        · rw [if_neg hl]
          exact ⟨a, rfl, Nat.le_refl _⟩
    obtain ⟨d, hd, hle'⟩ := ih h hact.2 hb
    exact ⟨d, hd, Nat.le_trans hle hle'⟩

end TunnelSession
