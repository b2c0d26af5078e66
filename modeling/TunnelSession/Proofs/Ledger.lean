/-
  A ledger of the requests.

  LEDGER.  Of every source a ledger says where its request stands that is under way, and which
  tickets the requests have that have no result yet, in order.  It is right about a trace if the
  trace says the same (`Ledger`).

  LEGS.  Asking, leaving, and a stretch of work on the oldest request of a source keep a ledger
  right.  So every stretch of work is on the request that its number says, and comes to what
  `Attempts` says of that request's ticket (`Leg.Fits`).
-/
import TunnelSession.Proofs.Attempts

namespace TunnelSession

/-- A stretch of work is on the next request of its source. -/
structure Leg.Fits (l : Leg) (past : List Act) : Prop where
  made : settledBy l.source past < madeBy l.source past
  start : l.start = standingOf l.source past
  advances : l.Advances
  tries : ∀ k, (ticketsOf l.source 0 past)[settledBy l.source past]? = some (some k) →
    l.Tries (leavesIn past) k

/-- What a ledger says of the sources is what the trace says. -/
structure Ledger (past : List Act) (leaves : Nat) (standing : Source → Option Lifecycle)
    (pending : Source → List (Option Nat)) : Prop where
  leaves : leaves = leavesIn past
  standing : ∀ s, standing s = standingOf s past
  pending : ∀ s, ∃ settled, ticketsOf s 0 past = settled ++ pending s ∧
    settled.length = settledBy s past
  legs : ∀ pre l post, past = pre ++ .leg l :: post → l.Fits pre

/-- The tickets of a trace that got longer by an act are those it had, and that of the act. -/
theorem ticketsOf_snoc (s : Source) (past : List Act) (act : Act) :
    ticketsOf s 0 (past ++ [act]) = ticketsOf s 0 past ++ act.tickets s (leavesIn past) := by
  rw [ticketsOf_append, Nat.zero_add, ticketsOf, ticketsOf, List.append_nil]

/-- The legs of a trace that got longer by an act. -/
theorem legs_snoc {P : Leg → List Act → Prop} {past : List Act} {act : Act}
    (h : ∀ pre l post, past = pre ++ .leg l :: post → P l pre)
    (ha : ∀ l, act = .leg l → P l past) :
    ∀ pre l post, past ++ [act] = pre ++ .leg l :: post → P l pre := by
  intro pre l post heq
  rcases List.eq_nil_or_concat post with rfl | ⟨post, last, rfl⟩
  · obtain ⟨rfl, hl⟩ := List.append_inj' heq rfl
    cases hl
    exact ha l rfl
  · have heq' : past ++ [act] = (pre ++ .leg l :: post) ++ [last] := by
      rw [heq, List.concat_eq_append, List.append_assoc]
      rfl
    exact h pre l post (List.append_inj' heq' rfl).1

namespace Ledger

variable {past : List Act} {leaves : Nat} {standing : Source → Option Lifecycle}
  {pending : Source → List (Option Nat)}

/-- Nothing was asked for yet. -/
theorem nil : Ledger [] 0 (fun _ => none) fun _ => [] where
  leaves := rfl
  standing _ := rfl
  pending _ := ⟨[], rfl, rfl⟩
  legs pre l post h := by simp at h

/-- A request is made, with a ticket or without. It is the last that is pending for its source, and
moves nobody. -/
theorem request (h : Ledger past leaves standing pending) {s : Source} {act : Act} {k : Option Nat}
    (hl : ∀ l, act ≠ .leg l)
    (hk : ∀ s', act.tickets s' (leavesIn past) = if s = s' then [k] else []) :
    Ledger (past ++ [act]) (leaves + leavesIn [act]) standing
      (Function.update pending s (pending s ++ [k])) where
  leaves := by rw [h.leaves, leavesIn_append]
  -- asking moves nobody
  standing s' := by
    rw [h.standing, standingOf_append]
    cases act with
    | ask | leave => rfl
    | leg l => exact absurd rfl (hl l)
  -- the new request goes behind the others of its source
  pending s' := by
    obtain ⟨settled, ht, hn⟩ := h.pending s'
    refine ⟨settled, ?_, ?_⟩
    · rw [ticketsOf_snoc, hk, ht]
      -- the source that asked, and any other
      by_cases hs : s = s'
      · subst hs
        rw [if_pos rfl, Function.update_self, List.append_assoc]
      · rw [if_neg hs, Function.update_of_ne (fun he => hs he.symm), List.append_nil]
    · rw [hn, settledBy_append]
      cases act with
      | ask | leave => rfl
      | leg l => exact absurd rfl (hl l)
  legs := legs_snoc h.legs fun l he => absurd he (hl l)

/-- A connect gets the number of the disconnects as its ticket. -/
theorem ask (h : Ledger past leaves standing pending) (s : Source) (target : Target) :
    Ledger (past ++ [.ask s target]) leaves standing
      (Function.update pending s (pending s ++ [some leaves])) := by
  refine h.request (fun _ => Act.ask_ne_leg) fun s' => ?_
  rw [h.leaves]
  rfl

/-- A disconnect gets no ticket, and is counted. -/
theorem leave (h : Ledger past leaves standing pending) (s : Source) :
    Ledger (past ++ [.leave s]) (leaves + 1) standing
      (Function.update pending s (pending s ++ [none])) :=
  h.request (fun _ => Act.leave_ne_leg) fun _ => rfl

/-- A stretch of work on the oldest request of a source. If it waits on, it stays the oldest with
the ticket it had; if not, the next one is the oldest. -/
theorem leg (h : Ledger past leaves standing pending) {l : Leg} {k : Option Nat}
    {more : List (Option Nat)} (hs : l.start = standing l.source)
    (hp : pending l.source = k :: more) (ha : l.Advances)
    (ht : ∀ n, k = some n → l.Tries leaves n) :
    Ledger (past ++ [.leg l]) leaves (Function.update standing l.source l.result.stage?)
      (Function.update pending l.source ((l.result.stage?.toList.map fun _ => k) ++ more)) where
  leaves := by
    rw [h.leaves, leavesIn_append]
    rfl
  standing s := by
    rw [standingOf_append, List.foldl_cons, List.foldl_nil, Act.standing_leg, ← h.standing]
    by_cases he : l.source = s
    · rw [if_pos he, he, Function.update_self]
    · rw [if_neg he, Function.update_of_ne fun h => he h.symm]
  pending s := by
    obtain ⟨settled, heq, hn⟩ := h.pending s
    have hone : settledBy s [.leg l] = if Act.settles s (.leg l) then 1 else 0 := by
      unfold settledBy
      rw [List.countP_cons, List.countP_nil, Nat.zero_add]
    rw [ticketsOf_snoc, settledBy_append, hone, Act.settles_leg, heq,
      show Act.tickets s _ (.leg l) = [] from rfl, List.append_nil, ← hn]
    by_cases he : l.source = s
    · subst he
      rw [Function.update_self, hp]
      cases hr : l.result.stage? with
      | some b => exact ⟨settled, rfl, by simp⟩
      | none => exact ⟨settled ++ [k], by simp, by simp⟩
    · rw [Function.update_of_ne fun h => he h.symm]
      exact ⟨settled, rfl, by simp [he]⟩
  legs := by
    refine legs_snoc h.legs ?_
    intro l' hl'
    cases hl'
    -- the oldest request without a result is the one with the number of the results
    obtain ⟨settled, heq, hlen⟩ := h.pending l.source
    refine ⟨?_, hs.trans (h.standing _), ha, fun n hn => ?_⟩
    · rw [← length_ticketsOf _ _ 0, heq, hp, ← hlen, List.length_append, List.length_cons]
      omega
    rw [heq, hp, ← hlen, List.getElem?_append_right (Nat.le_refl _), Nat.sub_self] at hn
    rw [← h.leaves]
    exact ht n (Option.some.inj hn)

end Ledger

end TunnelSession
