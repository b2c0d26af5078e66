/-
  Disconnects supersede connects.

  MOMENTS.  A connect takes its ticket when it is asked for, and its outcome is decided in the
  stretch of work in which the backend's answer is committed, or in which it has no server to go
  back to (`Leg.Decides`).

  SUPERSEDED.  It returns `cancelled` exactly if a disconnect was asked for between the two
  (`SupersededIn`), and then every stretch of work on it left no trace.
-/
import Mathlib.Data.List.Induction
import TunnelSession.Proofs.Accounts

namespace TunnelSession

/-- The stretch of work is on the request of the source that has the number. -/
def Leg.Works (l : Leg) (s : Source) (n : Nat) (past : List Act) : Prop :=
  l.source = s ∧ settledBy s past = n

/-- The outcome is decided: the connect waits for the statistics, or came to something else than
`cancelled`. -/
def Leg.Decides (l : Leg) : Prop :=
  (∃ ticket server call, l.result = .waiting (.sampling ticket server call)) ∨
    ∃ r, l.result = .done r ∧ r ≠ .error .cancelled

/-- In `τ`, after `past`, the outcome of the request was decided. -/
def DecidedIn (s : Source) (n : Nat) (past τ : List Act) : Prop :=
  ∃ pre l post, τ = pre ++ .leg l :: post ∧ l.Works s n (past ++ pre) ∧ l.Decides

/-- In `τ`, after `past`, a disconnect was asked for while the request was not decided. -/
def SupersededIn (s : Source) (n : Nat) (past τ : List Act) : Prop :=
  ∃ pre u post, τ = pre ++ .leave u :: post ∧ ¬ DecidedIn s n past pre

section Legs

variable {s : Source} {past mid τ : List Act} {target : Target}

theorem settledBy_leg (l : Leg) (τ : List Act) :
    settledBy s (.leg l :: τ) = (if Act.settles s (.leg l) then 1 else 0) + settledBy s τ := by
  unfold settledBy
  rw [List.countP_cons, Nat.add_comm]

/-- Every stretch of work starts where the one before it got. -/
theorem linked_of_fits (h : ∀ pre l post, τ = pre ++ .leg l :: post → l.Fits pre) : Linked s τ := by
  rintro pre l post hτ rfl
  have hf := h pre l post hτ
  exact ⟨hf.start, hf.advances⟩

/-- Where a request stands, its last stretch of work got: there is one that came to this stage, and
no request of the source was settled since. -/
theorem exists_leg_of_standing {a : Lifecycle} (h : standingOf s τ = some a) :
    ∃ pre l post, τ = pre ++ .leg l :: post ∧ l.source = s ∧ l.result = .waiting a ∧
      settledBy s pre = settledBy s τ := by
  -- the induction is on the trace from its end, where the last work is looked for
  induction τ using List.reverseRecOn with
  | nil => cases h
  | append_singleton τ act ih =>
    rw [standingOf_append, List.foldl_cons, List.foldl_nil] at h
    -- an act that is no work of the source: the last work was before it
    have hstay : (∀ l, act = .leg l → l.source ≠ s) → standingOf s τ = some a →
        ∃ pre l post, τ ++ [act] = pre ++ .leg l :: post ∧ l.source = s ∧ l.result = .waiting a ∧
          settledBy s pre = settledBy s (τ ++ [act]) := by
      intro hl hτ
      obtain ⟨pre, l, post, rfl, hs, hr, hn⟩ := ih hτ
      refine ⟨pre, l, post ++ [act], by simp, hs, hr, ?_⟩
      rw [hn, settledBy_append s _ [act]]
      cases act with
      | ask | leave => rfl
      | leg l' =>
        have hne := hl l' rfl
        simp [settledBy, Act.settles, hne]
    cases act with
    | ask | leave => exact hstay (fun _ hl => nomatch hl) h
    | leg l =>
      rw [Act.standing_leg] at h
      by_cases hs : l.source = s
      · -- work of the source: it waits where the source stands, or it has a result
        rw [if_pos hs] at h
        cases hr : l.result with
        | done r =>
          rw [hr] at h
          cases h
        | waiting b =>
          rw [hr] at h
          cases h
          refine ⟨τ, l, [], rfl, hs, hr, ?_⟩
          rw [settledBy_append, settledBy_leg, Act.settles_leg, hr]
          simp [Progress.stage?, settledBy]
      · rw [if_neg hs] at h
        refine hstay ?_ h
        intro l' hl'
        cases hl'
        exact hs

/-- Work on a request comes after it was made. -/
theorem split_of_works {pre post : List Act} {l : Leg}
    (h : past ++ .ask s target :: mid = pre ++ .leg l :: post)
    (hw : l.Works s (madeBy s past) pre) (hf : l.Fits pre) :
    ∃ p, pre = past ++ .ask s target :: p ∧ mid = p ++ .leg l :: post := by
  obtain ⟨rfl, hn⟩ := hw
  have hmade := hf.made
  rcases List.append_eq_append_iff.1 h with ⟨a, rfl, ha⟩ | ⟨a, rfl, ha⟩
  · cases a with
    | nil => cases ha
    | cons act p =>
      obtain ⟨rfl, rfl⟩ := List.cons.inj ha
      exact ⟨p, rfl, rfl⟩
  · -- too early: the request was not made yet
    rw [madeBy_append] at hn
    omega

end Legs

section Superseded

variable {s : Source} {n : Nat} {base past mid : List Act} {target : Target} {m : Leg}

/-- Work that decides the outcome is seen at the next work on the request. -/
theorem not_decidedIn {pre post : List Act} (hl : Linked s (base ++ (pre ++ post)))
    (hn : settledBy s (base ++ (pre ++ post)) = n)
    (hs : ∀ a, standingOf s (base ++ (pre ++ post)) = some a → a.rank < 2) :
    ¬ DecidedIn s n base pre := by
  rintro ⟨p, l, q, rfl, ⟨rfl, hw⟩, hd⟩
  -- what follows the work that decides
  have heq : base ++ ((p ++ .leg l :: q) ++ post) = (base ++ p) ++ [.leg l] ++ (q ++ post) := by
    simp
  rw [heq] at hl hn hs
  rw [settledBy_append, settledBy_append, hw, settledBy_leg, Act.settles_leg] at hn
  rcases hd with ⟨ticket, server, call, hr⟩ | ⟨r, hr, -⟩
  · have ha : standingOf l.source ((base ++ p) ++ [.leg l]) =
        some (.sampling ticket server call) := by
      rw [standingOf_append, List.foldl_cons, List.foldl_nil, Act.standing_leg, if_pos rfl, hr]
      rfl
    obtain ⟨b, hb, hle⟩ := hl.rank_le (by omega) ha
    exact absurd (hs b hb) (Nat.not_lt.2 hle)
  · rw [hr] at hn
    simp [Progress.stage?] at hn
    omega

/-- The ticket of the work on a request that was made is that of the request. -/
theorem tries_of_works {pre : List Act} {l : Leg} (hf : l.Fits (past ++ .ask s target :: pre))
    (hw : l.Works s (madeBy s past) (past ++ .ask s target :: pre)) :
    l.Tries (leavesIn past + leavesIn pre) (leavesIn past) := by
  obtain ⟨rfl, hn⟩ := hw
  have ht := hf.tries (leavesIn past) (by rw [hn]; exact ticketsOf_ask _ _ _ _)
  rw [leavesIn_append, show leavesIn (.ask l.source target :: pre) = leavesIn pre from by
    simp [leavesIn, Act.isLeave]] at ht
  exact ht

/-- A connect that waits for the statistics was decided before any disconnect: after one its ticket
is void, and with a void ticket no tunnel is made. -/
theorem decidedIn_of_sampling {pre post : List Act} (hp : post = [] ∨ ∃ u q, post = .leave u :: q)
    (hf : ∀ p l q, past ++ .ask s target :: (pre ++ post) = p ++ .leg l :: q → l.Fits p)
    (hn : settledBy s (past ++ .ask s target :: (pre ++ post)) = madeBy s past)
    {a : Lifecycle} (hs : standingOf s (past ++ .ask s target :: (pre ++ post)) = some a)
    (ha : a.rank = 2) : DecidedIn s (madeBy s past) (past ++ [.ask s target]) pre := by
  -- the induction is on what came after the first disconnect: work that waits for the statistics
  -- there began with its tunnel, so there was work before it that did so too
  induction hlen : post.length using Nat.strongRecOn generalizing post a with
  | ind len ih =>
    obtain ⟨p, l, q, heq, hl, hr, hsame⟩ := exists_leg_of_standing hs
    have hw : l.Works s (madeBy s past) p := ⟨hl, hsame.trans hn⟩
    have hfl := hf p l q heq
    obtain ⟨p, rfl, hmid⟩ := split_of_works heq hw hfl
    have hno : ∀ q', post ≠ .leg l :: q' := by
      rintro q' rfl
      rcases hp with hp | ⟨u, q', hp⟩ <;> cases hp
    rcases List.append_eq_append_iff.1 hmid with ⟨d, rfl, hd⟩ | ⟨d, hd, hd'⟩
    · -- the work comes after a disconnect, so it was decided before that
      cases d with
      | nil => exact absurd hd (hno q)
      | cons act d =>
        obtain ⟨u, rfl⟩ : ∃ u, act = .leave u := by
          rcases hp with hp | ⟨u, q', hp⟩
          · rw [hp] at hd
            cases hd
          · rw [hp] at hd
            exact ⟨u, (List.cons.inj hd).1.symm⟩
        have htries := tries_of_works hfl hw
        have hlt : leavesIn past < leavesIn past + leavesIn (pre ++ .leave u :: d) :=
          Nat.lt_add_of_pos_right (leavesIn_pos_iff.2 ⟨u, by simp⟩)
        -- a disconnect was asked for since the ticket, so work that was not decided would have been
        -- cancelled
        have hdec : l.Decided := by
          by_contra hnd
          have hc := htries.cancelled.2 ⟨hnd, hlt⟩
          rw [hr] at hc
          cases hc
        obtain ⟨ticket, server, call, hstart⟩ := hdec
        have hs' : standingOf s (past ++ .ask s target :: (pre ++ .leave u :: d)) =
            some (.sampling ticket server call) := by
          rw [← hstart, hfl.start, hl]
        refine ih (Act.leave u :: d).length ?_ (.inr ⟨u, d, rfl⟩) ?_ hw.2 hs' rfl rfl
        · rw [← hlen, hd, List.length_append]
          simp
        · intro p' l' q' he
          have hsplit : past ++ .ask s target :: (pre ++ post) =
              (past ++ .ask s target :: (pre ++ .leave u :: d)) ++ .leg l :: q := by
            rw [hd]
            simp
          refine hf p' l' (q' ++ .leg l :: q) ?_
          rw [hsplit, he, List.append_assoc, List.cons_append]
    · cases d with
      | nil => exact absurd hd'.symm (hno q)
      | cons act d =>
        obtain ⟨rfl, -⟩ := List.cons.inj hd'
        -- work before any disconnect that gets its tunnel decides the outcome
        have hdecides : l.Decides := by
          obtain ⟨ticket, server, call, rfl⟩ := Lifecycle.rank_eq_two_iff.1 ha
          exact .inl ⟨ticket, server, call, hr⟩
        have hbase : past ++ .ask s target :: p = past ++ [.ask s target] ++ p := by simp
        rw [hbase] at hw
        exact ⟨p, l, d, hd, hw, hdecides⟩

/-- The work on a connect ends with `cancelled` exactly if the connect was superseded: a disconnect
came while it was undecided. Which of the two came first is read off the trace. -/
theorem cancelled_iff (hf : ∀ p l q, past ++ .ask m.source target :: (mid ++ [.leg m]) =
      p ++ .leg l :: q → l.Fits p)
    (hw : m.Works m.source (madeBy m.source past) (past ++ .ask m.source target :: mid)) :
    m.result = .done (.error .cancelled) ↔
      SupersededIn m.source (madeBy m.source past) (past ++ [.ask m.source target]) mid := by
  have hbase : ∀ τ, past ++ [.ask m.source target] ++ τ = past ++ .ask m.source target :: τ := by
    simp
  have hfm : m.Fits (past ++ .ask m.source target :: mid) := hf _ m [] (by simp)
  -- what fits in the whole fits before the work in question
  have hprefix : ∀ p l q, past ++ .ask m.source target :: mid = p ++ .leg l :: q → l.Fits p := by
    intro p l q he
    refine hf p l (q ++ [.leg m]) ?_
    rw [← List.cons_append, ← List.append_assoc, he, List.append_assoc, List.cons_append]
  have hc := (tries_of_works hfm hw).cancelled
  constructor
  · -- cancelled: there was a disconnect, and no work had decided the outcome before it
    intro hr
    obtain ⟨hnd, hlt⟩ := hc.1 hr
    obtain ⟨u, hu⟩ := leavesIn_pos_iff.1 (show 0 < leavesIn mid by omega)
    obtain ⟨pre, post, rfl⟩ := List.append_of_mem hu
    have hlinked : Linked m.source
        (past ++ [.ask m.source target] ++ (pre ++ .leave u :: post)) := by
      rw [hbase]
      exact linked_of_fits hprefix
    refine ⟨pre, u, post, rfl, not_decidedIn hlinked ?_ ?_⟩
    · rw [hbase]
      exact hw.2
    · intro a ha
      rw [hbase, ← hfm.start] at ha
      have hle := a.rank_le_two
      have hne : a.rank ≠ 2 := by
        intro h2
        obtain ⟨ticket, server, call, rfl⟩ := Lifecycle.rank_eq_two_iff.1 h2
        exact hnd ⟨ticket, server, call, ha⟩
      omega
  · -- superseded: had the work been decided, then before that disconnect
    rintro ⟨pre, u, post, rfl, hnd⟩
    refine hc.2 ⟨?_, ?_⟩
    · rintro ⟨ticket, server, call, hs⟩
      rw [hfm.start] at hs
      exact hnd (decidedIn_of_sampling (.inr ⟨u, post, rfl⟩) hprefix hw.2 hs rfl)
    · exact Nat.lt_add_of_pos_right (leavesIn_pos_iff.2 ⟨u, by simp⟩)

/-- All work on a connect that ends with `cancelled` left no trace, and none at all if the connect
was still in line. -/
theorem innocent_of_cancelled (hf : ∀ p l q, past ++ .ask m.source target :: (mid ++ [.leg m]) =
      p ++ .leg l :: q → l.Fits p)
    (hw : m.Works m.source (madeBy m.source past) (past ++ .ask m.source target :: mid))
    (hr : m.result = .done (.error .cancelled)) {pre post : List Act} {l : Leg}
    (hl : past ++ .ask m.source target :: (mid ++ [.leg m]) = pre ++ .leg l :: post)
    (hwl : l.Works m.source (madeBy m.source past) pre) : l.Innocent ∧ (m.InLine → l.Idle) := by
  have hfl := hf pre l post hl
  obtain ⟨pre, rfl, hmid⟩ := split_of_works hl hwl hfl
  have htl := tries_of_works hfl hwl
  have hfm : m.Fits (past ++ .ask m.source target :: mid) := hf _ m [] (by simp)
  have htm := tries_of_works hfm hw
  rcases List.eq_nil_or_concat post with rfl | ⟨post, act, rfl⟩
  · -- the last one
    obtain ⟨rfl, he⟩ := List.append_inj' hmid rfl
    cases he
    have hidle := htm.dropped hr
    exact ⟨hidle.innocent, fun _ => hidle⟩
  · have hmid' : mid ++ [.leg m] = (pre ++ .leg l :: post) ++ [act] := by
      rw [hmid, List.concat_eq_append, List.append_assoc, List.cons_append]
    obtain ⟨rfl, -⟩ := List.append_inj' hmid' rfl
    have heq : past ++ .ask m.source target :: (pre ++ .leg l :: post) =
        (past ++ .ask m.source target :: pre) ++ [.leg l] ++ post := by simp
    -- between the two the request is never behind where it was
    have hlinked : Linked m.source ((past ++ .ask m.source target :: pre) ++ [.leg l] ++ post) := by
      rw [← heq]
      refine linked_of_fits fun p k q he => hf p k (q ++ [.leg m]) ?_
      rw [← List.cons_append, ← List.append_assoc, he, List.append_assoc, List.cons_append]
    have hn := hw.2
    rw [heq, settledBy_append, settledBy_append, hwl.2, settledBy_leg, Act.settles_leg] at hn
    -- an earlier one: the request goes on from where it got, and did not go back
    cases hres : l.result with
    | done r =>
      rw [hres] at hn
      simp [Progress.stage?, hwl.1] at hn
      omega
    | waiting b =>
      have hb : standingOf m.source ((past ++ .ask m.source target :: pre) ++ [.leg l]) =
          some b := by
        rw [standingOf_append, List.foldl_cons, List.foldl_nil, Act.standing_leg, if_pos hwl.1,
          hres]
        rfl
      obtain ⟨d, hd, hle⟩ := hlinked.rank_le (by omega) hb
      rw [← heq, ← hfm.start] at hd
      refine ⟨htl.innocent b hres ?_, fun hin => htl.idle b hres ?_⟩
      · have hnd := (htm.cancelled.1 hr).1
        have hne : d.rank ≠ 2 := by
          intro h2
          obtain ⟨ticket, server, call, rfl⟩ := Lifecycle.rank_eq_two_iff.1 h2
          exact hnd ⟨ticket, server, call, hd⟩
        have hle' := d.rank_le_two
        omega
      · -- still in line at the end, it had begun nothing before
        rcases hin with hin | ⟨g, k, hin⟩
        · rw [hd] at hin
          cases hin
        · rw [hd] at hin
          cases hin
          exact Nat.le_zero.1 hle

end Superseded

/-- In every run, the work on a connect ends with `cancelled` exactly if a disconnect was asked for
after the connect got its ticket and before its outcome was decided.  Then no work on it changed
the server or the recently used ones, made the state anything but connecting, moved the tunnel or
used up a failure; and if it was still in line, none changed the session or called the backend.
A call replies what the work on its request ended with. -/
theorem superseded_after (config : Config) (servers : List Server) (latency : Nat)
    (version : String) (events : List Event) {past mid rest : List Act} {target : Target} {m : Leg}
    (ht : (Client.fresh config servers latency version).trace events =
      past ++ .ask m.source target :: (mid ++ .leg m :: rest))
    (hw : m.Works m.source (madeBy m.source past) (past ++ .ask m.source target :: mid)) :
    (m.result = .done (.error .cancelled) ↔
      SupersededIn m.source (madeBy m.source past) (past ++ [.ask m.source target]) mid) ∧
    (m.result = .done (.error .cancelled) → ∀ pre l post,
      past ++ .ask m.source target :: (mid ++ [.leg m]) = pre ++ .leg l :: post →
      l.Works m.source (madeBy m.source past) pre → l.Innocent ∧ (m.InLine → l.Idle)) ∧
    (∀ t r, m.source = .call t → m.result = .done r → ∃ starts,
      ((Client.fresh config servers latency version).after events).task? t =
        some (callTask starts (.done r))) := by
  have ha := Client.accounts_after config (Backend.prompt_make servers latency version) events
  rw [show (Client.make config (.make servers latency version)).trace events = _ from ht] at ha
  -- every stretch of work in the run fits what came before it
  have hf : ∀ p l q, past ++ .ask m.source target :: (mid ++ [.leg m]) = p ++ .leg l :: q →
      l.Fits p := by
    intro p l q he
    refine ha.ledger.legs p l (q ++ rest) ?_
    have hsplit : past ++ Act.ask m.source target :: (mid ++ .leg m :: rest) =
        (past ++ .ask m.source target :: (mid ++ [.leg m])) ++ rest := by simp
    rw [hsplit, he, List.append_assoc, List.cons_append]
  refine ⟨cancelled_iff hf hw, fun hr pre l post => innocent_of_cancelled hf hw hr, ?_⟩
  intro t r hs hr
  obtain ⟨starts, he⟩ := ha.replied m t r (by simp) hs hr
  exact ⟨starts, Client.task?_of_entry he⟩

/-- A connect that waits for the backend is superseded by a disconnect in line behind it.  So is the
connect of a trigger that has its ticket and still waits for the worker of its bridge, while the
disconnect is at the backend already. -/
theorem superseded_after_call :
    (∃ mid m, (Client.fresh Config.default [] 5 "1").trace
        [.call (.connect "x"), .call .disconnect, .poll 0] =
          [] ++ .ask m.source (.server "x") :: (mid ++ .leg m :: []) ∧
      m.Works m.source (madeBy m.source []) ([] ++ .ask m.source (.server "x") :: mid) ∧
      SupersededIn m.source (madeBy m.source []) ([] ++ [.ask m.source (.server "x")]) mid) ∧
    ∃ mid m, (Client.fresh Config.default [] 5 "1").trace
        [.openBridge, .send 0 (.connect "x"), .poll 1, .call .disconnect, .poll 0] =
          [] ++ .ask m.source (.server "x") :: (mid ++ .leg m :: []) ∧
      m.source = .bridge 0 ∧
      m.Works m.source (madeBy m.source []) ([] ++ .ask m.source (.server "x") :: mid) ∧
      SupersededIn m.source (madeBy m.source []) ([] ++ [.ask m.source (.server "x")]) mid := by
  refine ⟨⟨[_, _, _], ⟨.call 0, _, _, _, _, _, .done (.error .cancelled)⟩, rfl, ⟨rfl, rfl⟩, ?_⟩,
    ⟨[_, _], ⟨.bridge 0, none, _, _, _, _, .done (.error .cancelled)⟩, rfl, rfl, ⟨rfl, rfl⟩, ?_⟩⟩
  · exact (superseded_after Config.default [] 5 "1"
      [.call (.connect "x"), .call .disconnect, .poll 0] rfl ⟨rfl, rfl⟩).1.1 rfl
  · exact (superseded_after Config.default [] 5 "1"
      [.openBridge, .send 0 (.connect "x"), .poll 1, .call .disconnect, .poll 0]
      rfl ⟨rfl, rfl⟩).1.1 rfl

end TunnelSession
