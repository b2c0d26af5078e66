/-
  What becomes of the triggers of a bridge.

  PREFIX.  A bridge acts upon its triggers in the order in which they were accepted, each once:
  what its receiver has taken is a prefix of what the channel accepted.  The pages are shown in that
  order, and the worker carries out all the rest in that order, one job at a time.

  ENDING.  A receiver that is told to end takes nothing more.  Once it has ended, which is what
  `deactivate` waits for, the channel is closed for good.  The worker still carries out what it was
  handed.
-/
import TunnelSession.Proofs.Jobs
import TunnelSession.Proofs.Waking

namespace TunnelSession

namespace Client

open TunnelSession.Core

variable {w : Client} {b : BridgeId} {bridge : Bridge} {han acc : List Trigger} {rd : List String}
  {marks : List Mark} {past : List Act}

/-! ## Runs -/

theorem duty_fresh (b : BridgeId) (config : Config) (servers : List Server) (latency : Nat)
    (version : String) : Duty b [] [] (fresh config servers latency version) where
  absent _ := ⟨rfl, rfl⟩
  stands _ _ hu := nomatch hu

/-- Every run keeps the jobs of a bridge. -/
theorem Duty.after (h : Duty b han marks w) (hi : Intake b acc han rd w) (ha : Attentive past w)
    (events : List Event) :
    Duty b (han ++ taken b w events) (marks ++ marksIn b (w.records events)) (w.after events) := by
  induction events generalizing w acc han rd marks past with
  | nil =>
    show Duty b (han ++ []) (marks ++ []) w
    rwa [List.append_nil, List.append_nil]
  | cons e events ih =>
    have hnext := ih (h.happen hi ha.accounts.staffed ha.fit e) (hi.happen ha.fit e) (ha.after [e])
    rw [List.append_assoc, List.append_assoc, ← marksIn_append] at hnext
    exact hnext

/-- A receiver is active as long as it serves its bridge: both say whether its task has ended. -/
theorem Intake.isActive_eq (hi : Intake b acc han rd w) (hb : w.bridge? b = some bridge) :
    w.isActive b = bridge.hasReceiver := by
  have hf : w.front? b = some bridge.front := congrArg (Option.map Bridge.front) hb
  unfold isActive
  rw [hb]
  show (!w.hasEnded bridge.receiver) = _
  cases hr : bridge.hasReceiver with
  | true =>
    have he : w.core.entry bridge.receiver = some (.receiver b) := hi.serves bridge.front hf hr
    rw [hasEnded_of_entry he]
    rfl
  | false =>
    obtain ⟨how, he⟩ : ∃ how, w.core.entry bridge.receiver = some (.ended how) :=
      hi.ended bridge.front hf hr
    rw [hasEnded_of_entry he]
    rfl

/-- If no task can run, a receiver that runs has nothing to do. -/
theorem Intake.still (hi : Intake b acc han rd w) (hb : w.bridge? b = some bridge)
    (hr : bridge.hasReceiver = true) (hn : w.ready = []) :
    bridge.cancelled = false ∧ bridge.hasSender = true ∧ bridge.triggers.queue = [] := by
  have hidle : ¬ bridge.front.Stirs := by
    intro hs
    have hin := hi.woken _ (congrArg (Option.map Bridge.front) hb) hr hs
    rw [hn] at hin
    cases hin
  refine ⟨?_, ?_, ?_⟩
  · exact Bool.eq_false_iff.2 fun hc => hidle (.inl hc)
  · exact Bool.of_not_eq_false fun hc => hidle (.inr (.inl hc))
  · exact Decidable.of_not_not fun hc => hidle (.inr (.inr hc))

/-- If no task can run, a worker that is at no job has none left. -/
theorem Stands.still {u : TaskId} {jobs : List Job} {current : Option Job}
    (h : Stands w b u jobs current) (hn : w.ready = []) (hc : current = none) : jobs = [] := by
  cases h with
  | busy => cases hc
  | idle _ hr =>
    refine Decidable.of_not_not fun hne => ?_
    have hin := hr hne
    rw [hn] at hin
    cases hin
  | gone _ hj => exact hj

/-- A bridge whose receiver takes no jobs any more is deserted. -/
theorem Intake.deserted (hi : Intake b acc han rd w) (hb : w.bridge? b = some bridge)
    (hr : bridge.hasReceiver = false) : Deserted b w :=
  ⟨⟨bridge.worker, congrArg (Option.map Prod.fst) (crew_of_bridge? hb)⟩, hi.no_receiver hb hr⟩

end Client

open Client

/-! ## The triggers of a bridge -/

/-- What has become of the triggers of a bridge when so much has happened. -/
structure Handled (b : BridgeId) (bridge : Bridge) (start : Client) (events : List Event) :
    Prop where
  isPrefix : taken b start events <+: accepted b start events
  /-- While the receiver runs, what was not taken waits. -/
  live : (start.after events).isActive b = true →
    accepted b start events = taken b start events ++ bridge.triggers.queue
  /-- A receiver that was not told to end ends when all senders are gone, and has taken everything
  then. -/
  whole : (start.after events).isActive b = false → bridge.cancelled = false →
    bridge.hasSender = false ∧ taken b start events = accepted b start events
  /-- If no task can run, a receiver that still runs waits for triggers, and has taken all there
  were. -/
  still : (start.after events).ready = [] → (start.after events).isActive b = true →
    bridge.cancelled = false ∧ bridge.hasSender = true ∧
      taken b start events = accepted b start events
  /-- Whoever looks at the pages sees those that were taken. -/
  pages : seen b start events ++ bridge.pages <+:
    (taken b start events).filterMap Trigger.page?
  allPages : bridge.hasPages = true → seen b start events ++ bridge.pages =
    (taken b start events).filterMap Trigger.page?
  /-- The worker carries out the requests that were taken, one after the other, whatever they come
  to.  If no task can run, it is at one of them or has carried out all. -/
  jobs : ∃ through current,
    marksIn b (start.records events) = Mark.inTurn through current ∧
    (through.map Prod.fst ++ current.toList ++ bridge.jobs).map Job.request =
      (taken b start events).filterMap Trigger.request? ∧
    ((start.after events).ready = [] → current = none → bridge.jobs = [])
  /-- Who was told to end takes nothing more. -/
  told : bridge.cancelled = true → ∀ more, taken b start (events ++ more) = taken b start events
  /-- When the receiver has ended, nothing more is taken, and nothing more can be sent. -/
  ended : (start.after events).isActive b = false → ∀ more,
    taken b start (events ++ more) = taken b start events ∧
    accepted b start (events ++ more) = accepted b start events ∧
    ∀ e, ((start.after (events ++ more)).offerTrigger b e).1 = .closed

/-- In every run, a bridge handles a prefix of what its channel accepts, in order, each once.  After
it was told to end it takes nothing, and once it has ended nothing is accepted either. -/
theorem handling_after (config : Config) (servers : List Server) (latency : Nat) (version : String)
    (events : List Event) (b : BridgeId) {bridge : Bridge}
    (hb : ((fresh config servers latency version).after events).bridge? b = some bridge) :
    Handled b bridge (fresh config servers latency version) events := by
  have hstart := attentive_fresh config servers latency version
  have hi₀ := intake_fresh b config servers latency version
  have hd₀ := duty_fresh b config servers latency version
  generalize fresh config servers latency version = start at *
  have hi := hi₀.after hstart.fit events
  have hw := hstart.fit.after events
  have hf : (start.after events).front? b = some bridge.front :=
    congrArg (Option.map Bridge.front) hb
  have hc := hi.conserves _ hf
  have hactive := hi.isActive_eq hb
  -- the clauses of `Handled`, in order: what was taken, what waits, what a quiet client has left,
  -- the pages, the jobs, and what can still come after the receiver was told to end or has ended
  refine ⟨hc.isPrefix, fun hr => ?_, fun hr hno => ?_, fun hn hr => ?_, hc.pages, hc.all, ?_,
    fun hcancel more => ?_, fun hr more => ?_⟩
  · exact (hc.live (hactive.symm.trans hr)).2
  · obtain ⟨hs, hall⟩ := (hc.closed (hactive.symm.trans hr)).2.2.2 hno
    exact ⟨hs, hall.symm⟩
  · have hr := hactive.symm.trans hr
    obtain ⟨hno, hs, hq⟩ := hi.still hb hr hn
    refine ⟨hno, hs, ?_⟩
    have hall := (hc.live hr).2
    rw [show bridge.front.triggers.queue = [] from hq, List.append_nil] at hall
    exact hall.symm
  · obtain ⟨through, current, hm, hj, hs⟩ :=
      (hd₀.after hi₀ hstart events).stands _ _ (crew_of_bridge? hb)
    exact ⟨through, current, hm, hj, hs.still⟩
  · exact gather_append_of_nil (Told.taken ⟨_, hf, hcancel⟩ hw more)
  · obtain ⟨hgone, ht, ha⟩ := (hi.deserted hb (hactive.symm.trans hr)).after hi hw more
    refine ⟨gather_append_of_nil ht, gather_append_of_nil ha, fun e => ?_⟩
    rw [after_append]
    exact hgone.offer (hi.after hw more) e

/-- A connect is superseded by the disconnect behind it, which is under way when the bridge is
deactivated.  What was accepted before the receiver looked is not taken. -/
theorem handling_after_deactivated :
    let start := fresh Config.default [Server.make "x" "" "" "" ""] 5 "1"
    let events : List Event := [.openBridge, .send 0 (.navigate "/a"), .send 0 .quickConnect,
      .send 0 (.navigate "/b"), .send 0 .disconnect, .poll 1, .takePages 0, .poll 0, .deactivate 0,
      .send 0 (.navigate "/c"), .poll 1, .pass 5, .poll 0]
    ∃ bridge, (start.after events).bridge? 0 = some bridge ∧ Handled 0 bridge start events ∧
      accepted 0 start events =
        [.navigate "/a", .quickConnect, .navigate "/b", .disconnect, .navigate "/c"] ∧
      (∀ more, taken 0 start (events ++ more) =
        [.navigate "/a", .quickConnect, .navigate "/b", .disconnect]) ∧
      seen 0 start events = ["/a", "/b"] ∧
      marksIn 0 (start.records events) = Mark.inTurn
        [(⟨.quickConnect, 0⟩, .error .cancelled), (⟨.disconnect, 0⟩, .ok none)] none := by
  have h := handling_after Config.default [Server.make "x" "" "" "" ""] 5 "1"
    [.openBridge, .send 0 (.navigate "/a"), .send 0 .quickConnect,
      .send 0 (.navigate "/b"), .send 0 .disconnect, .poll 1, .takePages 0, .poll 0, .deactivate 0,
      .send 0 (.navigate "/c"), .poll 1, .pass 5, .poll 0] 0 rfl
  exact ⟨_, rfl, h, rfl, fun more => (h.told rfl more).trans rfl, rfl, rfl⟩

end TunnelSession
