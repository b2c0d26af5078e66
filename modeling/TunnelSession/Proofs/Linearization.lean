/-
  Requests take effect one after the other.

  RESULT.  In a direct run at most one connect or disconnect of the backend is under way at any
  time.  When no request is under way, the client is where it would be if only the requests that
  were not cancelled had been made, one after the other in the order they were issued, and each of
  them had the reply that it then has (`linearizable`).

  PROOF.  Both the run and the one where each request is alone do to the book what serving the
  requests does: the run by `InOrder.complete`, the other one request at a time (`Ready.serve`).
-/
import TunnelSession.Proofs.Solo

namespace TunnelSession

/-- Does the reply say that the request was cancelled? -/
def Reply.isCancelled : Reply → Bool
  | .failed .cancelled => true
  | _ => false

/-- Let calls of a backend fail, in order. -/
def Backend.script (b : Backend) (failures : List (Operation × BackendError)) : Backend :=
  failures.foldl (fun b f => b.failNext f.1 f.2) b

theorem Backend.Prompt.script {b : Backend} (h : b.Prompt)
    (failures : List (Operation × BackendError)) : (b.script failures).Prompt := by
  induction failures generalizing b with
  | nil => exact h
  | cons f failures ih => exact ih (b := b.failNext f.1 f.2) h

namespace Client

open TunnelSession.Core

variable {w : Client} {t u : TaskId}

theorem settledReply_injective {r s : Settled} (h : settledReply r = settledReply s) : r = s := by
  rcases r with e | (_ | server) <;> rcases s with e' | (_ | server') <;> cases h <;> rfl

theorem isCancelled_settledReply (r : Settled) :
    (settledReply r).isCancelled = isCancelled (some r) := by
  rcases r with e | (_ | server)
  · cases e <;> rfl
  · rfl
  · rfl

/-- The reply of a task that has one. -/
def reply? (w : Client) (t : TaskId) : Option Reply :=
  match w.task? t with
  | some (.ended (.replied r)) => some r
  | _ => none

/-- The task has a connect or a disconnect under way. -/
def Pending (w : Client) (t : TaskId) : Prop :=
  ∃ l, w.task? t = some (.command (.lifecycle l))

/-- The task waits for a connect or a disconnect of the backend. -/
def InFlight (w : Client) (t : TaskId) : Prop :=
  (∃ ticket call, w.task? t = some (.command (.lifecycle (.dialing ticket call)))) ∨
    ∃ call, w.task? t = some (.command (.lifecycle (.hangingUp call)))

/-- The requests of a run that did not reply `cancelled`, in the order they were issued. -/
def kept (w : Client) (events : List Event) : List Issue :=
  (issuedIn (w.trace events)).filter fun x => !((w.after events).reply? x.1).any Reply.isCancelled

/-- Requests one after the other, each of them alone: their replies, and the client after them. -/
def oneByOne : List (Option Target) → Client → List (Option Reply) × Client
  | [], w => ([], w)
  | g :: gs, w =>
    let w' := w.after (w.soloEvents (request g))
    (w'.reply? w.tasks.length :: (oneByOne gs w').1, (oneByOne gs w').2)

theorem reply?_of_entry {r : Settled} (h : w.core.entry t = some (callTask false (.done r))) :
    w.reply? t = some (settledReply r) := by
  unfold reply?
  rw [task?_of_entry h]
  rfl

/-- Who has a call under way is at a stage that has called the backend. -/
theorem stage_of_inFlight (h : w.InFlight t) :
    ∃ l, w.core.stage t = some l ∧ l.IsActive := by
  rcases h with ⟨ticket, call, h⟩ | ⟨call, h⟩
  · exact ⟨_, congrArg (Option.bind · Task.lifecycle?) h, trivial⟩
  · exact ⟨_, congrArg (Option.bind · Task.lifecycle?) h, trivial⟩

/-- Nothing is under way, and requests can be made. -/
structure Ready (w : Client) : Prop where
  sound : w.core.Sound
  orderly : w.core.Orderly
  plain : w.core.Plain
  idle : ∀ t, w.core.stage t = none

theorem ready_make (config : Config) {backend : Backend} (hb : backend.Prompt) :
    (make config backend).Ready where
  sound := sound_make config hb
  orderly := orderly_make config backend
  plain := ⟨rfl, (fun _ _ _ h => nomatch h), (fun _ _ h => nomatch h)⟩
  idle _ := rfl

/-- A request that is made alone is served: it has its turn and two latencies at most, and then its
reply and the book are those of the request served at once. -/
theorem Ready.serve (h : w.Ready) (g : Option Target) :
    (w.after (w.soloEvents (request g))).Ready ∧
      (w.after (w.soloEvents (request g))).reply? w.tasks.length =
        some (settledReply (w.core.book.serve g).1) ∧
      (w.after (w.soloEvents (request g))).core.book = (w.core.book.serve g).2 := by
  obtain ⟨hsolo, hissued⟩ := solo_after h.sound h.orderly h.idle g
  obtain ⟨hidle, r, htask, hr⟩ := hsolo.ends
  have hdirect : ∀ e ∈ w.soloEvents (request g), e.Direct := by
    intro e he
    unfold soloEvents at he
    simp only [List.mem_cons, List.not_mem_nil, or_false] at he
    rcases he with rfl | rfl | rfl | rfl | rfl
    · show request g ≠ .start
      cases g with
      | some target => cases target <;> exact nofun
      | none => exact nofun
    all_goals exact trivial
  obtain ⟨hs, hin⟩ := inOrder_after h.sound (inOrder_nil h.plain h.idle h.orderly) _ hdirect
  rw [List.nil_append] at hin
  generalize w.after (w.soloEvents (request g)) = v at hsolo hidle htask hs hin ⊢
  -- the request is the only one, and was not cancelled
  have hkept : keptIn (w.trace (w.soloEvents (request g))) = [(w.tasks.length, g)] := by
    unfold keptIn
    rw [hissued]
    refine List.filter_eq_self.2 fun x hx => ?_
    rw [List.mem_singleton.1 hx, Bool.not_eq_true', ← Bool.not_eq_true, isCancelled_iff]
    intro hc
    have hent : Task.ended (.replied (settledReply r)) =
        .ended (.replied (settledReply (.error .cancelled))) :=
      Option.some.inj (htask.symm.trans (task?_of_entry (hin.settled _ _ hc)))
    exact hr (settledReply_injective (Ending.replied.inj (Task.ended.inj hent)))
  obtain ⟨hres, hbook⟩ := hin.complete hidle
  rw [hkept] at hres hbook
  have hresult : resultIn (w.trace (w.soloEvents (request g))) w.tasks.length =
      some (w.core.book.serve g).1 := (List.cons.inj hres).1
  exact ⟨⟨hs, hsolo.orderly, hin.plain, hidle⟩, reply?_of_entry (hin.settled _ _ hresult),
    hbook.symm⟩

/-- Requests that are made one after the other are served one after the other. -/
theorem Ready.serveAll (h : w.Ready) (gs : List (Option Target)) :
    (oneByOne gs w).1 = (w.core.book.serveAll gs).1.map (fun r => some (settledReply r)) ∧
      (oneByOne gs w).2.core.book = (w.core.book.serveAll gs).2 := by
  induction gs generalizing w with
  | nil => exact ⟨rfl, rfl⟩
  | cons g gs ih =>
    obtain ⟨hready, hreply, hbook⟩ := h.serve g
    obtain ⟨hreplies, hbooks⟩ := ih hready
    rw [hbook] at hreplies hbooks
    unfold oneByOne Book.serveAll
    dsimp only
    rw [hreply, hreplies, hbooks]
    exact ⟨rfl, rfl⟩

/-- If no task has a request under way, no task is at a stage of one. -/
theorem stage_of_not_pending (hs : w.core.Sound) (hp : w.core.Plain) (h : ∀ t, ¬ w.Pending t) :
    w.core.stage t = none := by
  rw [hs.agree]
  cases he : w.core.entry t with
  | none => rfl
  | some task =>
    show task.lifecycle? = none
    cases task with
    | command p =>
      cases p with
      | lifecycle l => exact absurd ⟨l, task?_of_entry he⟩ (h t)
      | starting l => exact absurd (hp.starts t _ he) nofun
      | _ => rfl
    | worker b current => exact absurd he (hp.workers t b current)
    | _ => rfl

/-- Who made a request has replied when none is under way, and it is in the trace. -/
theorem reply?_of_issued {start : Book} {past : List Act} (h : InOrder start past w.core)
    (hn : ∀ t, w.core.stage t = none) (hs : w.core.Sound) {x : Issue} (hx : x ∈ issuedIn past) :
    ∃ r, resultIn past x.1 = some r ∧ w.reply? x.1 = some (settledReply r) := by
  obtain ⟨p, hent, hr⟩ := h.asked x hx
  cases p with
  | waiting l =>
    have hk := hs.stage_of_entry hent
    rw [hn] at hk
    cases hk
  | done r => exact ⟨r, hr r rfl, reply?_of_entry hent⟩

end Client

/-- Take any direct run of a client over a fresh backend, with any failures scripted before.  At
most one connect or disconnect of the backend is under way.  When no request is, everybody who made
one has a reply, and the replies other than `cancelled`, the state, the server, the recently used
servers and the server of the tunnel are those of the same requests, without the cancelled ones,
made one after the other in the order they were issued. -/
theorem linearizable (config : Config) (servers : List Server) (latency : Nat) (version : String)
    (failures : List (Operation × BackendError)) (events : List Event)
    (hd : ∀ e ∈ events, e.Direct) :
    let start := Client.make config ((Backend.make servers latency version).script failures)
    let w := start.after events
    (∀ t u, w.InFlight t → w.InFlight u → t = u) ∧
    ((∀ t, ¬ w.Pending t) →
      let kept := start.kept events
      let alone := Client.oneByOne (kept.map (·.2)) start
      (∀ x ∈ issuedIn (start.trace events), (w.reply? x.1).isSome) ∧
      alone.1 = kept.map (fun x => w.reply? x.1) ∧
      alone.2.session.state = w.session.state ∧
      alone.2.session.server = w.session.server ∧
      alone.2.session.recents = w.session.recents ∧
      alone.2.backend.connectedServer = w.backend.connectedServer) := by
  -- any client that is ready would do; the run starts from a new one
  have hready := Client.ready_make config
    ((Backend.prompt_make servers latency version).script failures)
  dsimp only
  generalize Client.make config ((Backend.make servers latency version).script failures) = start
    at hready ⊢
  obtain ⟨hs, hin⟩ := Client.inOrder_after hready.sound
    (Core.inOrder_nil hready.plain hready.idle hready.orderly) events hd
  rw [List.nil_append] at hin
  refine ⟨?_, fun hpending => ?_⟩
  · -- two calls under way would be two firsts of the queue
    intro t u ht hu
    obtain ⟨l, hl, hla⟩ := Client.stage_of_inFlight ht
    obtain ⟨k, hk, hka⟩ := Client.stage_of_inFlight hu
    exact hin.linear.orderly.unique hl hk hla hka
  · -- nothing is under way: both sides are what serving the requests gives
    have hidle : ∀ t, (start.after events).core.stage t = none :=
      fun t => Client.stage_of_not_pending hs hin.plain hpending
    have hissued := fun x hx => Client.reply?_of_issued hin hidle hs (x := x) hx
    obtain ⟨hres, hbook⟩ := hin.complete hidle
    -- the requests that were kept are the same by their replies and by their results
    have hkept : start.kept events = Core.keptIn (start.trace events) := by
      refine List.filter_congr fun x hx => ?_
      obtain ⟨r, hr, hreply⟩ := hissued x hx
      rw [hr, hreply]
      exact congrArg (!·) (Client.isCancelled_settledReply r)
    obtain ⟨hreplies, hbooks⟩ := hready.serveAll ((start.kept events).map (·.2))
    rw [hkept] at hreplies hbooks ⊢
    have hbook' := hbooks.trans hbook
    refine ⟨?_, ?_, congrArg Book.state hbook', congrArg Book.server hbook',
      congrArg Book.recents hbook', congrArg Book.tunnel hbook'⟩
    · intro x hx
      obtain ⟨r, -, hreply⟩ := hissued x hx
      rw [hreply]
      rfl
    · -- the replies are the results, and those are the ones of serving
      have hmap : (Core.keptIn (start.trace events)).map
            (fun x => (start.after events).reply? x.1) =
          ((Core.keptIn (start.trace events)).map fun x => resultIn (start.trace events) x.1).map
            (Option.map Client.settledReply) := by
        rw [List.map_map]
        refine List.map_congr_left fun x hx => ?_
        obtain ⟨r, hr, hreply⟩ := hissued x (List.mem_of_mem_filter hx)
        show _ = (resultIn (start.trace events) x.1).map Client.settledReply
        rw [hr, hreply]
        rfl
      rw [hreplies, hmap, hres, List.map_map]
      rfl

/-- A connect that is superseded at the backend counts for nothing: the disconnect and the connect
after it are all that happens. -/
theorem linearizable_superseded :
    let start := Client.make Config.default
      ((Backend.make [.make "x" "" "" "" ""] 5 "1").script [(.disconnect, .rejected "no")])
    let events : List Event := [.call (.connect "y"), .call .disconnect, .call .quickConnect,
      .poll 0, .poll 1, .pass 5, .poll 1, .poll 2, .pass 5, .poll 2, .pass 5, .poll 2]
    (∀ e ∈ events, e.Direct) ∧ (∀ t, ¬ (start.after events).Pending t) ∧
      start.kept events = [(1, none), (2, some .best)] ∧
      (Client.oneByOne [none, some .best] start).2.session.state = .connected := by
  have hd : ∀ e ∈ ([.call (.connect "y"), .call .disconnect, .call .quickConnect, .poll 0, .poll 1,
      .pass 5, .poll 1, .poll 2, .pass 5, .poll 2, .pass 5, .poll 2] : List Event), e.Direct := by
    simp [Event.Direct]
  -- four tasks were made, and each of them has ended
  have hp : ∀ t, ¬ ((Client.make Config.default
      ((Backend.make [.make "x" "" "" "" ""] 5 "1").script [(.disconnect, .rejected "no")])).after
        [.call (.connect "y"), .call .disconnect, .call .quickConnect, .poll 0, .poll 1, .pass 5,
          .poll 1, .poll 2, .pass 5, .poll 2, .pass 5, .poll 2]).Pending t := by
    rintro t ⟨l, h⟩
    rcases t with _ | _ | _ | _ | t <;> cases h
  refine ⟨hd, hp, rfl, ?_⟩
  exact ((linearizable _ _ _ _ _ _ hd).2 hp).2.2.1.trans rfl

end TunnelSession
