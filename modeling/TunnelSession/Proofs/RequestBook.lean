/-
  The connection at every stage of a request.

  STAGES.  A request that nobody else interferes with asks the backend once, and commits the answer.
  `Core.BookAt` says where the connection is meanwhile, for each stage of it: as it was before but
  for the state and the statistics while the backend works; as the answer leaves it from then on.

  MOVES.  The moves of the task keep that (`Core.BookAt.travel`), and so does whatever leaves the
  connection alone (`Core.Undisturbed`).
-/
import TunnelSession.Proofs.Book
import TunnelSession.Proofs.Solo

namespace TunnelSession

variable {α : Type}

namespace Backend

/-- How often the backend was called for a connect or a disconnect. -/
def tally (b : Backend) (op : Operation) : Nat := if op.isLifecycle then b.calls.get op else 0

/-- A call for a connect or a disconnect is one more of its kind. -/
theorem tally_count (b : Backend) {op : Operation} (h : op.isLifecycle = true) :
    (b.count op).tally = Function.update b.tally op (b.tally op + 1) := by
  funext other
  unfold tally count
  dsimp only
  by_cases ho : other = op
  · subst ho
    rw [Function.update_self, Operation.Table.get_set_self, if_pos h, if_pos h]
  · rw [Function.update_of_ne ho, Operation.Table.get_set_ne _ _ ho]

/-- A call for anything else does not show in the tally. -/
theorem tally_count_of_other (b : Backend) {op : Operation} (h : op.isLifecycle = false) :
    (b.count op).tally = b.tally := by
  funext other
  unfold tally count
  dsimp only
  by_cases ho : other = op
  · subst ho
    rw [h]
    rfl
  · rw [Operation.Table.get_set_ne _ _ ho]

/-- An answer is no call. -/
theorem tally_answer (b : Backend) (now : Nat) (ask : Ask α) :
    (b.answer now ask).2.tally = b.tally := by
  funext op
  unfold tally
  rw [(answer_frame b now ask).2.2.2.2.2]

end Backend

/-- What a request calls the backend for: what it asks for, or to disconnect. -/
def calledFor : Option (Ask Server) → Operation
  | some ask => ask.operation
  | none => .disconnect

namespace Book

/-- A request that nothing else overlaps: a connect with what it asks for, or a disconnect. -/
def carry (b : Book) : Option (Ask Server) → Settled × Book
  | some ask => b.dial ask
  | none => b.hangUp

/-- A connect arrives at a server, or is refused and leaves the rest as it was. -/
theorem dial_cases (b : Book) (ask : Ask Server) :
    (∃ server, b.dial ask = (.ok (some server), b.arrive server)) ∨
    ∃ e failures, b.dial ask =
      (.error (.backend e), { b with state := .error, failures := failures }) := by
  unfold dial
  split
  · exact .inr ⟨_, _, rfl⟩
  · split
    · exact .inl ⟨_, rfl⟩
    · exact .inr ⟨_, b.failures, rfl⟩

/-- A disconnect closes the tunnel, or is refused and leaves the rest as it was. -/
theorem hangUp_cases (b : Book) :
    b.hangUp = (.ok none, b.close) ∨
    ∃ e failures, b.hangUp =
      (.error (.backend e), { b with state := .error, failures := failures }) := by
  unfold hangUp
  split
  · exact .inr ⟨_, _, rfl⟩
  · exact .inl rfl

/-- What nothing else overlaps is not superseded. -/
theorem carry_ne_cancelled (b : Book) (q : Option (Ask Server)) :
    (b.carry q).1 ≠ .error .cancelled := by
  cases q with
  | some ask =>
    show (b.dial ask).1 ≠ _
    rcases b.dial_cases ask with ⟨server, h⟩ | ⟨e, failures, h⟩ <;> rw [h] <;> exact nofun
  | none =>
    show b.hangUp.1 ≠ _
    rcases b.hangUp_cases with h | ⟨e, failures, h⟩ <;> rw [h] <;> exact nofun

/-- Who comes to a server finds the connection up. -/
theorem state_of_carry {b b' : Book} {q : Option (Ask Server)} {server : Server}
    (h : b.carry q = (.ok (some server), b')) : b'.state = .connected := by
  cases q with
  | some ask =>
    rcases b.dial_cases ask with ⟨server', hd⟩ | ⟨e, failures, hd⟩ <;> cases hd.symm.trans h
    rfl
  | none =>
    rcases b.hangUp_cases with hc | ⟨e, failures, hc⟩ <;> cases hc.symm.trans h

end Book

namespace Core

variable {t : TaskId} {c c' : Core} {b : Book} {n : Operation → Nat} {q : Option (Ask Server)}
variable {l : Lifecycle} {p : Progress Lifecycle Settled}

/-! ## What leaves the connection alone -/

/-- Nothing happens to the connection, nor to the statistics unless it is up. -/
structure Undisturbed (c c' : Core) : Prop where
  book : c'.book = c.book
  tally : c'.backend.tally = c.backend.tally
  epoch : c'.epoch = c.epoch
  stats : c.session.state ≠ .connected → c'.session.stats = c.session.stats

theorem Undisturbed.refl (c : Core) : Undisturbed c c := ⟨rfl, rfl, rfl, fun _ => rfl⟩

/-- Two stretches that disturb nothing are one. -/
theorem Undisturbed.trans {c₁ : Core} (h : Undisturbed c c₁) (h' : Undisturbed c₁ c') :
    Undisturbed c c' where
  book := h'.book.trans h.book
  tally := h'.tally.trans h.tally
  epoch := h'.epoch.trans h.epoch
  stats hs := by
    have hstate : c₁.session.state = c.session.state := congrArg Book.state h.book
    exact (h'.stats (hstate ▸ hs)).trans (h.stats hs)

/-- A look at the statistics asks for no change, so it leaves the connection alone. -/
theorem Look.undisturbed (h : Look c c') : Undisturbed c c' := by
  have hbook := h.book_eq
  cases h with
  | counted => exact ⟨hbook, Backend.tally_count_of_other _ rfl, rfl, fun _ => rfl⟩
  | answered => exact ⟨hbook, Backend.tally_answer _ _ _, rfl, fun _ => rfl⟩
  | kept stats h => exact ⟨hbook, rfl, rfl, fun hne => absurd h hne⟩

/-- What a request of another kind does leaves the connection alone: its calls are not in the
tally. -/
theorem Aside.undisturbed (h : Aside c c') : Undisturbed c c' := by
  have hbook := h.book_eq
  cases h with
  | look h => exact h.undisturbed
  | called op h => exact ⟨hbook, Backend.tally_count_of_other _ h, rfl, fun _ => rfl⟩
  | answered ask h => exact ⟨hbook, Backend.tally_answer _ _ _, rfl, fun _ => rfl⟩
  | settings | autoConnect | catalog | favorites | writes | looking | bridge =>
    exact ⟨hbook, rfl, rfl, fun _ => rfl⟩

/-- Steps that leave no trace. -/
theorem Steps.undisturbed {acts : List Act} (h : Steps c acts c') (hn : acts = []) :
    Undisturbed c c' := by
  induction h with
  | refl => exact .refl _
  | @head c c₁ c' acts more h hs ih =>
    obtain ⟨rfl, rfl⟩ := List.append_eq_nil_iff.1 hn
    refine .trans ?_ (ih rfl)
    cases h with
    | aside h => exact h.undisturbed
    | turn | retire => exact ⟨rfl, rfl, rfl, fun _ => rfl⟩

/-! ## What the backend answers -/

variable {ask : Ask Server}

/-- A connect comes to the server that the backend answers. -/
theorem dial_of_ok {server : Server} (hd : ask.IsDial)
    (ha : (c.backend.answer c.now ask).1 = .ok server) :
    c.book.dial ask = (.ok (some server), c.book.arrive server) := by
  have hdial : c.book.dial ask = (.ok (some server), _) := dial_connect hd (Prod.ext ha rfl)
  rcases c.book.dial_cases ask with ⟨server', h⟩ | ⟨e, failures, h⟩
  · obtain ⟨hs, -⟩ := Prod.mk.inj (h.symm.trans hdial)
    cases hs
    exact h
  · cases h.symm.trans hdial

/-- A connect comes to the error that the backend answers. -/
theorem dial_of_error {e : BackendError} (hd : ask.IsDial)
    (ha : (c.backend.answer c.now ask).1 = .error e) :
    ∃ failures, c.book.dial ask =
      (.error (.backend e), { c.book with state := .error, failures := failures }) := by
  have hdial : c.book.dial ask = (.error (.backend e), _) := dial_refuse hd (Prod.ext ha rfl)
  rcases c.book.dial_cases ask with ⟨server, h⟩ | ⟨e', failures, h⟩
  · cases h.symm.trans hdial
  · obtain ⟨hs, -⟩ := Prod.mk.inj (h.symm.trans hdial)
    cases hs
    exact ⟨failures, h⟩

/-- A disconnect goes through if the backend answers so. -/
theorem hangUp_of_ok (ha : (c.backend.answer c.now .disconnect).1 = .ok ()) :
    c.book.hangUp = (.ok none, c.book.close) := by
  have hleave : c.book.hangUp = (.ok none, _) := hangUp_close (Prod.ext ha rfl)
  rcases c.book.hangUp_cases with h | ⟨e, failures, h⟩
  · exact h
  · cases h.symm.trans hleave

/-- A disconnect comes to the error that the backend answers. -/
theorem hangUp_of_error {e : BackendError}
    (ha : (c.backend.answer c.now .disconnect).1 = .error e) :
    ∃ failures, c.book.hangUp =
      (.error (.backend e), { c.book with state := .error, failures := failures }) := by
  have hleave : c.book.hangUp = (.error (.backend e), _) := hangUp_fail (Prod.ext ha rfl)
  rcases c.book.hangUp_cases with h | ⟨e', failures, h⟩
  · cases h.symm.trans hleave
  · obtain ⟨hs, -⟩ := Prod.mk.inj (h.symm.trans hleave)
    cases hs
    exact ⟨failures, h⟩

/-! ## Where the connection is -/

/-- Where the connection is when a request has got so far: `b` is the book and `n` the tally before
it. -/
def BookAt (b : Book) (n : Operation → Nat) (q : Option (Ask Server)) (c : Core) :
    Progress Lifecycle Settled → Prop
  | .waiting (.queued target ticket) =>
    ¬ ticket < c.epoch ∧ c.book = b ∧ c.backend.tally = n ∧
      q.isSome ∧ target.ask? b.server = q
  | .waiting (.dialing ticket call) =>
    ¬ ticket < c.epoch ∧ (∃ state, state ≠ .connected ∧ c.book = b.withState state) ∧
      c.session.stats = none ∧
      c.backend.tally = Function.update n (calledFor q) (n (calledFor q) + 1) ∧
      ∃ ask, q = some ask ∧ ask.IsDial ∧ call.Runs ask
  | .waiting (.sampling ticket server _) =>
    ¬ ticket < c.epoch ∧ c.session.state = .connected ∧
      b.carry q = (.ok (some server), c.book) ∧
      c.backend.tally = Function.update n (calledFor q) (n (calledFor q) + 1)
  | .waiting .leaving => c.book = b ∧ c.backend.tally = n ∧ q = none
  | .waiting (.hangingUp _) =>
    (∃ state, state ≠ .connected ∧ c.book = b.withState state) ∧ c.session.stats = none ∧
      c.backend.tally = Function.update n (calledFor q) (n (calledFor q) + 1) ∧ q = none
  | .done r =>
    b.carry q = (r, c.book) ∧
      c.backend.tally = Function.update n (calledFor q) (n (calledFor q) + 1) ∧
      (c.session.state ≠ .connected → c.session.stats = none)

/-- Whatever leaves the connection alone leaves it where a request has got to, one case for each
stage. -/
theorem BookAt.undisturbed (h : BookAt b n q c p) (hu : Undisturbed c c') : BookAt b n q c' p := by
  have hstate : c'.session.state = c.session.state := congrArg Book.state hu.book
  cases p with
  | waiting l =>
    cases l with
    | queued target ticket =>
      unfold BookAt at h ⊢
      rw [hu.book, hu.tally, hu.epoch]
      exact h
    | dialing ticket call =>
      -- the state is that of a request that runs, so the statistics stay cleared
      obtain ⟨hv, ⟨state, hne, hb⟩, hs, ht, hq⟩ := h
      have hdown : c.session.state ≠ .connected := by
        rw [show c.session.state = state from congrArg Book.state hb]
        exact hne
      exact ⟨hu.epoch ▸ hv, ⟨state, hne, hu.book.trans hb⟩, (hu.stats hdown).trans hs,
        hu.tally.trans ht, hq⟩
    | sampling ticket server call =>
      unfold BookAt at h ⊢
      rw [hu.book, hu.tally, hu.epoch, hstate]
      exact h
    | leaving =>
      unfold BookAt at h ⊢
      rw [hu.book, hu.tally]
      exact h
    | hangingUp call =>
      -- as for a connect that waits on the backend
      obtain ⟨⟨state, hne, hb⟩, hs, ht, hq⟩ := h
      have hdown : c.session.state ≠ .connected := by
        rw [show c.session.state = state from congrArg Book.state hb]
        exact hne
      exact ⟨⟨state, hne, hu.book.trans hb⟩, (hu.stats hdown).trans hs, hu.tally.trans ht, hq⟩
  | done r =>
    -- only while the connection is up can the statistics move
    obtain ⟨hb, ht, hs⟩ := h
    refine ⟨hb.trans (by rw [hu.book]), hu.tally.trans ht, fun hne => ?_⟩
    rw [hstate] at hne
    exact (hu.stats hne).trans (hs hne)

/-- The request makes a move, and the connection is where the next stage has it: with the backend
called once more, or with the tunnel that was made. -/
theorem BookAt.move (h : BookAt b n q c (.waiting l)) (hl : c.stage t = some l)
    (hm : Move t c c') : ∃ l', c'.stage t = some l' ∧ BookAt b n q c' (.waiting l') := by
  cases hm with
  | @dial target ticket state ask hs hv hh ha =>
    -- it gets the connection: the state and the statistics change, and it calls
    rw [hs] at hl
    cases hl
    obtain ⟨-, hb, ht, -, hq⟩ := h
    have hask : q = some ask := by
      rw [← hq, ← hb]
      exact Target.ask?_of_aim ha
    subst hask
    have hdial : ask.IsDial := Session.isDial_of_aim ha
    refine ⟨_, put_stage_self _ _ _, hv, ⟨state, ?_, ?_⟩, rfl, ?_, ask, rfl, hdial, _, rfl⟩
    · rcases Session.state_of_aim ha with rfl | ⟨rfl, -⟩ <;> exact nofun
    · rw [← hb]
      rfl
    · rw [← ht]
      exact Backend.tally_count _ hdial.isLifecycle
  | @connect ticket ask due server backend hs hd hv ha =>
    -- the backend answers with a server, which the session commits
    rw [hs] at hl
    cases hl
    obtain ⟨-, ⟨state, -, hb⟩, -, ht, ask', rfl, hdial, due', hcall⟩ := h
    cases hcall
    refine ⟨_, put_stage_self _ _ _, hv, rfl, ?_, ?_⟩
    · show b.dial ask = _
      rw [show b = c.book.withState b.state by rw [hb]; rfl]
      exact dial_connect hdial ha
    · rw [← ht, ← Backend.tally_answer c.backend c.now ask, ha]
      rfl
  | @look ticket server call _ hs hlook =>
    -- the statistics are looked at, which disturbs nothing
    rw [hs] at hl
    cases hl
    refine ⟨_, ?_, h.undisturbed hlook.undisturbed⟩
    rw [hlook.stage_eq]
    exact hs
  | hangUp hs hh =>
    -- a disconnect leaves the connection and calls
    rw [hs] at hl
    cases hl
    obtain ⟨hb, ht, rfl⟩ := h
    refine ⟨_, put_stage_self _ _ _, ⟨.disconnecting, nofun, ?_⟩, rfl, ?_, rfl⟩
    · rw [← hb]
      rfl
    · rw [← ht]
      exact Backend.tally_count _ rfl

/-- The request comes to its result, and the connection is as the answer leaves it. Its ticket is
good, so it is not cancelled. -/
theorem BookAt.settle {r : Settled} (h : BookAt b n q c (.waiting l)) (hl : c.stage t = some l)
    (hm : Settle t c r c') : BookAt b n q c' (.done r) := by
  cases hm with
  | @drop target ticket hs hv =>
    -- nobody asked for a disconnect meanwhile, so its ticket is good
    rw [hs] at hl
    cases hl
    exact absurd hv h.1
  | @noServer ticket hs hv hh hn =>
    -- without a server there was nothing to ask for
    rw [hs] at hl
    cases hl
    obtain ⟨-, hb, -, hsome, hq⟩ := h
    rw [← hq, ← hb] at hsome
    rw [show Target.ask? c.book.server .last = none by
      show Option.map _ c.session.server = none; rw [hn]; rfl] at hsome
    cases hsome
  | @abort ticket call hs hv =>
    rw [hs] at hl
    cases hl
    exact absurd hv h.1
  | @refuse ticket ask due e backend hs hd hv ha =>
    -- the backend refused the connect
    rw [hs] at hl
    cases hl
    obtain ⟨-, ⟨state, -, hb⟩, hstats, ht, ask', rfl, hdial, due', hcall⟩ := h
    cases hcall
    refine ⟨?_, ?_, fun _ => hstats⟩
    · show b.dial ask = _
      rw [show b = c.book.withState b.state by rw [hb]; rfl]
      exact dial_refuse hdial ha
    · rw [← ht, ← Backend.tally_answer c.backend c.now ask, ha]
      rfl
  | @arrive ticket server call pollers hs =>
    -- the first look is over: nothing was left to commit
    rw [hs] at hl
    cases hl
    obtain ⟨-, hup, hb, ht⟩ := h
    exact ⟨hb, ht, fun hne => absurd hup hne⟩
  | @close due backend hs hd ha =>
    -- the backend closed the tunnel
    rw [hs] at hl
    cases hl
    obtain ⟨⟨state, -, hb⟩, -, ht, rfl⟩ := h
    refine ⟨?_, ?_, fun _ => rfl⟩
    · show b.hangUp = _
      rw [show b = c.book.withState b.state by rw [hb]; rfl]
      exact hangUp_close ha
    · rw [← ht, ← Backend.tally_answer c.backend c.now .disconnect, ha]
      rfl
  | @fail due e backend hs hd ha =>
    -- the backend refused to close it
    rw [hs] at hl
    cases hl
    obtain ⟨⟨state, -, hb⟩, hstats, ht, rfl⟩ := h
    refine ⟨?_, ?_, fun _ => hstats⟩
    · show b.hangUp = _
      rw [show b = c.book.withState b.state by rw [hb]; rfl]
      exact hangUp_fail ha
    · rw [← ht, ← Backend.tally_answer c.backend c.now .disconnect, ha]
      rfl

/-- The request goes on until it has to wait, or comes to its result. -/
theorem BookAt.travel (h : BookAt b n q c (.waiting l)) (hl : c.stage t = some l)
    (ht : Travel t c p c') : BookAt b n q c' p := by
  induction ht generalizing l with
  | stay hs =>
    rw [hs] at hl
    cases hl
    exact h
  | settle hm => exact h.settle hl hm
  | move hm _ ih =>
    obtain ⟨l', hl', h'⟩ := h.move hl hm
    exact ih h' hl'

/-- Nobody waits with a void ticket. -/
theorem BookAt.not_void (h : BookAt b n q c (.waiting l)) :
    ∀ k, l.ticket? = some k → ¬ k < c.epoch := by
  intro k hk
  cases l with
  | queued | dialing | sampling =>
    cases hk
    exact h.1
  | leaving | hangingUp => cases hk

/-- A connect begins, which has something to ask for. -/
theorem bookAt_connect {target : Target} {ticket : Nat} {ask : Ask Server}
    (hst : Stretch t c (.connect target ticket) p c') (hv : ¬ ticket < c.epoch)
    (ha : target.ask? c.session.server = some ask) :
    BookAt c.book c.backend.tally (some ask) c' p := by
  cases hst with
  | refuse _ hlt => exact absurd hlt hv
  | connect hs _ ht =>
    refine BookAt.travel (l := .queued target ticket) ?_ (put_stage_self _ _ _) ht
    exact ⟨hv, rfl, rfl, rfl, ha⟩

/-- A disconnect begins. -/
theorem bookAt_disconnect (hst : Stretch t c .disconnect p c') :
    BookAt c.book c.backend.tally none c' p := by
  cases hst with
  | disconnect hs ht =>
    refine BookAt.travel (l := .leaving) ?_ (put_stage_self _ _ _) ht
    exact ⟨rfl, rfl, rfl⟩

/-- A request goes on. -/
theorem BookAt.resume (h : BookAt b n q c (.waiting l)) (hst : Stretch t c (.resume l) p c') :
    BookAt b n q c' p := by
  cases hst with
  | resume hs ht => exact h.travel hs ht

end Core

end TunnelSession
