/-
  Requests one after the other.

  BOOK.  What requests see of each other: the state, the server, the recently used ones, the server
  that the tunnel is up to, and what the backend has in store for connects and disconnects (`Book`).

  SERVING.  A request that nothing else overlaps is a function of the book (`Book.serve`): no clock,
  no lock and no ticket is in it.  A commit of the client does to the book what serving does
  (`Core.dial_connect`, `Core.dial_refuse`, `Core.hangUp_close`, `Core.hangUp_fail`), whatever the
  state was in between.
-/
import TunnelSession.Proofs.Agreement

namespace TunnelSession

/-- What a connect asks of the backend, if the session has this server. -/
def Target.ask? (server : Option Server) : Target → Option (Ask Server)
  | .server id => some (.connect id)
  | .best => some .quickConnect
  | .last => server.map fun server => .connect server.id

/-- What a connect asks for depends on the server of the session only. -/
theorem Session.aim_ask? (s : Session) (target : Target) :
    (s.aim target).map (·.2) = target.ask? s.server := by
  cases target with
  | server | best => rfl
  | last =>
    unfold aim Target.ask?
    cases s.server <;> rfl

theorem Target.ask?_of_aim {s : Session} {target : Target} {state : ConnectionState}
    {ask : Ask Server} (h : s.aim target = some (state, ask)) :
    target.ask? s.server = some ask := by
  rw [← s.aim_ask?, h]
  rfl

/-- What a backend of these servers answers to a connect that is not made to fail. -/
def Ask.reach (servers : List Server) (ask : Ask Server) : Except BackendError Server :=
  ((Backend.make servers 0 "").perform 0 ask).1

/-- What requests see of each other. -/
structure Book where
  state : ConnectionState
  server : Option Server
  recents : Recents
  tunnel : Option String
  servers : List Server
  failures : Operation → List BackendError

namespace Book

/-- The book with another state. -/
def withState (b : Book) (state : ConnectionState) : Book := { b with state := state }

/-- The oldest failure of an operation is used up. -/
def refuse (b : Book) (op : Operation) (rest : List BackendError) : Book :=
  { b with state := .error, failures := Function.update b.failures op rest }

/-- The tunnel is up to a server. -/
def arrive (b : Book) (server : Server) : Book :=
  { b with
    state := .connected
    server := some server
    recents := b.recents.push server.id
    tunnel := some server.id }

/-- The tunnel is down. -/
def close (b : Book) : Book := { b with state := .disconnected, server := none, tunnel := none }

/-- A connect that nothing else overlaps calls the backend. -/
def dial (b : Book) (ask : Ask Server) : Settled × Book :=
  match b.failures ask.operation with
  | e :: rest => (.error (.backend e), b.refuse ask.operation rest)
  | [] =>
    match ask.reach b.servers with
    | .ok server => (.ok (some server), b.arrive server)
    | .error e => (.error (.backend e), b.withState .error)

/-- A disconnect that nothing else overlaps. -/
def hangUp (b : Book) : Settled × Book :=
  match b.failures .disconnect with
  | e :: rest => (.error (.backend e), b.refuse .disconnect rest)
  | [] => (.ok none, b.close)

/-- A request that nothing else overlaps: a connect with its target, or a disconnect. -/
def serve (b : Book) : Option Target → Settled × Book
  | none => b.hangUp
  | some target =>
    match target.ask? b.server with
    | some ask => b.dial ask
    | none => (.error noServer, b)

/-- Requests one after the other: their results, and the book after them. -/
def serveAll (b : Book) : List (Option Target) → List Settled × Book
  | [] => ([], b)
  | g :: gs => ((b.serve g).1 :: ((b.serve g).2.serveAll gs).1, ((b.serve g).2.serveAll gs).2)

/-- One more request. -/
theorem serveAll_snoc (b : Book) (gs : List (Option Target)) (g : Option Target) :
    b.serveAll (gs ++ [g]) =
      ((b.serveAll gs).1 ++ [((b.serveAll gs).2.serve g).1], ((b.serveAll gs).2.serve g).2) := by
  induction gs generalizing b with
  | nil => rfl
  | cons g' gs ih => rw [List.cons_append, serveAll, ih, serveAll, List.cons_append]

end Book

namespace Backend

variable {b b' : Backend} {now : Nat}

/-- What is in store for connects and disconnects. -/
def store (b : Backend) (op : Operation) : List BackendError :=
  if op.isLifecycle then b.failures.get op else []

/-- Scripting a connect or a disconnect changes what is in store for it. -/
theorem store_set {op : Operation} (h : op.isLifecycle = true) (rest : List BackendError) :
    ({ b with failures := b.failures.set op rest } : Backend).store =
      Function.update b.store op rest := by
  funext other
  unfold store
  by_cases he : other = op
  · subst he
    rw [Function.update_self, if_pos h, Operation.Table.get_set_self]
  · rw [Function.update_of_ne he, Operation.Table.get_set_ne _ _ he]

/-- Scripting anything else does not. -/
theorem store_set_of_other {op : Operation} (h : op.isLifecycle = false) (l : List BackendError) :
    ({ b with failures := b.failures.set op l } : Backend).store = b.store := by
  funext other
  unfold store
  by_cases he : other = op
  · subst he
    rw [h]
    rfl
  · rw [Operation.Table.get_set_ne _ _ he]

/-- An answer to anything but a connect or a disconnect leaves in store what was. -/
theorem store_answer {α : Type} (b : Backend) (now : Nat) {ask : Ask α}
    (h : ask.operation.isLifecycle = false) : (b.answer now ask).2.store = b.store := by
  rcases b.answer_cases now ask with ⟨e, rest, -, he⟩ | ⟨-, he⟩
  · rw [he]
    exact store_set_of_other h rest
  · rw [he]
    cases ask with
    | connect | quickConnect | disconnect => cases h
    | servers | save | toggle | version => rfl
    | stats =>
      unfold perform
      dsimp only
      split <;> rfl

/-- A connect reaches a server and brings the tunnel up to it, or does nothing. -/
theorem perform_dial (b : Backend) (now : Nat) {ask : Ask Server} (h : ask.IsDial) :
    (∃ server, ask.reach b.servers = .ok server ∧
      b.perform now ask = (.ok server, b.bringUp server now)) ∨
    (∃ e, ask.reach b.servers = .error e ∧ b.perform now ask = (.error e, b)) := by
  rcases h with ⟨id, rfl⟩ | rfl
  · unfold Ask.reach perform
    dsimp only [make]
    cases Server.find? id b.servers with
    | some server => exact .inl ⟨server, rfl, rfl⟩
    | none => exact .inr ⟨_, rfl, rfl⟩
  · unfold Ask.reach perform
    dsimp only [make]
    cases Server.best? b.servers with
    | some server => exact .inl ⟨server, rfl, rfl⟩
    | none => exact .inr ⟨_, rfl, rfl⟩

end Backend

theorem Ask.IsDial.isLifecycle {ask : Ask Server} (h : ask.IsDial) :
    ask.operation.isLifecycle = true := by
  rcases h with ⟨id, rfl⟩ | rfl <;> rfl

namespace Core

/-- The book of a core. -/
def book (c : Core) : Book where
  state := c.session.state
  server := c.session.server
  recents := c.session.recents
  tunnel := c.backend.connectedServer
  servers := c.backend.servers
  failures := c.backend.store

variable {c : Core} {b : Backend} {ask : Ask Server} {state : ConnectionState}

/-- The failures that a connect finds in the book are those that are in store for it. -/
theorem failures_withState (hd : ask.IsDial) :
    (c.book.withState state).failures ask.operation = c.backend.failures.get ask.operation := by
  show c.backend.store ask.operation = _
  unfold Backend.store
  rw [if_pos hd.isLifecycle]

/-- The answer to a connect is committed. -/
theorem dial_connect {server : Server} (hd : ask.IsDial)
    (h : c.backend.answer c.now ask = (.ok server, b)) :
    (c.book.withState state).dial ask =
      (.ok (some server), ({ c with backend := b }.edit (·.arrive server)).book) := by
  rcases c.backend.answer_cases c.now ask with ⟨e, rest, -, he⟩ | ⟨hf, he⟩
  · -- a scripted failure is no server
    rw [he] at h
    cases h
  · rcases c.backend.perform_dial c.now hd with ⟨server', hr, hp⟩ | ⟨e, -, hp⟩
    · rw [he, hp] at h
      cases h
      -- nothing was in store, so serving asks the backend as well
      unfold Book.dial
      rw [failures_withState hd, hf,
        show (c.book.withState state).servers = c.backend.servers from rfl]
      dsimp only
      rw [hr]
      rfl
    · rw [he, hp] at h
      cases h

/-- The refusal of a connect is committed. A failure in store is used up by the client and by the
book alike, and without one both refuse the server for the same reason. -/
theorem dial_refuse {e : BackendError} (hd : ask.IsDial)
    (h : c.backend.answer c.now ask = (.error e, b)) :
    (c.book.withState state).dial ask =
      (.error (.backend e), ({ c with backend := b }.edit (·.fault)).book) := by
  rcases c.backend.answer_cases c.now ask with ⟨e', rest, hf, he⟩ | ⟨hf, he⟩
  · rw [he] at h
    cases h
    -- the failure was in store, and is used up in both
    unfold Book.dial
    rw [failures_withState hd, hf]
    dsimp only
    unfold Book.refuse book
    dsimp only [Core.edit]
    rw [Backend.store_set hd.isLifecycle]
    rfl
  · rcases c.backend.perform_dial c.now hd with ⟨server', -, hp⟩ | ⟨e', hr, hp⟩
    · rw [he, hp] at h
      cases h
    · rw [he, hp] at h
      cases h
      -- nothing was in store: there is no such server
      unfold Book.dial
      rw [failures_withState hd, hf,
        show (c.book.withState state).servers = c.backend.servers from rfl]
      dsimp only
      rw [hr]
      rfl

/-- The answer to a disconnect is committed. -/
theorem hangUp_close (h : c.backend.answer c.now .disconnect = (.ok (), b)) :
    (c.book.withState state).hangUp =
      (.ok none, ({ c with backend := b }.edit (·.close)).book) := by
  rcases c.backend.answer_cases c.now .disconnect with ⟨e, rest, -, he⟩ | ⟨hf, he⟩
  · rw [he] at h
    cases h
  · rw [he] at h
    cases h
    have hstore : (c.book.withState state).failures .disconnect = [] := hf
    unfold Book.hangUp
    rw [hstore]
    rfl

/-- The refusal of a disconnect is committed. -/
theorem hangUp_fail {e : BackendError} (h : c.backend.answer c.now .disconnect = (.error e, b)) :
    (c.book.withState state).hangUp =
      (.error (.backend e), ({ c with backend := b }.edit (·.fault)).book) := by
  rcases c.backend.answer_cases c.now .disconnect with ⟨e', rest, hf, he⟩ | ⟨hf, he⟩
  · rw [he] at h
    cases h
    -- a disconnect fails only when that was scripted
    have hstore : (c.book.withState state).failures .disconnect = e :: rest := hf
    unfold Book.hangUp
    rw [hstore]
    dsimp only
    unfold Book.refuse book
    dsimp only [Core.edit]
    rw [show (Ask.disconnect).operation = .disconnect from rfl, Backend.store_set rfl]
    rfl
  · rw [he] at h
    cases h

/-! ## What leaves the book alone -/

variable {c' : Core}

theorem book_congr (h : SameLink c c') (hs : c'.backend.servers = c.backend.servers)
    (hf : c'.backend.store = c.backend.store) : c'.book = c.book := by
  unfold book
  rw [h.state, h.server, h.recents, h.connectedServer, hs, hf]

theorem Look.book_eq (h : Look c c') : c'.book = c.book := by
  cases h with
  | counted => rfl
  | answered =>
    exact book_congr (Look.sameLink .answered) (Backend.answer_frame _ _ _).2.1
      (Backend.store_answer _ _ rfl)
  | kept => rfl

theorem Aside.book_eq (h : Aside c c') : c'.book = c.book := by
  cases h with
  | look h => exact h.book_eq
  | answered ask h =>
    exact book_congr (Aside.sameLink (.answered ask h)) (Backend.answer_frame _ _ _).2.1
      (Backend.store_answer _ _ h)
  | _ => rfl

end Core

end TunnelSession
