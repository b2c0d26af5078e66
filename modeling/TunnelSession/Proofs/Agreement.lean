/-
  The session and the backend agree about the server.

  PROGRAM.  A connect first calls the backend and then commits the server to the session, and a
  disconnect first calls the backend and then forgets the server.

  AGREEMENT.  Both commits happen in the very move in which the backend answered, and no other move
  touches the tunnel or the server.  So the server of the session is at any time the one that the
  tunnel of the backend is up to (`Agrees`): also while a connect is under way, after a connect or
  a disconnect that failed, and after a connect that was superseded.
-/
import TunnelSession.Proofs.Connection

namespace TunnelSession

/-- The session says of the connection what the backend says. -/
structure Agrees (s : Session) (b : Backend) : Prop where
  tunnel : b.connectedServer = s.server.map (·.id)
  connected : s.state = .connected → s.server.isSome
  reconnecting : s.state = .reconnecting → s.server.isSome
  disconnected : s.state = .disconnected → s.server = none
  latest : ∀ server, s.server = some server → s.recents.ids.head? = some server.id

namespace Backend

variable {b b' : Backend} {now : Nat}

/-- A connect that succeeds brings the tunnel up to its server. -/
theorem connectedServer_of_dial {ask : Ask Server} {server : Server} (hk : ask.IsDial)
    (h : b.answer now ask = (.ok server, b')) : b'.connectedServer = some server.id := by
  unfold answer at h
  split at h
  · -- a scripted failure is no tunnel
    cases h
  · -- a connect to a server, and one to the best
    rcases hk with ⟨id, rfl⟩ | rfl
    · unfold perform at h
      dsimp only at h
      split at h
      · cases h
        rfl
      · cases h
    · unfold perform at h
      dsimp only at h
      split at h
      · cases h
        rfl
      · cases h

/-- A connect that fails leaves the tunnel where it is. -/
theorem connectedServer_of_refuse {ask : Ask Server} {e : BackendError} (hk : ask.IsDial)
    (h : b.answer now ask = (.error e, b')) : b'.connectedServer = b.connectedServer := by
  unfold answer at h
  split at h
  · -- a scripted failure comes before the backend does anything
    cases h
    rfl
  · rcases hk with ⟨id, rfl⟩ | rfl
    · unfold perform at h
      dsimp only at h
      split at h
      · cases h
      · cases h
        rfl
    · unfold perform at h
      dsimp only at h
      split at h
      · cases h
      · cases h
        rfl

/-- A disconnect that succeeds takes the tunnel down. -/
theorem connectedServer_of_close (h : b.answer now .disconnect = (.ok (), b')) :
    b'.connectedServer = none := by
  unfold answer at h
  split at h
  · cases h
  · cases h
    rfl

/-- A disconnect that fails leaves the tunnel where it is. -/
theorem connectedServer_of_fail {e : BackendError}
    (h : b.answer now .disconnect = (.error e, b')) : b'.connectedServer = b.connectedServer := by
  unfold answer at h
  split at h
  · cases h
    rfl
  · cases h

end Backend

/-! ## The ways to change the session -/

/-- Session and backend go on agreeing while neither the tunnel, nor the state, nor the server
changes. -/
theorem Agrees.same {c c' : Core} (ha : Agrees c.session c.backend) (h : c.SameLink c') :
    Agrees c'.session c'.backend where
  tunnel := by rw [h.connectedServer, h.server]; exact ha.tunnel
  connected := by rw [h.state, h.server]; exact ha.connected
  reconnecting := by rw [h.state, h.server]; exact ha.reconnecting
  disconnected := by rw [h.state, h.server]; exact ha.disconnected
  latest := by rw [h.server, h.recents]; exact ha.latest

/-- The old connection is left behind, and the backend is called. -/
theorem Agrees.depart {s : Session} {b : Backend} {state : ConnectionState} (h : Agrees s b)
    (op : Operation) (hc : state ≠ .connected)
    (hr : state = .reconnecting → s.server.isSome) (hd : state ≠ .disconnected) :
    Agrees (s.depart state) (b.count op) where
  tunnel := h.tunnel
  connected he := absurd he hc
  reconnecting := hr
  disconnected he := absurd he hd
  latest := h.latest

/-- After an error only the server counts. -/
theorem Agrees.fault {s : Session} {b b' : Backend} (h : Agrees s b)
    (hb : b'.connectedServer = b.connectedServer) : Agrees s.fault b' where
  tunnel := hb.trans h.tunnel
  connected he := nomatch he
  reconnecting he := nomatch he
  disconnected he := nomatch he
  latest := h.latest

/-- The server is committed in the same move in which the tunnel came up. -/
theorem agrees_arrive (s : Session) {b : Backend} {server : Server}
    (hb : b.connectedServer = some server.id) : Agrees (s.arrive server) b where
  tunnel := hb
  connected _ := rfl
  reconnecting _ := rfl
  disconnected he := nomatch he
  latest server' he := by
    cases he
    exact Recents.head?_push _ _

/-- The server is forgotten in the same move in which the tunnel went down. -/
theorem agrees_close (s : Session) {b : Backend} (hb : b.connectedServer = none) :
    Agrees s.close b where
  tunnel := hb
  connected he := nomatch he
  reconnecting he := nomatch he
  disconnected _ := rfl
  latest _ he := nomatch he

namespace Core

/-- Every move keeps the agreement. -/
theorem linkInvariant_agrees : LinkInvariant fun c => Agrees c.session c.backend where
  same h ha := ha.same h
  enter _ _ _ ha := ha
  move hs ha h := by
    cases h with
    | dial _ _ _ haim =>
      -- connecting says nothing of a server, and reconnecting says that there is one
      rcases Session.state_of_aim haim with rfl | ⟨rfl, hserver⟩
      · exact ha.depart _ nofun nofun nofun
      · exact ha.depart _ nofun (fun _ => hserver) nofun
    | connect hk _ _ hb =>
      -- the backend answered, and the session takes the server in the same move
      exact agrees_arrive _ (Backend.connectedServer_of_dial (isDial_of_stage hs hk) hb)
    | look _ hl => exact ha.same hl.sameLink
    | hangUp => exact ha.depart _ nofun nofun nofun
  settle hs ha h := by
    cases h with
    | drop | noServer | abort | arrive => exact ha
    | refuse hk _ _ hb =>
      exact ha.fault (Backend.connectedServer_of_refuse (isDial_of_stage hs hk) hb)
    | close _ _ hb => exact agrees_close _ (Backend.connectedServer_of_close hb)
    | fail _ _ hb => exact ha.fault (Backend.connectedServer_of_fail hb)

end Core

/-- A session and a backend that were just made agree. -/
theorem agrees_make (settings : Settings) (servers : List Server) (latency : Nat)
    (version : String) : Agrees (.make settings) (.make servers latency version) where
  tunnel := rfl
  connected he := nomatch he
  reconnecting he := nomatch he
  disconnected _ := rfl
  latest _ he := nomatch he

/-- At any point of any run, the session and the backend agree about the server. -/
theorem agrees_after (config : Config) (servers : List Server) (latency : Nat) (version : String)
    (events : List Event) :
    Agrees ((Client.fresh config servers latency version).after events).session
      ((Client.fresh config servers latency version).after events).backend :=
  Core.linkInvariant_agrees.after (Client.sound_make config (Backend.prompt_make _ _ _))
    (agrees_make config.settings servers latency version) events

end TunnelSession
