/-
  Every component writes its own share of the session.

  SHARES.  Work on the connection, the bridges and the telemetry write the state, the server, the
  statistics and the recent servers; a change of the settings writes the settings and turns the kill
  switch; the catalog has the servers and the favorites; what only reads writes nothing.
  `Component.Keeps` says that nothing else was written.

  WORK.  Every effect says which share it writes, so work keeps to the shares of its effects
  (`Work.keeps`).  That holds of every client, whatever its tasks are doing: nobody writes a session
  back that was read before.
-/
import TunnelSession.Proofs.TurnEffects

namespace TunnelSession

open Text (NameSet)

namespace Client

/-! ## Shares -/

/-- The session and the kill switch, which the components share. -/
def shared (w : Client) : Session × KillSwitch := (w.session, w.killSwitch)

/-- What does not belong to the connection: the settings, the servers, the favorites, and whether
the kill switch is on. -/
def offConnection (w : Client) : Settings × List Server × NameSet × Bool :=
  (w.session.settings, w.session.catalog, w.session.favorites, w.killSwitch.enabled)

/-- What does not belong to the settings. -/
def offSettings (w : Client) :
    ConnectionState × Option Server × Option Stats × Recents × List Server × NameSet :=
  (w.session.state, w.session.server, w.session.stats, w.session.recents, w.session.catalog,
    w.session.favorites)

/-- What does not belong to the catalog. -/
def offCatalog (w : Client) :
    ConnectionState × Option Server × Option Stats × Recents × Settings × KillSwitch :=
  (w.session.state, w.session.server, w.session.stats, w.session.recents, w.session.settings,
    w.killSwitch)

end Client

/-- The component wrote nothing beyond its own share. -/
def Component.Keeps : Component → Client → Client → Prop
  | .lifecycle, w, w' | .bridge, w, w' | .telemetry, w, w' => w'.offConnection = w.offConnection
  | .settings, w, w' => w'.offSettings = w.offSettings
  | .catalog, w, w' => w'.offCatalog = w.offCatalog
  | .reader, w, w' => w'.shared = w.shared

namespace Client

variable {w w' : Client}

theorem offConnection_of_shared (h : w'.shared = w.shared) :
    w'.offConnection = w.offConnection :=
  congrArg (fun p : Session × KillSwitch =>
    (p.1.settings, p.1.catalog, p.1.favorites, p.2.enabled)) h

theorem offSettings_of_shared (h : w'.shared = w.shared) : w'.offSettings = w.offSettings :=
  congrArg (fun p : Session × KillSwitch =>
    (p.1.state, p.1.server, p.1.stats, p.1.recents, p.1.catalog, p.1.favorites)) h

theorem offCatalog_of_shared (h : w'.shared = w.shared) : w'.offCatalog = w.offCatalog :=
  congrArg (fun p : Session × KillSwitch =>
    (p.1.state, p.1.server, p.1.stats, p.1.recents, p.1.settings, p.2)) h

theorem shared_of_core (h : w'.core.session = w.core.session)
    (hk : w'.core.killSwitch = w.core.killSwitch) : w'.shared = w.shared :=
  congrArg₂ Prod.mk h hk

end Client

namespace Component

variable {k : Component} {w w' w₁ : Client}

theorem Keeps.refl (k : Component) (w : Client) : k.Keeps w w := by
  cases k <;> exact rfl

theorem Keeps.trans (h : k.Keeps w w₁) (h' : k.Keeps w₁ w') : k.Keeps w w' := by
  cases k with
  | lifecycle | bridge | telemetry | settings | catalog | reader => exact Eq.trans h' h

/-- What writes nothing keeps to every share. -/
theorem keeps_of_shared (k : Component) (hs : w'.shared = w.shared) : k.Keeps w w' := by
  cases k with
  | lifecycle | bridge | telemetry => exact Client.offConnection_of_shared hs
  | settings => exact Client.offSettings_of_shared hs
  | catalog => exact Client.offCatalog_of_shared hs
  | reader => exact hs

/-- A change outside the settings and the catalog leaves both alone. -/
theorem offConnection_of_holds {s : Share} {f : Session → Session} (hf : s.Holds f)
    (hs : s ≠ .settings) (hc : s ≠ .catalog) (x : Session) :
    (f x).settings = x.settings ∧ (f x).catalog = x.catalog ∧ (f x).favorites = x.favorites := by
  cases s with
  | connection => exact hf x
  | statistics =>
    rw [hf x]
    exact ⟨rfl, rfl, rfl⟩
  | settings => exact absurd rfl hs
  | catalog => exact absurd rfl hc
  | line | bridges => exact hf.elim

/-- A change of the session that stays within a share of the component leaves all the others as they
are. -/
theorem keeps_update {s : Share} {f : Session → Session} (hs : s ∈ k.shares) (hf : s.Holds f)
    (w : Client) : k.Keeps w (w.update f) := by
  have hsession : (w.update f).session = f w.session := Client.session_update w f
  have hswitch : (w.update f).killSwitch = w.killSwitch :=
    congrArg Core.killSwitch (Client.core_update w f)
  -- component by component: the part of the session that was changed is one of its own
  cases k with
  | lifecycle | bridge | telemetry =>
    obtain ⟨hsettings, hcatalog, hfavorites⟩ := offConnection_of_holds hf
      (fun he => absurd (he ▸ hs) (by decide)) (fun he => absurd (he ▸ hs) (by decide)) w.session
    show (w.update f).offConnection = w.offConnection
    rw [Client.offConnection, hsession, hswitch, hsettings, hcatalog, hfavorites]
    rfl
  | settings =>
    cases List.mem_singleton.1 hs
    show (w.update f).offSettings = w.offSettings
    rw [Client.offSettings, hsession, hf w.session]
    rfl
  | catalog =>
    cases List.mem_singleton.1 hs
    show (w.update f).offCatalog = w.offCatalog
    rw [Client.offCatalog, hsession, hswitch, hf w.session]
    rfl
  | reader => cases hs

/-- Only who works on the connection tells the kill switch of the tunnel, which does not turn it. -/
theorem keeps_killSwitch (hs : .connection ∈ k.shares)
    (h : w'.session = w.session) (he : w'.killSwitch.enabled = w.killSwitch.enabled) :
    k.Keeps w w' := by
  cases k with
  | lifecycle | bridge | telemetry =>
    show w'.offConnection = w.offConnection
    rw [Client.offConnection, h, he]
    rfl
  | settings | catalog | reader => exact absurd hs (by decide)

end Component

namespace Client

variable {k : Component} {w w' : Client} {t : TaskId} {c c' : Option OpenCall} {δ : List Deal}

/-! ## Work -/

/-- Every effect keeps to the shares of the component that it works for. -/
theorem Effect.keeps (h : Effect t k.shares w w') : k.Keeps w w' := by
  cases h with
  | edit hs hf => exact Component.keeps_update hs hf w
  | raise hs | lower hs => exact Component.keeps_killSwitch hs rfl rfl
  | turn on hs =>
    cases k with
    | settings => exact rfl
    | lifecycle | bridge | telemetry | catalog | reader => exact absurd hs (by decide)
  | say | request | enlist | delist | disarm | requestWrites | bridge =>
    exact k.keeps_of_shared rfl
  | release | withdraw | cancel | start | stop | arm | releaseWrites | withdrawWrites | wake =>
    exact k.keeps_of_shared (shared_of_core (by simp) (by simp))

/-- All work with the shares of a component keeps what is not the component's. The backend is in
nobody's share, so calls and answers need no case of their own. -/
theorem Work.keeps (h : Work t k.shares w c δ w' c') : k.Keeps w w' := by
  induction h with
  | refl => exact .refl k _
  | effect h _ ih => exact h.keeps.trans ih
  | called _ _ ih | answered _ _ _ ih =>
    refine Component.Keeps.trans ?_ ih
    exact k.keeps_of_shared rfl
  | dropped _ ih => exact ih

/-- What tasks wait for is no part of the session. -/
theorem Effect.shared {shares : List Share} (h : Effect t shares w w')
    (hs : shares ⊆ [.line, .bridges]) : w'.shared = w.shared := by
  cases h with
  | edit hm hf =>
    rcases List.mem_pair.1 (hs hm) with rfl | rfl
    · exact hf.elim
    · exact hf.elim
  | raise hm | lower hm | turn _ hm => exact absurd (hs hm) (by decide)
  | say | request | enlist | delist | disarm | requestWrites | bridge => rfl
  | release | withdraw | cancel | start | stop | arm | releaseWrites | withdrawWrites | wake =>
    exact shared_of_core (by simp) (by simp)

/-- Work that has no share of the session writes nothing. -/
theorem Work.shared {shares : List Share} (h : Work t shares w c δ w' c')
    (hs : shares ⊆ [.line, .bridges]) : w'.shared = w.shared := by
  induction h with
  | refl => rfl
  | effect h _ ih => exact ih.trans (h.shared hs)
  | called _ _ ih | answered _ _ _ ih | dropped _ ih => exact ih

/-- Writing where a task stands leaves the session alone. -/
theorem TurnEnds.keeps {polls : Prop} (h : TurnEnds t k.shares polls w c δ w') : k.Keeps w w' := by
  obtain ⟨v, task, hr, hw, -⟩ := h.turn
  refine hr.work.keeps.trans (k.keeps_of_shared ?_)
  rw [hw]
  rfl

end Client

end TunnelSession
