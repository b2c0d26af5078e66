/-
  What a daemon leaves behind.

  LINES.  Between two lines the client rests and its bridge takes triggers (`Daemon.Listens`); the
  outlook after a line is that after the request that the line asks for.  Time may pass between two
  lines, in which only pollers have turns: they change the statistics, and not the outlook.

  EXIT.  The bridge is closed first, which leaves the connection as it is.  Then the daemon hangs up
  if the session says that the tunnel is up.  A connect that the backend refuses does not touch the
  tunnel, but the session no longer says that it is up: a daemon whose last request was refused
  leaves the tunnel up that an earlier request brought up.
-/
import TunnelSession.Daemon.Basic
import TunnelSession.Proofs.Driving
import TunnelSession.Proofs.Listening

namespace TunnelSession

/-- A line was read. -/
def Outlook.hear (o : Outlook) (text : String) : Outlook :=
  match Trigger.parse (Text.trim text) with
  | some e => o.meet Server.defaults e
  | none => o

/-- The daemon has started. -/
def Outlook.start (config : Config) : Outlook :=
  if config.settings.autoConnect then Outlook.down.obey Server.defaults .quickConnect else .down

/-- The daemon has hung up, if it did: after a failure it does not. -/
def Outlook.left (o : Outlook) : Outlook := if o.failed then o else .down

namespace Daemon

open Client

variable {w : Client} {b : BridgeId} {d : Daemon} {o : Outlook} {config : Config}

/-! ## Between two lines -/

/-- A daemon between two lines. -/
structure Listens (d : Daemon) (o : Outlook) : Prop where
  reading : d.reading = true
  client : Client.Listens d.bridge o d.client

theorem restsAgain_reportStatus (h : w.Rested) (hs : w.Displays o) :
    RestsAgain w o (reportStatus w) := by
  obtain ⟨reply, v, hv, he⟩ := h.perform_status hs
  unfold reportStatus
  rw [hv]
  cases reply <;> exact he.log _

theorem restsAgain_reportVersion (h : w.Rested) (hs : w.Displays o) :
    RestsAgain w o (reportVersion w) ∧
      (reportVersion w).session.settings = w.session.settings := by
  obtain ⟨reply, v, hv, he, hsettings⟩ := h.perform_version hs
  unfold reportVersion
  rw [hv]
  cases reply <;> exact ⟨he.log _, hsettings⟩

theorem restsAgain_reportStart (h : w.Rested) (hs : w.Displays o) :
    RestsAgain w (w.afterStart o) (reportStart w) := by
  obtain ⟨reply, v, hv, he⟩ := h.perform_start hs
  unfold reportStart
  rw [hv]
  cases reply <;> exact he.log _

theorem rested_make (hc : config.telemetryInterval.toNat ≠ 0) (version : String) :
    (Client.make config (.make Server.defaults 0 version)).Rested :=
  ⟨⟨rfl, rfl, rfl, hc, rfl, nofun, nofun, rfl, rfl, List.nodup_nil, nofun⟩, rfl, rfl⟩

/-- A daemon that has started listens: the version and the start are through, and its bridge is
open. -/
theorem listens_start (hc : config.telemetryInterval.toNat ≠ 0) :
    Listens (start config) (Outlook.start config) := by
  have hmake := (rested_make hc Backend.builtinVersion).say .starting
  obtain ⟨hv, hsettings⟩ := restsAgain_reportVersion (o := .down) hmake ⟨⟨rfl, rfl⟩, rfl⟩
  have hstart := restsAgain_reportStart hv.rested hv.displays
  have hservers := hv.brief.servers
  have hafter : (reportVersion ((Client.make config
      (.make Server.defaults 0 Backend.builtinVersion)).say .starting)).afterStart .down =
        Outlook.start config := by
    unfold afterStart
    rw [hsettings, hservers]
    rfl
  rw [hafter] at hstart
  have hopened :=
    hstart.rested.listens_activate (hstart.brief.servers.trans hservers) hstart.displays
  unfold Daemon.start
  dsimp only
  generalize Client.activate _ = q at hopened ⊢
  obtain ⟨b, v⟩ := q
  exact ⟨rfl, hopened⟩

/-- A line that is a trigger has its effect before the next one. -/
theorem Listens.trigger (h : d.Listens o) (e : Trigger) :
    (d.trigger e).Listens (o.meet Server.defaults e) := by
  obtain ⟨v, hv, hsettled⟩ := h.client.trigger e
  have hshown := hsettled.setBridge (f := fun r => { r with pages := [] }) fun r hr =>
    ⟨hr.pages [], rfl, rfl⟩
  unfold Daemon.trigger
  rw [hv]
  exact ⟨h.reading, hshown.log _⟩

/-- A line that is read changes the outlook as its text says: a trigger, the status, or nothing. -/
theorem Listens.line (h : d.Listens o) (text : String) : (d.line text).Listens (o.hear text) := by
  have hblank : Trigger.parse "" = none := by decide +kernel
  have hstatus : Trigger.parse "status" = none := by decide +kernel
  have hlive : (!d.reading) = false := by rw [h.reading]; rfl
  unfold Daemon.line Outlook.hear
  dsimp only
  rw [hlive, Bool.false_or]
  -- an empty line is passed over
  by_cases hempty : Text.trim text = ""
  · rw [if_pos (decide_eq_true hempty), hempty, hblank]
    exact h
  · rw [if_neg (fun he => hempty (of_decide_eq_true he))]
    -- the word for the status is no trigger
    by_cases hword : Text.trim text = "status"
    · rw [if_pos hword, hword, hstatus]
      exact ⟨h.reading, h.client.restsAgain
        (restsAgain_reportStatus h.client.rested h.client.displays)⟩
    · rw [if_neg hword]
      cases Trigger.parse (Text.trim text) with
      | some e => exact h.trigger e
      | none => exact ⟨h.reading, h.client.log _⟩

/-- Pollers look while time passes, and nothing else happens. -/
theorem Listens.elapse (h : d.Listens o) (ms : Nat) : (d.elapse ms).Listens o :=
  ⟨h.reading, h.client.restsAgain (h.client.rested.sleep h.client.displays ms)⟩

/-- The outlook is that after the lines alone. -/
theorem Listens.inputs (h : d.Listens o) (inputs : List Input) :
    (inputs.foldl take d).Listens ((inputs.filterMap Input.line?).foldl Outlook.hear o) := by
  induction inputs generalizing d o with
  | nil => exact h
  | cons input inputs ih =>
    rw [List.foldl_cons]
    cases input with
    | line text =>
      rw [List.filterMap_cons_some (show Input.line? (.line text) = some text from rfl),
        List.foldl_cons]
      exact ih (h.line text)
    | pause ms =>
      rw [List.filterMap_cons_none (show Input.line? (.pause ms) = none from rfl)]
      exact ih (h.elapse ms)

/-! ## The exit -/

/-- The bridge is closed, and the connection left as it is. -/
theorem rested_closeBridge (h : Client.Listens b o w) :
    (closeBridge w b).Rested ∧ (closeBridge w b).Displays o := by
  obtain ⟨r, ha⟩ := h.attends
  -- once the receiver has had its turn the bridge is not active any more
  have hstop : (!(w.deactivate b).settle.isActive b) = true := by
    rw [ha.isActive_settle h.rested.ready]
    rfl
  have hworker : (w.deaf b r).core.entry r.worker = some (.worker b none) :=
    (entry_setTask_of_ne _ _ ha.receiver_ne_worker).trans ha.worker
  have hrested : ((w.deaf b r).setTask r.worker (.ended .finished)).Rested :=
    ⟨(ha.instant_deaf h.rested.instant).setTask hworker _, h.rested.ready, h.rested.free⟩
  have hdisplays : ((w.deaf b r).setTask r.worker (.ended .finished)).Displays o :=
    h.displays.congr rfl rfl
  unfold closeBridge
  rw [runUntil_of_stop (fun w => !w.isActive b) hstop, ha.settle_deactivate h.rested.ready]
  exact ⟨hrested.say _, hdisplays.congr rfl rfl⟩

/-- A connection that is up is torn down; after a failure nothing is done. -/
theorem rested_hangUp (h : w.Rested) (hs : w.Displays o) :
    (hangUp w).Rested ∧ (hangUp w).Displays o.left := by
  have hstate := hs.state
  obtain ⟨server, failed⟩ := o
  unfold hangUp Outlook.left
  rw [hstate]
  cases failed with
  -- the last request failed: the session says neither that the tunnel is up nor that it is coming
  | true => exact ⟨h, hs⟩
  | false =>
    cases server with
    | none => exact ⟨h, hs⟩
    | some server =>
      obtain ⟨reply, v, hv, he⟩ := h.perform_disconnect
      have hup : ((⟨some server, false⟩ : Outlook).state.isConnected ||
          (⟨some server, false⟩ : Outlook).state.isTransitioning) = true := rfl
      rw [hv, if_pos hup, if_neg Bool.false_ne_true]
      cases reply <;> exact ⟨(he.log _).rested, (he.log _).displays⟩

/-- What a daemon displays that has stopped: closing the bridge first changes nothing of it. -/
theorem Listens.displays_stop (h : d.Listens o) : d.stop.Displays o.left := by
  obtain ⟨hclosed, hs⟩ := rested_closeBridge h.client
  obtain ⟨hrested, hleft⟩ := rested_hangUp hclosed hs
  exact ((restsAgain_reportStatus hrested hleft).log _).displays

/-- When a daemon has exited, whatever lines it read and however much time passed between them, the
session and the backend agree about the server.  There is none, unless the last request of all the
lines was refused: then the daemon did not hang up, and a tunnel that was up before that request
still is. -/
theorem left_behind (config : Config) (h : config.validate = .ok ()) (inputs : List Input) :
    let o := (inputs.filterMap Input.line?).foldl Outlook.hear (Outlook.start config)
    let w := runInputs config inputs
    w.session.server = (if o.failed then o.server else none) ∧
      w.backend.connectedServer = w.session.server.map (·.id) ∧
      w.session.state = if o.failed then .error else .disconnected := by
  intro o w
  have hcreate : Client.create config (.make Server.defaults 0 Backend.builtinVersion) =
      .ok (.make config (.make Server.defaults 0 Backend.builtinVersion)) := by
    unfold Client.create
    rw [h]
  have hw : w.Displays o.left :=
    ((listens_start (create_eq hcreate).2).inputs inputs).displays_stop
  obtain ⟨⟨hserver, htunnel⟩, hstate⟩ := hw
  refine ⟨?_, by rw [hserver]; exact htunnel, ?_⟩
  · rw [hserver]
    unfold Outlook.left
    split <;> rfl
  · rw [hstate]
    unfold Outlook.left Outlook.state
    cases hf : o.failed <;> simp [hf, Outlook.down]

/-- A connect to a server that nobody knows, while the tunnel is up and after looks at it. -/
theorem left_behind_refused :
    let inputs : List Input := [.line "connect-request:de-fra-1", .pause 2500,
      .line "connect-request:nope", .pause 1]
    let o := (inputs.filterMap Input.line?).foldl Outlook.hear (Outlook.start .default)
    let w := runInputs .default inputs
    o.failed = true ∧ o.server.map (·.id) = some "de-fra-1" ∧ w.session.server = o.server ∧
      w.backend.connectedServer = some "de-fra-1" ∧ w.session.state = .error := by
  have hall := left_behind .default rfl [.line "connect-request:de-fra-1", .pause 2500,
    .line "connect-request:nope", .pause 1]
  have ho : (["connect-request:de-fra-1", "connect-request:nope"].foldl Outlook.hear
      (Outlook.start .default)).failed = true := by decide +kernel
  have hid : (["connect-request:de-fra-1", "connect-request:nope"].foldl Outlook.hear
      (Outlook.start .default)).server.map (·.id) = some "de-fra-1" := by decide +kernel
  dsimp only [List.filterMap, Input.line?] at hall ⊢
  rw [ho] at hall
  obtain ⟨hserver, htunnel, hstate⟩ := hall
  refine ⟨ho, hid, hserver, ?_, hstate⟩
  rw [htunnel, hserver]
  exact hid

/-- A daemon that exits does not always take the tunnel down: it does not even try after a connect
that was refused. -/
theorem not_always_down :
    ¬ ∀ (config : Config) (lines : List String), config.validate = .ok () →
      (∀ e, .shutdownFailed e ∉ (runLines config lines).log) →
        (runLines config lines).backend.connectedServer = none ∧
          (runLines config lines).session.server = none := by
  intro hall
  have hnone : ((runLines .default
      ["connect-request:de-fra-1", "connect-request:nope"]).log.all fun x =>
        match x with
        | .shutdownFailed _ => false
        | _ => true) = true := by decide +kernel
  have hup : (runLines .default
      ["connect-request:de-fra-1", "connect-request:nope"]).backend.connectedServer =
        some "de-fra-1" := by decide +kernel
  have hdown := (hall .default ["connect-request:de-fra-1", "connect-request:nope"] rfl
    fun e he => nomatch List.all_eq_true.1 hnone _ he).1
  rw [hup] at hdown
  cases hdown

end Daemon

end TunnelSession
