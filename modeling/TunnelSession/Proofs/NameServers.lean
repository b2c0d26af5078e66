/-
  The name servers of a client that runs.

  VALIDITY.  A configuration whose numbers and version are usable is valid if it has a name server
  (`validate_settings`).  That is looked at when the client is created, and never again.

  UPDATES.  A patch that is settled stores the name servers that it gives, an empty list like any
  other; a toggle leaves them alone, and so does a change that fails or is dropped
  (`dnsServers_store`).

  RESULT.  The name servers are those of the last update that gave some (`dnsServers_replay`).  So
  the settings of a client in flight are not always those of a valid configuration: they are not
  exactly if that update gave none (`accepted_after`).
-/
import TunnelSession.Proofs.Commits
import TunnelSession.Proofs.Driving

namespace TunnelSession

/-- The name servers that a change stores, if it was answered without a failure and gave any. -/
def Change.nameServers? (ch : Change) : Option (List Address) :=
  match ch.fate, ch.write with
  | .settled b, .patch p =>
    match b.failures.get .updateSettings with
    | [] => p.dnsServers
    | _ :: _ => none
  | _, _ => none

namespace Config

/-- What a valid configuration becomes with other settings: it is valid, or lacks a name server. -/
theorem validate_settings {c : Config} (hc : c.validate = .ok ()) (s : Settings) :
    { c with settings := s }.validate =
      if s.dnsServers = [] then .error (.invalid Fault.nameServers.message) else .ok () := by
  unfold validate fault? at hc ⊢
  -- the faults are looked for in order, and only the last one is about the settings
  by_cases hi : c.telemetryInterval = 0
  · rw [if_pos hi] at hc
    cases hc
  by_cases hq : c.triggerCapacity = 0
  · rw [if_neg hi, if_pos hq] at hc
    cases hc
  by_cases hv : (Text.trimChars c.versionFallback.toList).isEmpty = true
  · rw [if_neg hi, if_neg hq, if_pos hv] at hc
    cases hc
  dsimp only
  rw [if_neg hi, if_neg hq, if_neg hv]
  cases s.dnsServers <;> rfl

end Config

/-! ## Changes -/

@[simp] theorem Settings.dnsServers_setFlag (s : Settings) (value : Bool) (flag : Flag) :
    (s.setFlag value flag).dnsServers = s.dnsServers := by
  cases flag <;> rfl

/-- One change stores the name servers that it gives, or leaves them as they are. -/
theorem Change.dnsServers_store (ch : Change) (s : Store) :
    (ch.store s).settings.dnsServers = ch.nameServers?.getD s.settings.dnsServers := by
  obtain ⟨t, x, fate⟩ := ch
  cases fate with
  -- a change that was not settled stores nothing
  | pending | dropped => rfl
  | settled b =>
    show (x.settle b s).2.settings.dnsServers = _
    cases x with
    | patch p =>
      unfold Write.settle nameServers?
      dsimp only [Write.operation]
      cases b.failures.get .updateSettings <;> rfl
    | toggle flag =>
      unfold Write.settle
      cases b.failures.get (Write.toggle flag).operation with
      | nil => exact Settings.dnsServers_setFlag _ _ _
      | cons e rest => rfl

/-- The last change that gives name servers decides. -/
theorem dnsServers_replay (s : Store) (L : List Change) :
    (replay s L).settings.dnsServers =
      (L.filterMap Change.nameServers?).getLast?.getD s.settings.dnsServers := by
  induction L generalizing s with
  | nil => rfl
  | cons ch L ih =>
    rw [show replay s (ch :: L) = replay (ch.store s) L from rfl, ih, ch.dnsServers_store]
    cases hn : ch.nameServers? with
    | none => rw [List.filterMap_cons_none hn, Option.getD_none]
    | some given =>
      rw [List.filterMap_cons_some hn, List.getLast?_cons]
      rfl

/-! ## Runs -/

/-- Only a valid configuration makes a client. -/
theorem Client.validate_of_create {config : Config} {backend : Backend} {w : Client}
    (h : create config backend = .ok w) : config.validate = .ok () := by
  unfold create at h
  cases hv : config.validate with
  | ok _ => rfl
  | error e =>
    rw [hv] at h
    cases h

/-- At any point of any run of a client of a valid configuration, the name servers are those of the
last update that was answered without a failure and gave some, and those of the configuration if
there was none.  The configuration with the settings of that moment is valid, unless that update
gave an empty list; then it is refused for that. -/
theorem accepted_after (config : Config) (servers : List Server) (latency : Nat) (version : String)
    (start : Client)
    (hcreate : Client.create config (Backend.make servers latency version) = .ok start)
    (deeds : List Deed) :
    let settings := (start.doing deeds).session.settings
    let given := (start.changes [] deeds).filterMap Change.nameServers?
    settings.dnsServers = given.getLast?.getD config.settings.dnsServers ∧
    { config with settings }.validate =
      if given.getLast? = some [] then .error (.invalid Config.Fault.nameServers.message)
      else .ok () := by
  intro settings given
  obtain ⟨rfl, -⟩ := Client.create_eq hcreate
  have hvalid : config.validate = .ok () := Client.validate_of_create hcreate
  -- the configuration that the client was created with was accepted
  have hinitial : config.settings.dnsServers ≠ [] := by
    intro hnil
    have hself := Config.validate_settings hvalid config.settings
    rw [if_pos hnil] at hself
    cases hvalid.symm.trans hself
  obtain ⟨-, -, hlisted⟩ := Client.listed_changes
    (Client.sound_make config (Backend.prompt_make servers latency version))
    (Core.mirrors_make config _) (Core.listed_make config _) deeds
  have hservers : settings.dnsServers = given.getLast?.getD config.settings.dnsServers :=
    (congrArg (fun s : Store => s.settings.dnsServers) hlisted.store).trans
      (dnsServers_replay _ _)
  refine ⟨hservers, ?_⟩
  rw [Config.validate_settings hvalid, hservers]
  cases hlast : given.getLast? with
  | none => exact if_neg hinitial
  | some l => simp only [Option.getD_some, Option.some.injEq]

/-- The name servers are taken away; then an update that gives one fails, and a flag is toggled. -/
theorem accepted_after_emptied :
    let start := Client.make .default (Backend.make [] 5 "1")
    let deeds : List Deed := [
      .event (.call (.write (.patch { Patch.empty with dnsServers := some [] }))),
      .event (.pass 5), .event (.poll 0), .event (.fail .updateSettings (.rejected "no")),
      .event (.call (.write (.patch { Patch.empty with dnsServers := some [.v4 ⟨8, 8, 8, 8⟩] }))),
      .event (.call (.write (.toggle .killSwitch))), .event (.pass 5), .event (.poll 1),
      .event (.poll 2), .event (.pass 5), .event (.poll 2)]
    Client.create .default (Backend.make [] 5 "1") = .ok start ∧
    { Config.default with settings := (start.doing deeds).session.settings }.validate =
      .error (.invalid Config.Fault.nameServers.message) := by
  have hany : ∀ deeds : List Deed,
      ((Client.make .default (Backend.make [] 5 "1")).changes [] deeds).filterMap
        Change.nameServers? = [[]] →
      { Config.default with settings := ((Client.make .default (Backend.make [] 5 "1")).doing
        deeds).session.settings }.validate =
          .error (.invalid Config.Fault.nameServers.message) := by
    intro deeds hgiven
    refine (accepted_after .default [] 5 "1" _ rfl deeds).2.trans (if_pos ?_)
    rw [hgiven]
    rfl
  exact ⟨rfl, hany _ (by decide +kernel)⟩

/-- An update that gives an empty list is answered, and the settings are not accepted any more. -/
theorem not_always_accepted :
    ¬ ∀ (config : Config) (servers : List Server) (latency : Nat) (version : String)
      (start : Client), Client.create config (Backend.make servers latency version) = .ok start →
      ∀ deeds : List Deed,
        { config with settings := (start.doing deeds).session.settings }.validate = .ok () := by
  intro h
  have hempty := h .default [] 0 "1" _ rfl
    [.event (.call (.write (.patch { Patch.empty with dnsServers := some [] })))]
  cases hempty

end TunnelSession
