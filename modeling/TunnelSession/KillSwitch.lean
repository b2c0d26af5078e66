/-
  The kill switch.

  PROGRAM.  Two bits: is the switch on, and is the tunnel up.  Traffic is blocked exactly when the
  switch is on and the tunnel is not up.

  REPORTS.  Turning the switch reports a change only; the tunnel coming up is always reported, its
  going down only if that blocks traffic.
-/
import TunnelSession.Notice

namespace TunnelSession

/-- The kill switch. -/
structure KillSwitch where
  enabled : Bool
  tunnelUp : Bool
  deriving DecidableEq, Repr

/-- What the kill switch does. -/
inductive KillSwitch.State where
  | disabled
  | armed
  | blocking
  deriving DecidableEq, Repr

/-- The name. -/
def KillSwitch.State.name : KillSwitch.State → String
  | .disabled => "Disabled"
  | .armed => "Armed"
  | .blocking => "Blocking"

namespace KillSwitch

/-- A switch before any tunnel. -/
def make (enabled : Bool) : KillSwitch := ⟨enabled, false⟩

/-- A switch that was told nothing is on. -/
def default : KillSwitch := make true

/-- What the switch does. -/
def state (k : KillSwitch) : State :=
  if k.enabled then if k.tunnelUp then .armed else .blocking else .disabled

/-- Is traffic blocked? -/
def blocks (k : KillSwitch) : Bool := k.state == .blocking

/-- Is traffic allowed? -/
def allows (k : KillSwitch) : Bool := !k.blocks

/-- Turn the switch. -/
def setEnabled (k : KillSwitch) (on : Bool) : KillSwitch := { k with enabled := on }

/-- The report on turning the switch. -/
def setEnabledNotices (k : KillSwitch) (on : Bool) : List Notice :=
  if k.enabled = on then [] else [.killSwitchSet on]

/-- The tunnel came up. -/
def tunnelRaised (k : KillSwitch) : KillSwitch := { k with tunnelUp := true }

/-- The tunnel went down. -/
def tunnelLowered (k : KillSwitch) : KillSwitch := { k with tunnelUp := false }

/-- The report on the tunnel going down. -/
def tunnelLoweredNotices (k : KillSwitch) : List Notice :=
  if k.tunnelUp ∧ k.enabled then [.trafficBlocked] else []

theorem allows_iff (k : KillSwitch) : k.allows = true ↔ k.enabled = true → k.tunnelUp = true := by
  rcases k with ⟨_ | _, _ | _⟩ <;> decide

end KillSwitch

end TunnelSession
