/-
  Client settings, and patches over them.

  RECORD.  Eight fields in a fixed order, every one with a default, so a settings record may leave
  out any of them.

  PATCH.  A patch has the same fields, each optional.  `Patch.apply` replaces the fields that are
  given, whole: a list or a set is not merged.  The empty patch changes nothing.
-/
import TunnelSession.Address.Parser
import TunnelSession.Address.Printer
import TunnelSession.Json.Basic
import TunnelSession.Protocol
import TunnelSession.Text.NameSet

namespace TunnelSession

open Text (NameSet)

/-- The settings of a client. -/
structure Settings where
  killSwitch : Bool
  autoConnect : Bool
  protocol : Protocol
  splitTunneling : Bool
  excludedApps : NameSet
  dnsServers : List Address
  startMinimized : Bool
  showNotifications : Bool
  deriving DecidableEq

/-- New values for some of the settings. -/
structure Patch where
  killSwitch : Option Bool
  autoConnect : Option Bool
  protocol : Option Protocol
  splitTunneling : Option Bool
  excludedApps : Option NameSet
  dnsServers : Option (List Address)
  startMinimized : Option Bool
  showNotifications : Option Bool
  deriving DecidableEq

namespace Settings

/-- The settings of a client that was told nothing. -/
def default : Settings where
  killSwitch := true
  autoConnect := false
  protocol := .wireguard
  splitTunneling := false
  excludedApps := .empty
  dnsServers := [.v4 ⟨1, 1, 1, 1⟩, .v4 ⟨9, 9, 9, 9⟩]
  startMinimized := false
  showNotifications := true

instance : Inhabited Settings := ⟨default⟩

/-- Names of the fields, in order. -/
def fieldNames : List String :=
  ["kill_switch", "auto_connect", "protocol", "split_tunneling", "excluded_apps", "dns_servers",
    "start_minimized", "show_notifications"]

/-- Read an address. -/
def readAddress {V : Type} [Datum V] (v : V) : Option Address := (Datum.text v).bind Address.parse

/-- Read a list of addresses. -/
def readAddresses {V : Type} [Datum V] : V → Option (List Address) := Datum.listOf readAddress

/-- Read a set of names. -/
def readNames {V : Type} [Datum V] (v : V) : Option NameSet :=
  (Datum.listOf Datum.text v).map .ofList

/-- Read settings; what is missing takes its default. -/
def read {V : Type} [Datum V] (v : V) : Option Settings := do
  match ← Datum.slots fieldNames v with
  | [killSwitch, autoConnect, protocol, splitTunneling, excludedApps, dnsServers, startMinimized,
      showNotifications] =>
    some {
      killSwitch := ← Datum.orElse default.killSwitch Datum.flag killSwitch
      autoConnect := ← Datum.orElse default.autoConnect Datum.flag autoConnect
      protocol := ← Datum.orElse default.protocol Protocol.read protocol
      splitTunneling := ← Datum.orElse default.splitTunneling Datum.flag splitTunneling
      excludedApps := ← Datum.orElse default.excludedApps readNames excludedApps
      dnsServers := ← Datum.orElse default.dnsServers readAddresses dnsServers
      startMinimized := ← Datum.orElse default.startMinimized Datum.flag startMinimized
      showNotifications := ← Datum.orElse default.showNotifications Datum.flag showNotifications }
  | _ => none

/-- A set of names as an array. -/
def namesJson (s : NameSet) : Json := .list .text s.toList

/-- Addresses as an array. -/
def addressesJson (l : List Address) : Json := .list (fun a => .text a.print) l

/-- The values of the fields, in order. -/
def fieldValues (s : Settings) : List Json :=
  [.bool s.killSwitch, .bool s.autoConnect, .text s.protocol.name, .bool s.splitTunneling,
    namesJson s.excludedApps, addressesJson s.dnsServers, .bool s.startMinimized,
    .bool s.showNotifications]

/-- The settings as an object. -/
def toJson (s : Settings) : Json := .record (fieldNames.zip s.fieldValues)

end Settings

namespace Patch

/-- The patch that gives nothing. -/
def empty : Patch := ⟨none, none, none, none, none, none, none, none⟩

instance : Inhabited Patch := ⟨empty⟩

/-- Does the patch give nothing? -/
def isEmpty (p : Patch) : Bool := p == empty

/-- The settings after a patch. -/
def apply (p : Patch) (s : Settings) : Settings where
  killSwitch := p.killSwitch.getD s.killSwitch
  autoConnect := p.autoConnect.getD s.autoConnect
  protocol := p.protocol.getD s.protocol
  splitTunneling := p.splitTunneling.getD s.splitTunneling
  excludedApps := p.excludedApps.getD s.excludedApps
  dnsServers := p.dnsServers.getD s.dnsServers
  startMinimized := p.startMinimized.getD s.startMinimized
  showNotifications := p.showNotifications.getD s.showNotifications

@[simp] theorem apply_empty (s : Settings) : empty.apply s = s := rfl

/-- Read a patch; what is missing or empty is not given. -/
def read {V : Type} [Datum V] (v : V) : Option Patch := do
  match ← Datum.slots Settings.fieldNames v with
  | [killSwitch, autoConnect, protocol, splitTunneling, excludedApps, dnsServers, startMinimized,
      showNotifications] =>
    some {
      killSwitch := ← Datum.optional Datum.flag killSwitch
      autoConnect := ← Datum.optional Datum.flag autoConnect
      protocol := ← Datum.optional Protocol.read protocol
      splitTunneling := ← Datum.optional Datum.flag splitTunneling
      excludedApps := ← Datum.optional Settings.readNames excludedApps
      dnsServers := ← Datum.optional Settings.readAddresses dnsServers
      startMinimized := ← Datum.optional Datum.flag startMinimized
      showNotifications := ← Datum.optional Datum.flag showNotifications }
  | _ => none

/-- The values of the fields, in order; `null` where nothing is given. -/
def fieldValues (p : Patch) : List Json :=
  [.ofOption .bool p.killSwitch, .ofOption .bool p.autoConnect,
    .ofOption (fun q => .text q.name) p.protocol, .ofOption .bool p.splitTunneling,
    .ofOption Settings.namesJson p.excludedApps, .ofOption Settings.addressesJson p.dnsServers,
    .ofOption .bool p.startMinimized, .ofOption .bool p.showNotifications]

/-- The patch as an object. -/
def toJson (p : Patch) : Json := .record (Settings.fieldNames.zip p.fieldValues)

end Patch

end TunnelSession
