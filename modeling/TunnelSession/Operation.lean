/-
  The operations of a backend, and tables with an entry for each of them.

  A table is a function on the nine operations that can be compared and printed; `get` and `set`
  are related by `get_set_self` and `get_set_ne`.
-/

namespace TunnelSession

/-- What a backend can be asked to do. -/
inductive Operation where
  | connect
  | disconnect
  | quickConnect
  | getServers
  | updateSettings
  | toggleKillSwitch
  | toggleAutoConnect
  | getStats
  | getVersion
  deriving DecidableEq, Repr

namespace Operation

/-- The name. -/
def name : Operation → String
  | .connect => "connect"
  | .disconnect => "disconnect"
  | .quickConnect => "quick_connect"
  | .getServers => "get_servers"
  | .updateSettings => "update_settings"
  | .toggleKillSwitch => "toggle_kill_switch"
  | .toggleAutoConnect => "toggle_auto_connect"
  | .getStats => "get_connection_stats"
  | .getVersion => "get_app_version"

/-- All operations, in order. -/
def all : List Operation :=
  [.connect, .disconnect, .quickConnect, .getServers, .updateSettings, .toggleKillSwitch,
    .toggleAutoConnect, .getStats, .getVersion]

/-- The operation of a name. -/
def ofName? (s : String) : Option Operation := all.find? (·.name == s)

theorem mem_all (op : Operation) : op ∈ all := by cases op <;> decide

theorem ofName?_name (op : Operation) : ofName? op.name = some op := by cases op <;> decide

/-- An entry for every operation. -/
structure Table (α : Type) where
  connect : α
  disconnect : α
  quickConnect : α
  getServers : α
  updateSettings : α
  toggleKillSwitch : α
  toggleAutoConnect : α
  getStats : α
  getVersion : α
  deriving DecidableEq, Repr

namespace Table

variable {α : Type}

/-- The same entry everywhere. -/
def const (a : α) : Table α := ⟨a, a, a, a, a, a, a, a, a⟩

/-- The entry of an operation. -/
def get (t : Table α) : Operation → α
  | .connect => t.connect
  | .disconnect => t.disconnect
  | .quickConnect => t.quickConnect
  | .getServers => t.getServers
  | .updateSettings => t.updateSettings
  | .toggleKillSwitch => t.toggleKillSwitch
  | .toggleAutoConnect => t.toggleAutoConnect
  | .getStats => t.getStats
  | .getVersion => t.getVersion

/-- Replace the entry of an operation. -/
def set (t : Table α) (op : Operation) (a : α) : Table α :=
  match op with
  | .connect => { t with connect := a }
  | .disconnect => { t with disconnect := a }
  | .quickConnect => { t with quickConnect := a }
  | .getServers => { t with getServers := a }
  | .updateSettings => { t with updateSettings := a }
  | .toggleKillSwitch => { t with toggleKillSwitch := a }
  | .toggleAutoConnect => { t with toggleAutoConnect := a }
  | .getStats => { t with getStats := a }
  | .getVersion => { t with getVersion := a }

@[simp] theorem get_const (a : α) (op : Operation) : (const a).get op = a := by cases op <;> rfl

@[simp] theorem get_set_self (t : Table α) (op : Operation) (a : α) : (t.set op a).get op = a := by
  cases op <;> rfl

theorem get_set_ne (t : Table α) {op other : Operation} (a : α) (h : other ≠ op) :
    (t.set op a).get other = t.get other := by
  cases op <;> cases other <;> first | rfl | exact absurd rfl h

end Table

end Operation

end TunnelSession
