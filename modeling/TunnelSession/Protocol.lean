/-
  Tunnel protocols.

  NAMES.  A protocol has one written name, in lower case (`ofName?_name`).  `parse` is for people:
  it takes the name in any case, but no blanks around it.  ASCII case is enough, because no other
  character has a lower-case form that occurs in a name.
-/
import TunnelSession.Datum

namespace TunnelSession

/-- A tunnel protocol. -/
inductive Protocol where
  | wireguard
  | openvpn
  | stealth
  deriving DecidableEq, Repr

namespace Protocol

instance : Inhabited Protocol := ⟨.wireguard⟩

/-- The written name. -/
def name : Protocol → String
  | .wireguard => "wireguard"
  | .openvpn => "openvpn"
  | .stealth => "stealth"

/-- All protocols. -/
def all : List Protocol := [.wireguard, .openvpn, .stealth]

/-- The protocol of a written name. -/
def ofName? (s : String) : Option Protocol := all.find? (·.name == s)

/-- The protocol that a text names, in any case. -/
def parse (s : String) : Option Protocol := ofName? (String.ofList (s.toList.map Char.toLower))

/-- What is said of a text that names no protocol. -/
def unknownMessage (s : String) : String := "unknown protocol: " ++ s

/-- Read a protocol. -/
def read {V : Type} [Datum V] (v : V) : Option Protocol := (Datum.variant v).bind ofName?

theorem ofName?_name (p : Protocol) : ofName? p.name = some p := by
  cases p <;> decide

end Protocol

end TunnelSession
