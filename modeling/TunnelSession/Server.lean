/-
  Servers a tunnel can be brought up to.

  RECORD.  Nine fields in a fixed order; the latency is optional and the features may be left out.
  A server read from a document may claim any load of a byte; one that is built has a load of at
  most 100 (`withLoad`).

  RANK.  Servers compare by load first and latency second; a server that does not know its latency
  counts as the slowest (`rank`).
-/
import TunnelSession.Json.Basic
import TunnelSession.Protocol

namespace TunnelSession

/-- A server. -/
structure Server where
  id : String
  name : String
  country : String
  city : String
  load : UInt8
  latency : Option UInt32
  features : List String
  address : String
  protocol : Protocol
  deriving DecidableEq, Repr

namespace Server

/-- A server without load, features or a known latency. -/
def make (id name country city address : String) : Server :=
  ⟨id, name, country, city, 0, none, [], address, .wireguard⟩

instance : Inhabited Server := ⟨make "" "" "" "" ""⟩

/-- Set the load in percent. -/
def withLoad (s : Server) (load : UInt8) : Server := { s with load := min load 100 }

/-- Set the latency in milliseconds. -/
def withLatency (s : Server) (latency : UInt32) : Server := { s with latency := some latency }

/-- Add a feature. -/
def withFeature (s : Server) (feature : String) : Server :=
  { s with features := s.features ++ [feature] }

/-- Set the protocol. -/
def withProtocol (s : Server) (protocol : Protocol) : Server := { s with protocol := protocol }

/-- Does the server have the feature? -/
def hasFeature (s : Server) (feature : String) : Bool := s.features.contains feature

/-- City and country. -/
def location (s : Server) : String := s.city ++ ", " ++ s.country

/-- The latency that an unknown one counts as. -/
def unknownLatency : Nat := UInt32.size - 1

/-- What servers are compared by. -/
def rank (s : Server) : Nat × Nat :=
  (s.load.toNat, match s.latency with
    | some latency => latency.toNat
    | none => unknownLatency)

/-- Is the first rank strictly below the second, load before latency? -/
def rankLt (a b : Nat × Nat) : Bool := decide (a.1 < b.1) || (a.1 == b.1 && decide (a.2 < b.2))

/-- The best of a server and those after it; of equals, the first. -/
def bestFrom : Server → List Server → Server
  | best, [] => best
  | best, s :: rest => bestFrom (if rankLt s.rank best.rank then s else best) rest

/-- The server of the lowest rank, the first of equals. -/
def best? : List Server → Option Server
  | [] => none
  | s :: rest => some (bestFrom s rest)

/-- The first server with an id. -/
def find? (id : String) (servers : List Server) : Option Server := servers.find? (·.id == id)

/-! ## Written form -/

/-- Names of the fields, in order. -/
def fieldNames : List String :=
  ["id", "name", "country", "city", "load", "latency_ms", "features", "address", "protocol"]

/-- Read a server. -/
def read {V : Type} [Datum V] (v : V) : Option Server := do
  match ← Datum.slots fieldNames v with
  | [id, name, country, city, load, latency, features, address, protocol] =>
    some {
      id := ← Datum.required Datum.text id
      name := ← Datum.required Datum.text name
      country := ← Datum.required Datum.text country
      city := ← Datum.required Datum.text city
      load := ← Datum.required Datum.byte load
      latency := ← Datum.optional Datum.word32 latency
      features := ← Datum.orElse [] (Datum.listOf Datum.text) features
      address := ← Datum.required Datum.text address
      protocol := ← Datum.required Protocol.read protocol }
  | _ => none

/-- The values of the fields, in order. -/
def fieldValues (s : Server) : List Json :=
  [.text s.id, .text s.name, .text s.country, .text s.city, .nat s.load.toNat,
    .ofOption (fun l => .nat l.toNat) s.latency, .list .text s.features, .text s.address,
    .text s.protocol.name]

/-- The server as an object. -/
def toJson (s : Server) : Json := .record (fieldNames.zip s.fieldValues)

/-- The built-in list. -/
def defaults : List Server :=
  [(make "us-east-1" "New York #1" "US" "New York" "192.169.69.1:51820").withLoad 12
      |>.withLatency 38 |>.withFeature "streaming",
    (make "us-west-1" "Los Angeles #1" "US" "Los Angeles" "192.169.70.1:51820").withLoad 41
      |>.withLatency 72,
    (make "de-fra-1" "Frankfurt #1" "DE" "Frankfurt" "185.186.78.1:51820").withLoad 27
      |>.withLatency 21 |>.withFeature "p2p",
    (make "uk-lon-1" "London #1" "UK" "London" "178.62.1.1:51820").withLoad 55
      |>.withLatency 24,
    (make "nl-ams-1" "Amsterdam #1" "NL" "Amsterdam" "185.107.56.1:51820").withLoad 33
      |>.withLatency 19 |>.withFeature "p2p",
    (make "jp-tyo-1" "Tokyo #1" "JP" "Tokyo" "103.231.88.1:1194").withLoad 64
      |>.withLatency 182 |>.withProtocol .openvpn,
    (make "sg-sin-1" "Singapore #1" "SG" "Singapore" "139.180.1.1:443").withLoad 48
      |>.withLatency 160 |>.withProtocol .stealth]

end Server

end TunnelSession
