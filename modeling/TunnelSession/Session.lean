/-
  What a client knows: the session.

  One record for the connection, the catalog and the settings.  The current server is that of the
  last successful connect and stays through errors; statistics belong to a connection that is up.
  Favorites and recently used servers are ids, shown as the servers of the catalog that have them.
-/
import TunnelSession.ConnectionState
import TunnelSession.Recents
import TunnelSession.Server
import TunnelSession.Settings
import TunnelSession.Stats

namespace TunnelSession

open Text (NameSet)

/-- The session. -/
structure Session where
  state : ConnectionState
  server : Option Server
  stats : Option Stats
  catalog : List Server
  favorites : NameSet
  recents : Recents
  settings : Settings
  deriving DecidableEq

namespace Session

/-- A session before its first connect. -/
def make (settings : Settings) : Session :=
  ⟨.disconnected, none, none, [], .empty, .empty, settings⟩

/-- The favorites, in the order of the catalog. -/
def favoriteServers (s : Session) : List Server :=
  s.catalog.filter fun v => decide (v.id ∈ s.favorites)

/-- The recently used servers that the catalog knows, the latest first. -/
def recentServers (s : Session) : List Server :=
  s.recents.ids.filterMap fun id => Server.find? id s.catalog

end Session

end TunnelSession
