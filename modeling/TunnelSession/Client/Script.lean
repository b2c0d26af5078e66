/-
  Scripted sessions on a virtual clock.

  STEPS.  A script drives one client: it gives commands and waits for them, or lets them run in
  the background under a name; it scripts the backend, moves the clock, opens and closes bridges,
  and looks at what is there.

  AN ANSWER PER STEP.  A step gives a `Result`, and what is seen once everything that can run at
  that instant has run (`View`), and the notices that were made meanwhile.
-/
import TunnelSession.Client.Schedule

namespace TunnelSession

/-- A step of a script. -/
inductive Script.Step where
  /-- Give a command and wait for its reply. -/
  | command (c : Command)
  /-- Give a command in the background, under a name. -/
  | go (name : String) (c : Command)
  | join (name : String)
  | abort (name : String)
  | fail (op : Operation) (e : BackendError)
  | pin (op : Operation) (value : Bool)
  | hold (op : Operation) (ms : Nat)
  | calls
  | tunnel
  | persisted
  | sleep (ms : Nat)
  /-- Look at publications from now on. -/
  | watch
  /-- Was anything published since the last look, and what is the state? -/
  | look
  | startPolling (ms : Nat)
  | stopPolling
  | openBridge
  | closeBridge
  | dropBridge
  | dropSender
  /-- Send triggers, with nothing else running in between. -/
  | send (texts : List String)
  | pages
  | dropPages

/-- What became of a text that was to be sent. -/
inductive Script.Sent where
  | unknown
  | noChannel
  | offered (o : Channel.Offer)
  deriving DecidableEq, Repr

/-- What a step gives. -/
inductive Script.Result where
  | nothing
  | reply (r : Reply)
  | aborted
  | noTask
  | calls (counts : Operation.Table Nat)
  | tunnel (server : Option String)
  | persisted (settings : Option Settings)
  | publication (changed : Bool) (state : ConnectionState)
  | sent (l : List Script.Sent)
  | pages (l : List String)

/-- A script on its way. -/
structure Script where
  client : Client
  /-- The commands in the background that were not joined. -/
  names : List (String × TaskId)
  /-- The last publication that was looked at. -/
  seen : Option Nat
  /-- The bridge that is open, the one that triggers are sent to, and the one whose pages are
  read. -/
  handle : Option BridgeId
  sender : Option BridgeId
  reader : Option BridgeId

/-- What is seen of a client. -/
structure View where
  now : Nat
  state : ConnectionState
  server : Option String
  stats : Option Stats
  recents : List String
  favorites : List String
  killSwitch : KillSwitch.State
  /-- Is a request on the connection running? -/
  busy : Bool
  polling : Bool
  bridge : Option Bool
  /-- The commands in the background that have ended, in the order of their names. -/
  ended : List String

namespace Script

/-- A script before its first step. -/
def make (client : Client) : Script := ⟨client, [], none, none, none, none⟩

/-- Change the client. -/
def on (s : Script) (f : Client → Client) : Script := { s with client := f s.client }

/-- Change the client, for a bridge if there is one. -/
def onBridge (s : Script) (b : Option BridgeId) (f : Client → BridgeId → Client) : Script :=
  match b with
  | some b => s.on (f · b)
  | none => s

/-- Send a text as a trigger. -/
def sendText (s : Script) (text : String) : Sent × Script :=
  match Trigger.parse text, s.sender with
  | none, _ => (.unknown, s)
  | some _, none => (.noChannel, s)
  | some e, some b =>
    let (o, client) := s.client.offerTrigger b e
    (.offered o, { s with client := client })

/-- Send texts, one after the other. -/
def sendTexts (s : Script) : List String → List Sent × Script
  | [] => ([], s)
  | text :: texts =>
    let (o, s) := s.sendText text
    let (os, s) := s.sendTexts texts
    (o :: os, s)

/-- Wait for a command in the background. -/
def joinTask (s : Script) (name : String) : Result × Script :=
  match s.names.lookup name with
  | none => (.noTask, s)
  | some t =>
    let client := s.client.runUntil (·.hasEnded t)
    let s := { s with client := client, names := s.names.filter (·.1 != name) }
    match client.task? t with
    | some (.ended (.replied r)) => (.reply r, s)
    | some (.ended .aborted) => (.aborted, s)
    | _ => (.nothing, s)

/-- Open a bridge; what there was of an earlier one is dropped. -/
def openNew (s : Script) : Script :=
  let (b, client) := s.client.activate
  let s' := { s with client := client }
  -- the new bridge is up before the old one is dropped
  let s' := s'.onBridge s.handle .deactivate
  let s' := s'.onBridge s.sender .dropSender
  let s' := s'.onBridge s.reader .dropPages
  { s' with handle := some b, sender := some b, reader := some b }

/-- Close the bridge and wait until its receiver has ended. -/
def closeOpen (s : Script) : Script :=
  match s.handle with
  | none => s
  | some b =>
    let client := (s.client.deactivate b).runUntil fun w => !w.isActive b
    { s with client := client.say .bridgeDeactivated, handle := none }

/-- Take a step. -/
def take (s : Script) : Step → Result × Script
  | .command c =>
    let (r, client) := s.client.perform c
    (r.elim .nothing .reply, { s with client := client })
  | .go name c =>
    let (t, client) := s.client.go c
    (.nothing, { s with client := client, names := (name, t) :: s.names.filter (·.1 != name) })
  | .join name => s.joinTask name
  | .abort name =>
    match s.names.lookup name with
    | some t => (.nothing, s.on (·.abort t))
    | none => (.nothing, s)
  | .fail op e => (.nothing, s.on fun w => { w with backend := w.backend.failNext op e })
  | .pin op value => (.nothing, s.on fun w => { w with backend := w.backend.pin op value })
  | .hold op ms => (.nothing, s.on fun w => { w with backend := w.backend.holdNext op ms })
  | .calls => (.calls s.client.backend.calls, s)
  | .tunnel => (.tunnel s.client.backend.connectedServer, s)
  | .persisted => (.persisted s.client.backend.persisted, s)
  | .sleep ms => (.nothing, s.on (·.sleep ms))
  | .watch => (.nothing, { s with seen := some s.client.version })
  | .look =>
    match s.seen with
    | none => (.nothing, s)
    | some seen =>
      (.publication (seen != s.client.version) s.client.published,
        { s with seen := some s.client.version })
  | .startPolling ms => (.nothing, s.on (·.startPolling ms))
  | .stopPolling => (.nothing, s.on (·.stopPolling))
  | .openBridge => (.nothing, s.openNew)
  | .closeBridge => (.nothing, s.closeOpen)
  | .dropBridge => (.nothing, { s.onBridge s.handle .deactivate with handle := none })
  | .dropSender => (.nothing, { s.onBridge s.sender .dropSender with sender := none })
  | .send texts =>
    let (os, s) := s.sendTexts texts
    (.sent os, s)
  | .pages =>
    match s.reader with
    | some b =>
      let (l, client) := s.client.takePages b
      (.pages l, { s with client := client })
    | none => (.pages [], s)
  | .dropPages => (.nothing, { s.onBridge s.reader .dropPages with reader := none })

/-- What is seen now. -/
def view (s : Script) : View where
  now := s.client.now
  state := s.client.session.state
  server := s.client.session.server.map (·.id)
  stats := s.client.session.stats
  recents := s.client.session.recents.ids
  favorites := s.client.session.favorites.toList
  killSwitch := s.client.killSwitch.state
  busy := s.client.transition.isHeld
  polling := s.client.isPolling
  bridge := s.handle.map s.client.isActive
  ended := (Text.NameSet.ofList ((s.names.filter fun n => s.client.hasEnded n.2).map (·.1))).toList

/-- Take a step and let everything happen that can happen at that instant.  The notices come in
order. -/
def step (s : Script) (p : Step) : (Result × View × List Notice) × Script :=
  let before := s.client.log.length
  let (r, s) := s.take p
  let s := s.on Client.settle
  ((r, s.view, (s.client.log.take (s.client.log.length - before)).reverse), s)

/-- Take the steps of a script. -/
def run (s : Script) : List Step → List (Result × View × List Notice)
  | [] => []
  | p :: ps =>
    let (a, s) := s.step p
    a :: s.run ps

end Script

end TunnelSession
