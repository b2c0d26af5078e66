/-
  Changes of the settings.

  ORDER.  One change at a time: a change holds the settings from reading them to writing them, so
  none is lost.

  COMMIT.  The backend has the last word.  A patch takes effect when the backend has saved the
  result; a flag takes the value that the backend acknowledges, which is reported if it is not the
  requested one.  On an error nothing changes.
-/
import TunnelSession.Client.Calls

namespace TunnelSession

/-- The value of a flag. -/
def Settings.flag (s : Settings) : Flag → Bool
  | .killSwitch => s.killSwitch
  | .autoConnect => s.autoConnect

/-- Set a flag. -/
def Settings.setFlag (s : Settings) (value : Bool) : Flag → Settings
  | .killSwitch => { s with killSwitch := value }
  | .autoConnect => { s with autoConnect := value }

namespace Client

/-- A change failed: give back the settings. -/
def failWrite (w : Client) (e : BackendError) : Client × Progress Writing Reply :=
  (w.releaseWrites, .done (.failed (.backend e)))

/-- The backend answered a patch. -/
def saved (w : Client) (merged : Settings) :
    Except BackendError Unit → Client × Progress Writing Reply
  | .ok () =>
    let w := (w.update fun s => { s with settings := merged }).setKillSwitch merged.killSwitch
    ((w.say (.settingsUpdated merged.protocol)).releaseWrites, .done (.saved merged))
  | .error e => w.failWrite e

/-- The backend answered a toggle. -/
def toggled (w : Client) (flag : Flag) (requested : Bool) :
    Except BackendError Bool → Client × Progress Writing Reply
  | .ok value =>
    let w := if value = requested then w else w.say (.flagKept flag value)
    let w := w.update fun s => { s with settings := s.settings.setFlag value flag }
    let w := if flag = .killSwitch then w.setKillSwitch value else w
    ((w.say (.flagSet flag value)).releaseWrites, .done (.toggled value))
  | .error e => w.failWrite e

/-- A change holds the settings. -/
def beginWrite (w : Client) (t : TaskId) : Write → Client × Progress Writing Reply
  | .patch p =>
    let merged := p.apply w.session.settings
    match w.startCall t (.save merged) with
    | (w, .waiting call) => (w, .waiting (.saving merged call))
    | (w, .done answer) => w.saved merged answer
  | .toggle flag =>
    -- the value now, not when the toggle was asked for
    let requested := !w.session.settings.flag flag
    match w.startCall t (.toggle flag requested) with
    | (w, .waiting call) => (w, .waiting (.toggling flag requested call))
    | (w, .done answer) => w.toggled flag requested answer

/-- Ask for a change. -/
def requestWrite (w : Client) (t : TaskId) (write : Write) : Client × Progress Writing Reply :=
  let w := { w with writes := w.writes.request t }
  if w.writes.isHeldBy t then w.beginWrite t write else (w, .waiting (.queued write))

/-- Go on with a change. -/
def resumeWrite (w : Client) (t : TaskId) : Writing → Client × Progress Writing Reply
  | .queued write =>
    if w.writes.isHeldBy t then w.beginWrite t write else (w, .waiting (.queued write))
  | .saving merged call =>
    match w.resumeCall t call with
    | (w, .waiting call) => (w, .waiting (.saving merged call))
    | (w, .done answer) => w.saved merged answer
  | .toggling flag requested call =>
    match w.resumeCall t call with
    | (w, .waiting call) => (w, .waiting (.toggling flag requested call))
    | (w, .done answer) => w.toggled flag requested answer

/-- Drop a change where it waits. -/
def dropWrite (w : Client) (t : TaskId) : Writing → Client
  | .queued _ => w.withdrawWrites t
  | .saving .. => (w.disarm t).releaseWrites
  | .toggling .. => (w.disarm t).releaseWrites

end Client

end TunnelSession
