/-
  External triggers.

  EVENTS.  A trigger asks to show a page, to connect (to a server, or to any) or to disconnect.

  TEXT.  `name` or `name:argument`.  `parse` drops blanks around the whole text and around the
  argument, which starts behind the first colon; an argument that a trigger needs is not empty,
  and one that it does not need is refused. `print` writes the text back.
-/
import TunnelSession.Text.Blank

namespace TunnelSession

/-- A request from outside the client. -/
inductive Trigger where
  | navigate (path : String)
  | quickConnect
  | disconnect
  | connect (id : String)
  deriving DecidableEq, Repr

namespace Trigger

/-- The name of the event. -/
def name : Trigger → String
  | .navigate _ => "navigate"
  | .quickConnect => "quick-connect-request"
  | .disconnect => "disconnect-request"
  | .connect _ => "connect-request"

/-- What the event is about. -/
def argument? : Trigger → Option String
  | .navigate path => some path
  | .connect id => some id
  | _ => none

/-- The text of an event. -/
def print (e : Trigger) : String :=
  match e.argument? with
  | some argument => e.name ++ ":" ++ argument
  | none => e.name

/-- The event of a name alone. -/
def ofName? (name : String) : Option Trigger :=
  if name = "quick-connect-request" then some .quickConnect
  else if name = "disconnect-request" then some .disconnect
  else none

/-- The event of a name and an argument that is not empty. -/
def ofParts? (name argument : String) : Option Trigger :=
  if argument = "" then none
  else if name = "navigate" then some (.navigate argument)
  else if name = "connect-request" then some (.connect argument)
  else none

/-- The event that a text asks for. -/
def parse (s : String) : Option Trigger :=
  let cs := Text.trimChars s.toList
  let name := String.ofList (cs.takeWhile (· != ':'))
  match cs.dropWhile (· != ':') with
  | [] => ofName? name
  | _ :: argument => ofParts? name (String.ofList (Text.trimChars argument))

example : parse " connect-request: a:b " = some (.connect "a:b") := by cbv
example : parse "disconnect-request:" = none := by cbv

end Trigger

end TunnelSession
