import Aerial.Connection
import Aerial.Rotator

/-! # The log of a station

Every noteworthy event is a value; `LogEvent.line` writes it down. Which details a
line shows depends on who reads it, and `LogStyle` says so. -/

namespace Aerial

inductive Transport where
  | tcp
  | websocket
deriving DecidableEq, Repr

def Transport.name : Transport → String
  | tcp => "tcp"
  | websocket => "websocket"

abbrev ClientId := Nat

inductive LogEvent where
  | connected (t : Transport) (client : ClientId)
  | disconnected (t : Transport) (client : ClientId)
  | replacing (t : Transport)
  | executing (client : ClientId) (request : Request)
  | dropping (client : ClientId)
  | refused (client : ClientId) (request : Request) (why : Refusal)
  | readFailed (t : Transport) (client : ClientId) (fault : Fault)
  | writeFailed (t : Transport) (client : ClientId) (fault : Fault)
  | pumpLagged (missed : Nat)
  | pumpStopped
  | described (name : String)
  | streamOpened
  | undecodable
  | streamFailed
  | streamClosed
deriving DecidableEq

/-- What the lines of a log show besides the events themselves. -/
structure LogStyle where
  clients : Bool
  readFaults : Bool
  transportCauses : Bool

namespace LogEvent

def line (style : LogStyle) (e : LogEvent) : String :=
  let tag (c : ClientId) : String := if style.clients then s!" client={c}" else ""
  match e with
  | connected t c => s!"INFO client connected transport={t.name}{tag c}"
  | disconnected t c => s!"INFO client disconnected transport={t.name}{tag c}"
  | replacing t => s!"DEBUG replacing stale registration transport={t.name}"
  | executing c r => s!"DEBUG executing request{tag c} request={r.label}"
  | dropping c => s!"WARN dropping malformed request{tag c}"
  | refused c r why =>
    let cause := match why, style.transportCauses with
      | .transport _, false => ""
      | why, _ => s!" error={why.message}"
    s!"WARN request failed{tag c} request={r.label}{cause}"
  | readFailed t c fault =>
    let cause := if style.readFaults then s!" error={fault.message}" else ""
    s!"DEBUG client read failed transport={t.name}{tag c}{cause}"
  | writeFailed t c fault =>
    s!"WARN write failed, disconnecting client transport={t.name}{tag c} error={fault.message}"
  | pumpLagged n => s!"WARN broadcast pump lagged behind event bus lagged={n}"
  | pumpStopped => "DEBUG broadcast pump stopped"
  | described name => s!"INFO fetched remote rotator info name={name}"
  | streamOpened => "INFO connected to remote event stream"
  | undecodable => "WARN dropping undecodable remote event"
  | streamFailed => "WARN remote event stream failed"
  | streamClosed => "INFO remote event stream closed"

/-- Two failed writes on one transport belong to one pass, and the order of clients in a
pass means nothing. -/
def samePass : LogEvent → LogEvent → Bool
  | writeFailed t _ _, writeFailed u _ _ => decide (t = u)
  | _, _ => false

end LogEvent

/-- The lines of a log, with neighbouring failed writes of one transport in order. -/
def logLines (style : LogStyle) (log : List LogEvent) : List String :=
  (log.splitBy LogEvent.samePass).flatMap fun run =>
    (run.map (·.line style)).mergeSort fun a b => decide (a ≤ b)

end Aerial
