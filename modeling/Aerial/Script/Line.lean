import Aerial.Bench
import Aerial.Script.Bus
import Aerial.Station.Basic

/-! # A line connection from beginning to end

One client connects over plain lines, is sent some statuses, writes its bytes in
segments and closes its side. The rotator may publish on a bus, which one reader
follows from the start. -/

namespace Aerial.Script.Line

structure Outcome where
  /-- The number of push lines that the client received. -/
  pushed : Nat
  removed : Bool
  status : Status
  log : List LogEvent
  events : Option (List (Bus.Item Change))

/-- The only client, on its only stream. -/
def client : ClientId := 0
def stream : StreamId := 0

/-- The whole connection as actions of the station. -/
def actions (pushes : List Status) (segments : List Octets) :
    List (Aerial.Station.Action Bench) :=
  .join .tcp client :: pushes.map (.push .tcp · fun _ => none)
    ++ (Inbound.ofSegments segments).map (Inbound.action stream)

def logOf : Effect → Option LogEvent
  | .logged e => some e
  | _ => none

def writeOf : Effect → Option Octets
  | .wrote _ payload => some payload
  | _ => none

def changeOf : Effect → Option Change
  | .changed c => some c
  | _ => none

def run (bench : Bench) (capacity : Option Nat) (pushes : List Status) (segments : List Octets) :
    Outcome :=
  let (station, trace) := (Aerial.Station.create bench).run (actions pushes segments)
  let changes := trace.filterMap changeOf
  { pushed := (trace.filterMap writeOf).length
    removed := station.clientCount .tcp = 0
    status := Rotator.status station.rotator
    log := trace.filterMap logOf
    events := ((Tap.start capacity).publish changes).read.1 }

end Aerial.Script.Line
