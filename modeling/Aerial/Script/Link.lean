import Aerial.Link
import Aerial.Script.Bus
import Aerial.Station.Basic

/-! # Scripts on a link

A link whose other side is scripted. It may publish its changes on a bus with one
reader, and a local station may serve it to one client. -/

namespace Aerial.Script.Link

inductive Step where
  | frame (f : Frame)
  | request (r : Request)
  | info
  | accessors
  /-- A message of the local client. -/
  | client (payload : Octets)

inductive Result where
  | done
  | refused (why : Refusal)
  | info (i : Info)
  | accessors (i : Info)

structure Answer where
  result : Result
  frames : List Octets
  signal : Aerial.Link.Signal
  status : Status
  events : Option (List (Bus.Item Change))
  log : List LogEvent

structure State where
  station : Aerial.Station Aerial.Link
  bus : Tap
  log : List LogEvent

def start (l : Aerial.Link) (capacity : Option Nat) : State where
  station := .create l
  bus := .start capacity
  log := []

def State.absorb (s : State) : Effect → State
  | .logged e => { s with log := s.log ++ [e] }
  | .changed c => { s with bus := s.bus.publish [c] }
  | .wrote .. | .closed .. => s

def State.perform (s : State) (a : Aerial.Station.Action Aerial.Link) : State :=
  let (station, effects) := s.station.perform a
  effects.foldl absorb { s with station := station }

/-- The local client and its stream. -/
def client : ClientId := 0
def stream : StreamId := 0

def act (s : State) : Step → Result × State
  | .frame f =>
    let r := s.station.rotator.receive f
    (.done, { s with log := s.log ++ r.log }.perform (.turn fun _ => .accept r.link r.changes))
  | .request request =>
    (match (Rotator.execute s.station.rotator request).refusal with
      | none => .done
      | some why => .refused why,
      s.perform (.turn (Rotator.execute · request)))
  | .info => (.info s.station.rotator.info, s)
  | .accessors => (.accessors s.station.rotator.info, s)
  | .client payload =>
    let s := if (s.station.reader? stream).isSome then s
      else s.perform (.join .tcp client)
    (.done, s.perform (.message stream payload))

def step (s : State) (x : Step) : Answer × State :=
  let before := s.station.rotator
  let (result, s) := act s x
  let (events, bus) := s.bus.read
  ({ result := result
     frames := s.station.rotator.sent.drop before.sent.length
     signal := before.signal s.station.rotator
     status := Rotator.status s.station.rotator
     events := events
     log := s.log },
    { s with bus := bus, log := [] })

def run : State → List Step → List Answer
  | _, [] => []
  | s, x :: steps =>
    let (a, s) := step s x
    a :: run s steps

end Aerial.Script.Link
