import Aerial.Bench
import Aerial.Bus
import Aerial.Station.Basic

/-! # Scripts on a station

The station serves a simulated rotator to clients that live in memory: a `Peer` is the
far end of one client, which records what it is sent and can be told to fail. Inbound
messages are worked off before the broadcast pumps see the changes they cause, and
every step ends when nothing is left to do. -/

namespace Aerial.Script.Station

structure Peer where
  /-- Payloads received in the present step, oldest first. -/
  frames : List Octets
  /-- Close calls in the present step. -/
  closes : Nat
  /-- After so many more writes, writes fail. -/
  failure : Option (Nat × Fault)
  /-- Its streams in order, and whether they can still be sent on. -/
  streams : List (StreamId × Bool)

namespace Peer

def fresh : Peer := ⟨[], 0, none, []⟩

/-- Why a write to this peer would fail now. -/
def fault? (p : Peer) : Option Fault :=
  match p.failure with
  | some (0, f) => some f
  | _ => none

def take (p : Peer) (payload : Octets) : Peer :=
  { p with
    frames := p.frames ++ [payload]
    failure := p.failure.map fun (n, f) => (n - 1, f) }

/-- A stream by its number, the latest without one. -/
def stream? (p : Peer) (number : Option Nat) : Option (StreamId × Bool) :=
  match number with
  | some n => p.streams[n]?
  | none => p.streams.getLast?

def endStream (p : Peer) (stream : StreamId) : Peer :=
  { p with streams := p.streams.map fun s => if s.1 = stream then (s.1, false) else s }

end Peer

inductive Message where
  | bytes (payload : Octets)
  | fault (f : Fault)

inductive Step where
  | add (client : ClientId) (t : Transport) (inbound : List Message) (ends : Bool)
  | send (client : ClientId) (messages : List Message) (stream : Option Nat)
  | hangUp (client : ClientId) (stream : Option Nat)
  | remove (client : ClientId) (t : Transport)
  | fail (client : ClientId) (failure : Option (Nat × Fault))
  | broadcast (transports : List Transport) (status : Status)
  | pump
  | publish (changes : List Change)
  | closeBus
  | request (r : Request)
  | advance (ms times : Nat)

inductive Result where
  | done
  | refused (why : Refusal)
  | taken (each : List Bool)
  | noStream
  | whether (b : Bool)
  | audiences (readers : List Nat)
  | noBus

structure Answer where
  result : Result
  tcp : Nat
  websocket : Nat
  frames : List (ClientId × List Octets)
  closed : List (ClientId × Nat)
  status : Status
  log : List LogEvent

structure State where
  station : Aerial.Station Bench
  bus : Option (Bus Nat Change)
  /-- Whether the rotator publishes on the bus. -/
  attached : Bool
  /-- Whether the script itself still holds the bus. -/
  held : Bool
  /-- The running pumps are readers of the bus, numbered as they were started. -/
  pumps : List Nat
  started : Nat
  peers : List (ClientId × Peer)
  log : List LogEvent

def start (p : Profile) (interval : Nat) (capacity : Option Nat) (attached : Bool) : State where
  station := .create (.create p interval)
  bus := capacity.map Bus.create
  attached := attached
  held := capacity.isSome
  pumps := []
  started := 0
  peers := []
  log := []

namespace State

def peer (s : State) (c : ClientId) : Peer := (s.peers.lookup c).getD .fresh

def setPeer (s : State) (c : ClientId) (p : Peer) : State :=
  { s with peers := s.peers.filter (·.1 ≠ c) ++ [(c, p)] }

/-- One effect of the station on peers, bus and log. -/
def absorb (s : State) : Effect → State
  | .logged e => { s with log := s.log ++ [e] }
  | .wrote c payload => s.setPeer c ((s.peer c).take payload)
  | .closed c => s.setPeer c { s.peer c with closes := (s.peer c).closes + 1 }
  | .changed change => if s.attached then { s with bus := s.bus.map (·.publish change) } else s

/-- One action of the station, with its effects carried out. -/
def perform (s : State) (a : Aerial.Station.Action Bench) : State :=
  let (station, effects) := s.station.perform a
  effects.foldl absorb { s with station := station }

/-- Pushes a status on one transport after the other. -/
def broadcast (s : State) (transports : List Transport) (status : Status) : State :=
  transports.foldl (fun s t => s.perform (.push t status fun c => (s.peer c).fault?)) s

/-- One item that a pump got from the bus. -/
def pumpItem (s : State) : Bus.Item Change → State
  | .event c => s.broadcast [.tcp, .websocket] c.status
  | .lagged n => { s with log := s.log ++ [.pumpLagged n] }

/-- One pump works off what it has not read, and stops when the bus is closed. -/
def runPump (s : State) (pump : Nat) : State :=
  match s.bus.bind (·.drain? pump) with
  | none => s
  | some (items, bus) =>
    let s := items.foldl pumpItem { s with bus := some bus }
    if bus.isOpen then s
    else { s with
      bus := s.bus.map (·.unsubscribe pump)
      pumps := s.pumps.filter (· ≠ pump)
      log := s.log ++ [.pumpStopped] }

/-- Runs until nothing is left to do. -/
def settle (s : State) : State := s.pumps.foldl runPump s

def deliver (stream : StreamId) (s : State) : Message → State
  | .bytes payload => s.perform (.message stream payload)
  | .fault f => s.perform (.hangUp stream (some f))

def advanceTimes (ms : Nat) : Nat → State → State
  | 0, s => s
  | n + 1, s => advanceTimes ms n (s.perform (.turn (·.advance ms))).settle

end State

open State in
/-- A step without the idle run after it. -/
def act (s : State) : Step → Result × State
  | .add c t inbound ends =>
    let stream := s.station.streams
    let p := s.peer c
    let s := s.setPeer c { p with streams := p.streams ++ [(stream, !ends)] }
    let s := inbound.foldl (deliver stream) (s.perform (.join t c))
    (.done, if ends then s.perform (.hangUp stream none) else s)
  | .send c messages number =>
    match (s.peer c).stream? number with
    | some (stream, true) =>
      let read := (s.station.reader? stream).isSome
      (.taken (messages.map fun _ => read), messages.foldl (deliver stream) s)
    | _ => (.noStream, s)
  | .hangUp c number =>
    match (s.peer c).stream? number with
    | some (stream, true) =>
      let s := s.setPeer c ((s.peer c).endStream stream)
      (.whether true, s.perform (.hangUp stream none))
    | _ => (.whether false, s)
  | .remove c t => (.done, s.perform (.leave t c))
  | .fail c failure => (.done, s.setPeer c { s.peer c with failure := failure })
  | .broadcast transports status => (.done, s.broadcast transports status)
  | .pump =>
    if s.held then
      (.done, { s with
        bus := s.bus.map (·.subscribe s.started)
        pumps := s.pumps ++ [s.started]
        started := s.started + 1 })
    else (.noBus, s)
  | .publish changes =>
    match s.held, s.bus with
    | true, some b =>
      (.audiences (changes.map fun _ => b.audience), { s with bus := some (b.publishAll changes) })
    | _, _ => (.noBus, s)
  | .closeBus =>
    (.whether s.held, { s with
      held := false
      bus := if s.attached then s.bus else s.bus.map (·.close) })
  | .request r =>
    (match (Rotator.execute s.station.rotator r).refusal with
      | none => .done
      | some why => .refused why,
      s.perform (.turn (Rotator.execute · r)))
  | .advance ms times => (.done, s.advanceTimes ms times)

/-- The answer to a step that has run until idle. -/
def answer (s : State) (result : Result) : Answer where
  result := result
  tcp := s.station.clientCount .tcp
  websocket := s.station.clientCount .websocket
  frames := (s.peers.map fun (c, p) => (c, p.frames)).filter (!·.2.isEmpty)
  closed := (s.peers.map fun (c, p) => (c, p.closes)).filter (·.2 ≠ 0)
  status := Rotator.status s.station.rotator
  log := s.log

/-- The records of a step are taken away with its answer. -/
def clear (s : State) : State :=
  { s with
    peers := s.peers.map fun (c, p) => (c, { p with frames := [], closes := 0 })
    log := [] }

def step (s : State) (x : Step) : Answer × State :=
  let (result, s) := act s x
  let s := s.settle
  (answer s result, clear s)

def run : State → List Step → List Answer
  | _, [] => []
  | s, x :: steps =>
    let (a, s) := step s x
    a :: run s steps

end Aerial.Script.Station
