import Aerial.Bus
import Aerial.Link
import Aerial.Simulator
import Aerial.Proofs.Chain.Record
import Mathlib.Logic.Function.Basic

/-! # Chains of stations

A chain is a row of stations. Normally the first serves a simulator and every other a
link to the station before it. What happens between announcing a change and writing it
to a client is not one step: changes wait to be published, the bus keeps them for the
pump, the pump passes each status on to one transport after the other, and frames are
under way to the next link. A `Level` is a station with all that waits there, and with
a record of what has happened at it. Steps of different levels come in any order; the
only order kept is that of each queue. Requests go the other way: the frames that a
link sends arrive as messages at the station before it. -/

namespace Aerial

/-! ## What a station of a chain serves -/

inductive Served where
  | source (s : Simulator)
  | mirror (l : Link)

namespace Served

def info : Served → Info
  | source s => s.info
  | mirror l => l.info

/-- Has the rotator do something that every rotator does. -/
def ask (f : ∀ {ρ : Type} [Rotator ρ], ρ → Response ρ) : Served → Response Served
  | source s => (f s).map source
  | mirror l => (f l).map mirror

def execute (v : Served) (r : Request) : Response Served := v.ask (Rotator.execute · r)

/-- Only a simulator moves by itself. -/
def move (m : Simulator.Move) : Served → Response Served
  | source s => (s.perform m).map source
  | mirror l => .accept (mirror l) []

/-- Only a link hears frames. -/
def hear (f : Frame) : Served → Response Served
  | source s => .accept (source s) []
  | mirror l => .accept (mirror (l.receive f).link) (l.receive f).changes

end Served

instance : Rotator Served where
  setAzimuth v a := v.ask (Commands.setAzimuth · a)
  setElevation v e := v.ask (Commands.setElevation · e)
  stopAzimuth v := v.ask Commands.stopAzimuth
  stopElevation v := v.ask Commands.stopElevation
  stop v := v.ask Commands.stop
  info := Served.info
  execute := Served.execute

/-- One command does what the request for it does: a simulator executes requests by its
commands, and a link sends both in the same form. -/
theorem Served.dispatch_eq_execute (v : Served) (r : Request) :
    Commands.dispatch v r = v.execute r := by
  cases v <;> cases r <;> rfl

/-! ## Levels -/

/-- What can happen at a station from outside, apart from the flow of changes. -/
inductive Deed where
  | join (t : Transport) (c : ClientId)
  | leave (t : Transport) (c : ClientId)
  | message (stream : StreamId) (payload : Octets)
  | hangUp (stream : StreamId) (fault : Option Fault)
  | request (r : Request)
  /-- The one command that a request is for. -/
  | command (r : Request)
  | move (m : Simulator.Move)

def Deed.action : Deed → Station.Action Served
  | join t c => .join t c
  | leave t c => .leave t c
  | message stream payload => .message stream payload
  | hangUp stream fault => .hangUp stream fault
  | request r => .turn (Rotator.execute · r)
  | command r => .turn (Commands.dispatch · r)
  | move m => .turn (Served.move m)

theorem Deed.command_action (r : Request) : (command r).action = (request r).action :=
  congrArg Station.Action.turn (funext fun v => v.dispatch_eq_execute r)

structure Level where
  station : Station Served
  /-- Changes announced and not yet published. -/
  unsaid : List Change
  /-- The pump of the station is its only reader. -/
  bus : Bus Unit Change
  /-- What the pump has read and not yet passed on. -/
  due : List (Transport × Status)
  /-- The registration of the next station's link. -/
  guest : Option Registration
  /-- Frames on the way to the guest. -/
  wire : List Frame
  /-- How many of the frames sent by the link of this station have arrived. -/
  carried : Nat
  record : Record

/-- What arrives at a client because of an effect. -/
def Effect.frameTo? (x : ClientId) : Effect → Option Frame
  | wrote c payload => if c = x then some (.binary payload) else none
  | closed c => if c = x then some .close else none
  | _ => none

namespace Level

/-- A station with nobody registered and nothing under way. -/
def fresh (v : Served) (capacity : Nat) : Level where
  station := .create v
  unsaid := []
  bus := (Bus.create capacity).subscribe ()
  due := []
  guest := none
  wire := []
  carried := 0
  record := []

def info (l : Level) : Info := l.station.rotator.info

def framesToGuest (l : Level) (es : List Effect) : List Frame :=
  match l.guest with
  | none => []
  | some g => es.filterMap (Effect.frameTo? g.client)

def perform (l : Level) (a : Station.Action Served) : Level :=
  let (station, effects) := l.station.perform a
  { l with
    station := station
    unsaid := l.unsaid ++ Effect.changes effects
    wire := l.wire ++ l.framesToGuest effects
    record := l.record ++ effects.map .effect }

def publish (l : Level) : Level :=
  match l.unsaid with
  | [] => l
  | c :: rest =>
    { l with unsaid := rest, bus := l.bus.publish c, record := l.record ++ [.published c] }

/-- The pump reads when it has passed on what it read before. -/
def pump (l : Level) : Level :=
  match l.due, l.bus.receive? () with
  | [], some (.item (.event c), bus) =>
    { l with
      bus := bus
      due := [(.tcp, c.status), (.websocket, c.status)]
      record := l.record ++ [.pumped c] }
  | [], some (.item (.lagged n), bus) =>
    { l with bus := bus, record := l.record ++ [.effect (.logged (.pumpLagged n))] }
  | _, _ => l

def pass (failing : ClientId → Option Fault) (l : Level) : Level :=
  match l.due with
  | [] => l
  | (t, s) :: rest =>
    perform { l with due := rest, record := l.record ++ [.passed t s] } (.push t s failing)

def handOver (l : Level) : Level :=
  match l.wire with
  | [] => l
  | f :: rest => { l with wire := rest, record := l.record ++ [.handed f] }

def hear (f : Option Frame) (l : Level) : Level :=
  match f with
  | none => l
  | some f => l.perform (.turn (Served.hear f))

/-- The next frame of the own link that has not arrived yet. -/
def outgoing? (l : Level) : Option Octets :=
  match l.station.rotator with
  | .source _ => none
  | .mirror m => m.sent[l.carried]?

def carry (l : Level) : Level :=
  match l.outgoing? with
  | none => l
  | some _ => { l with carried := l.carried + 1 }

/-- A frame of the guest arrives on its stream. -/
def obey (payload : Option Octets) (l : Level) : Level :=
  match l.guest, payload with
  | some g, some payload => l.perform (.message g.stream payload)
  | _, _ => l

end Level

/-! ## Runs -/

abbrev Chain (k : Nat) := Fin (k + 1) → Level

namespace Chain

variable {k : Nat}

inductive Step (k : Nat) where
  | deed (i : Fin (k + 1)) (d : Deed)
  | publish (i : Fin (k + 1))
  | pump (i : Fin (k + 1))
  | pass (i : Fin (k + 1)) (failing : ClientId → Option Fault)
  | deliver (i : Fin k)
  | forward (i : Fin k)

def step (c : Chain k) : Step k → Chain k
  | .deed i d => Function.update c i ((c i).perform d.action)
  | .publish i => Function.update c i (c i).publish
  | .pump i => Function.update c i (c i).pump
  | .pass i failing => Function.update c i ((c i).pass failing)
  | .deliver i =>
    Function.update (Function.update c i.castSucc (c i.castSucc).handOver) i.succ
      ((c i.succ).hear (c i.castSucc).wire.head?)
  | .forward i =>
    Function.update (Function.update c i.castSucc ((c i.castSucc).obey (c i.succ).outgoing?)) i.succ
      (c i.succ).carry

def run (c : Chain k) (steps : List (Step k)) : Chain k := steps.foldl step c

@[simp] theorem run_cons (c : Chain k) (s : Step k) (steps : List (Step k)) :
    c.run (s :: steps) = (c.step s).run steps := rfl

end Chain

end Aerial
