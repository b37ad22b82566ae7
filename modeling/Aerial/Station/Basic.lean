import Aerial.Connection
import Aerial.Notice
import Aerial.Station.Log
import Aerial.Wire.Notice
import Aerial.Wire.Request

/-! # The station

A station makes one rotator available to many clients. It knows who is registered
for pushes on which transport, and which inbound streams are still being read; these
are two lists, changed by different operations. Every operation answers with the
station after it and the effects it has on the world, in order: events logged, payloads
written, connections closed and changes announced by the rotator. An `Action` is an
operation as a value, so that whole runs of a station can be spoken of. -/

namespace Aerial

abbrev StreamId := Nat

/-- A client on a transport, with the inbound stream it came with. -/
structure Registration where
  transport : Transport
  client : ClientId
  stream : StreamId
deriving DecidableEq

inductive Effect where
  | logged (e : LogEvent)
  | wrote (client : ClientId) (payload : Octets)
  | closed (client : ClientId)
  | changed (c : Change)
deriving DecidableEq

structure Station (ρ : Type) where
  rotator : ρ
  /-- Who receives pushes, in order of registration. -/
  registered : List Registration
  /-- Whose inbound streams are read. -/
  reading : List Registration
  /-- How many streams there have been. They are numbered in this order. -/
  streams : Nat

namespace Station

variable {ρ : Type}

def create (r : ρ) : Station ρ := ⟨r, [], [], 0⟩

def holds (t : Transport) (c : ClientId) (r : Registration) : Bool :=
  decide (r.transport = t ∧ r.client = c)

def clientCount (s : Station ρ) (t : Transport) : Nat :=
  (s.registered.filter (·.transport = t)).length

/-- Registers a client with a new stream and starts reading it. A registration of the same
client on the same transport is replaced, and its stream is read no more. -/
def join (s : Station ρ) (t : Transport) (c : ClientId) : Station ρ × List Effect :=
  let fresh : Registration := ⟨t, c, s.streams⟩
  let stale := s.registered.filter (holds t c)
  ({ s with
      registered := s.registered.filter (!holds t c ·) ++ [fresh]
      reading := s.reading.filter (!stale.contains ·) ++ [fresh]
      streams := s.streams + 1 },
    stale.map (fun _ => .logged (.replacing t)) ++ [.logged (.connected t c)])

/-- Unregisters a client on a transport and closes its connection, which is harmless when
it was not registered. Its stream may still be read. -/
def leave (s : Station ρ) (t : Transport) (c : ClientId) : Station ρ × List Effect :=
  ({ s with registered := s.registered.filter (!holds t c ·) },
    .closed c :: if s.registered.any (holds t c) then [.logged (.disconnected t c)] else [])

/-- The registration under which a stream is read. -/
def reader? (s : Station ρ) (stream : StreamId) : Option Registration :=
  s.reading.find? (·.stream = stream)

/-- One message of a client. Blank messages mean nothing, others must be requests. -/
def dispatch [Rotator ρ] (s : Station ρ) (c : ClientId) (payload : Octets) :
    Station ρ × List Effect :=
  if payload.all Octets.isBlank then (s, [])
  else match Wire.decodeRequest payload with
    | .error _ => (s, [.logged (.dropping c)])
    | .ok request =>
      let r := Rotator.execute s.rotator request
      ({ s with rotator := r.rotator },
        .logged (.executing c request) :: r.changes.map .changed
          ++ r.refusal.toList.map fun why => .logged (.refused c request why))

/-- A message arrives on a stream. Nobody takes it if the stream is not read. -/
def message [Rotator ρ] (s : Station ρ) (stream : StreamId) (payload : Octets) :
    Station ρ × List Effect :=
  match s.reader? stream with
  | none => (s, [])
  | some r => s.dispatch r.client payload

/-- A stream ends, with a fault or without. Its client is removed from the transport the
stream was opened for. -/
def hangUp (s : Station ρ) (stream : StreamId) (fault : Option Fault) :
    Station ρ × List Effect :=
  match s.reader? stream with
  | none => (s, [])
  | some r =>
    let (after, effects) :=
      { s with reading := s.reading.filter (· ≠ r) }.leave r.transport r.client
    (after, fault.toList.map (fun f => .logged (.readFailed r.transport r.client f)) ++ effects)

/-- Writes a payload to every client of a transport. `failing` says whose write fails;
those clients are unregistered and closed after the pass. -/
def pass (s : Station ρ) (t : Transport) (payload : Octets) (failing : ClientId → Option Fault) :
    Station ρ × List Effect :=
  let audience := s.registered.filter (·.transport = t)
  let write (r : Registration) : Effect :=
    match failing r.client with
    | none => .wrote r.client payload
    | some f => .logged (.writeFailed t r.client f)
  let failed (r : Registration) : Bool := decide (r.transport = t) && (failing r.client).isSome
  ({ s with registered := s.registered.filter (!failed ·) },
    audience.map write ++ (audience.filter failed).map fun r => .closed r.client)

/-- What clients of a transport are sent for a status. -/
def payload (t : Transport) (status : Status) : Octets :=
  match t with
  | .tcp => status.pushLine
  | .websocket => status.headingNotice

/-- The rotator does something that no client asked for. -/
def turn (s : Station ρ) (f : ρ → Response ρ) : Station ρ × List Effect :=
  let r := f s.rotator
  ({ s with rotator := r.rotator }, r.changes.map .changed)

/-! ## Runs -/

inductive Action (ρ : Type) where
  | join (t : Transport) (c : ClientId)
  | leave (t : Transport) (c : ClientId)
  | message (stream : StreamId) (payload : Octets)
  | hangUp (stream : StreamId) (fault : Option Fault)
  | push (t : Transport) (status : Status) (failing : ClientId → Option Fault)
  | turn (f : ρ → Response ρ)

def perform [Rotator ρ] (s : Station ρ) : Action ρ → Station ρ × List Effect
  | .join t c => s.join t c
  | .leave t c => s.leave t c
  | .message stream payload => s.message stream payload
  | .hangUp stream fault => s.hangUp stream fault
  | .push t status failing => s.pass t (payload t status) failing
  | .turn f => s.turn f

/-- A run of actions, with all effects in order. -/
def run [Rotator ρ] : Station ρ → List (Action ρ) → Station ρ × List Effect
  | s, [] => (s, [])
  | s, a :: actions =>
    let (s, now) := s.perform a
    let (s, later) := run s actions
    (s, now ++ later)

end Station

/-! ## What clients send

The two transports deliver commands differently, as lines cut from segments and as
frames. For the station both come down to the same: messages on a stream, and the end
of it. -/

inductive Inbound where
  | message (payload : Octets)
  | ended (fault : Option Fault)
deriving DecidableEq

namespace Inbound

def ofItem : Framer.Item → Inbound
  | .line bytes => message bytes
  | .fault f => ended (some f)

/-- Control frames say nothing. What is logged of a broken connection is the `cause` that
is told by whoever has noticed it. -/
def ofFrame? (cause : String) : Frame → Option Inbound
  | .text bytes | .binary bytes => some (message bytes)
  | .control => none
  | .close => some (ended none)
  | .broken _ => some (ended (some (.websocket cause)))

/-- What it means for the station, when it comes in on this stream. -/
def action {ρ : Type} (stream : StreamId) : Inbound → Station.Action ρ
  | message payload => .message stream payload
  | ended fault => .hangUp stream fault

/-- All that a line connection with these segments brings, up to its end. -/
def ofSegments (segments : List Octets) : List Inbound :=
  (Framer.start.items segments).map ofItem ++ [ended none]

/-- All that a stream connection with these frames brings. -/
def ofFrames (cause : String) (frames : List Frame) : List Inbound :=
  frames.filterMap (ofFrame? cause)

end Inbound

end Aerial
