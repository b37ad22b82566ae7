import Aerial.Connection
import Aerial.Station.Log
import Aerial.Wire.Notice
import Aerial.Wire.Request

/-! # A link to a rotator elsewhere

A link stands in for the rotator of another station. It is seeded with one
description, follows the heading notices that arrive on an event stream, and sends
requests as frames over the same stream; its own requests change nothing until the
notices for them come back. When the stream is over, the link is done: it keeps its
last state and refuses requests. -/

namespace Aerial

/-- The answer to a request for the description. -/
inductive Fetched where
  | unreachable
  | page (code : Nat) (body : Octets)

structure Link where
  info : Info
  isOpen : Bool
  /-- The frames sent so far, oldest first. -/
  sent : List Octets
  /-- What the stream says to a write when it is over. -/
  farewell : String

namespace Link

/-- A link with this description and a stream that has just been opened. -/
def opened (i : Info) (farewell : String) : Link := ⟨i, true, [], farewell⟩

/-- The axes on which two pointings differ, azimuth first. -/
def changedAxes (before after : PerAxis Pointing) : List Axis :=
  Axis.all.filter fun axis => before.get axis ≠ after.get axis

/-- Takes over the headings and presets of a notice; name and limits stay. -/
def follow (l : Link) (n : Notice) : Link × List Change :=
  match n.kind with
  | .add | .remove => (l, [])
  | .heading =>
    let info := { l.info with pointing := n.status.pointing }
    ({ l with info := info },
      (changedAxes l.info.pointing info.pointing).map fun axis => ⟨axis, info.status⟩)

structure Reception where
  link : Link
  log : List LogEvent
  changes : List Change

/-- The stream is over. -/
def shut (l : Link) (log : List LogEvent) : Reception :=
  ⟨{ l with isOpen := false }, log ++ [.streamClosed], []⟩

def receiveNotice (l : Link) (bytes : Octets) : Reception :=
  match Wire.decodeNotice bytes with
  | .ok n => ⟨(l.follow n).1, [], (l.follow n).2⟩
  | .error _ => ⟨l, [.undecodable], []⟩

/-- A frame from the other station. After the stream is over frames have no effect. -/
def receive (l : Link) (f : Frame) : Reception :=
  if l.isOpen then
    match f with
    | .text bytes | .binary bytes => l.receiveNotice bytes
    | .control => ⟨l, [], []⟩
    | .close => l.shut []
    | .broken clean => l.shut (if clean then [] else [.streamFailed])
  else ⟨l, [], []⟩

def send (l : Link) (r : Request) : Response Link :=
  if l.isOpen then .accept { l with sent := l.sent ++ [Wire.writeRequest r] } []
  else .refuse l (.transport l.farewell)

def setAzimuth (l : Link) (a : Degrees) : Response Link := l.send (.setAzimuth a)

def setElevation (l : Link) (e : Degrees) : Response Link := l.send (.setElevation e)

def stopAzimuth (l : Link) : Response Link := l.send .stopAzimuth

def stopElevation (l : Link) : Response Link := l.send .stopElevation

def stop (l : Link) : Response Link := l.send .stop

/-- The signal that the stream is over. -/
inductive Signal where
  | pending
  | fired
  | spent
deriving DecidableEq

/-- How the signal stands at a step between two states of a link. -/
def signal (before after : Link) : Signal :=
  match before.isOpen, after.isOpen with
  | _, true => .pending
  | true, false => .fired
  | false, false => .spent

/-! ## Making a link -/

/-- A new link, or why there is none, with the pages asked for and the log. -/
structure Bootstrap where
  outcome : Except LinkError Link
  asked : List String
  log : List LogEvent

/-- The one rotator that the other station must describe. -/
def describe (f : Fetched) : Except LinkError Info :=
  match f with
  | .unreachable => .error .noDescription
  | .page code body =>
    if 400 ≤ code ∧ code < 600 then .error .noDescription
    else match Wire.decodeInfos body with
      | .error _ => .error .noDescription
      | .ok [info] => .ok info
      | .ok infos => .error (.rotatorCount infos.length)

/-- Fetches the description, then opens the event stream, if the other side offers one. How
the stream words its farewell is its own affair. -/
def connect (f : Fetched) (offersStream : Bool) (farewell : String := "stream closed") :
    Bootstrap :=
  let first := match f with
    | .unreachable => []
    | .page .. => ["/info"]
  match describe f with
  | .error why => ⟨.error why, first, []⟩
  | .ok info =>
    let fetched : LogEvent := .described info.name
    if offersStream then
      ⟨.ok (.opened info farewell), first ++ ["/ws"], [fetched, .streamOpened]⟩
    else ⟨.error .noStream, first ++ ["/ws"], [fetched]⟩

end Link

/-- A link sends a request as it is, and each command as its request. -/
instance : Rotator Link where
  setAzimuth := Link.setAzimuth
  setElevation := Link.setElevation
  stopAzimuth := Link.stopAzimuth
  stopElevation := Link.stopElevation
  stop := Link.stop
  info := Link.info
  execute := Link.send

end Aerial
