import Aerial.Octets

/-! # Connections

What comes over a connection, and what goes wrong on one. Stream clients send frames.
Plain clients send requests as lines: a connection delivers bytes in segments cut
anywhere, and `Framer` collects them into lines without their line feed. A line may
have up to 4096 bytes. A longer one ends the framing, whether or not its line feed has
arrived; what was unterminated at the end of the connection is a last line, unless it
is empty. -/

namespace Aerial

/-! ## Faults

A `Fault` ends one client's connection and nothing else. A `ListenError` ends a
listener, a `LinkError` prevents a link from being made. -/

inductive Fault where
  | io (cause : String)
  | websocket (cause : String)
  | lineTooLong (limit : Nat)
deriving DecidableEq

def Fault.message : Fault → String
  | io cause => s!"io error: {cause}"
  | websocket cause => s!"websocket error: {cause}"
  | lineTooLong limit => s!"command line longer than {limit} bytes"

inductive ListenError where
  | bind (address cause : String)
  | serve (cause : String)
deriving DecidableEq

def ListenError.message : ListenError → String
  | bind address cause => s!"failed to bind {address}: {cause}"
  | serve cause => s!"http server error: {cause}"

inductive LinkError where
  /-- The description could not be fetched or read. -/
  | noDescription
  | rotatorCount (count : Nat)
  /-- The event stream could not be opened. -/
  | noStream
deriving DecidableEq

/-- The wording of a link error, where it does not depend on the network. -/
def LinkError.message? : LinkError → Option String
  | rotatorCount count => some s!"expected information of 1 rotator, but got {count}"
  | noDescription | noStream => none

/-! ## Frames -/

inductive Frame where
  | text (bytes : Octets)
  | binary (bytes : Octets)
  /-- A ping or a pong. -/
  | control
  | close
  /-- The connection broke without a close frame, in good order or not. -/
  | broken (clean : Bool)
deriving DecidableEq

/-! ## Lines -/

/-- The most bytes a line may have. -/
def lineLimit : Nat := 4096

inductive Framer where
  /-- An unfinished line. -/
  | collecting (unfinished : Octets)
  | overrun

namespace Framer

/-- Cuts the lines off a buffer. The rest is a framer again. -/
def cut (buffer : Octets) : List Octets × Framer :=
  let line := buffer.takeWhile (· ≠ 10)
  if lineLimit < line.length then ([], .overrun)
  else
    match _h : buffer.dropWhile (· ≠ 10) with
    | [] => ([], .collecting line)
    | _ :: rest =>
      let (lines, framer) := cut rest
      (line :: lines, framer)
termination_by buffer.length
decreasing_by
  have shorter := (List.dropWhile_sublist (l := buffer) (· ≠ 10)).length_le
  rw [_h, List.length_cons] at shorter
  exact shorter

inductive Item where
  | line (bytes : Octets)
  | fault (f : Fault)
deriving DecidableEq

/-- The fault of a framer that was overrun. -/
def faults : Framer → List Item
  | collecting _ => []
  | overrun => [.fault (.lineTooLong lineLimit)]

def start : Framer := .collecting []

/-- A segment arrives. -/
def receive (f : Framer) (segment : Octets) : List Item × Framer :=
  match f with
  | .overrun => ([], .overrun)
  | .collecting unfinished =>
    let (lines, f) := cut (unfinished ++ segment)
    (lines.map .line ++ f.faults, f)

/-- The connection ends. -/
def finish : Framer → List Item
  | collecting [] => []
  | collecting unfinished => [.line unfinished]
  | overrun => []

/-- The items of a whole connection. -/
def items : Framer → (segments : List Octets) → List Item
  | f, [] => f.finish
  | f, segment :: segments =>
    let (now, f) := f.receive segment
    now ++ items f segments

end Framer

end Aerial
