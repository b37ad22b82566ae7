import Aerial.Request
import Aerial.Status

/-! # What every rotator offers

A rotator tells what it knows about itself, takes each of the five commands and
executes requests. A `Response` holds the rotator after a request, the refusal if there
was one, and the changes to announce, in order. Simulated and linked rotators are
instances alike, so the station does not know which one it serves. -/

namespace Aerial

inductive Refusal where
  | outOfRange (axis : Axis) (value lowest highest : Degrees)
  | axisUnavailable (axis : Axis)
  | transport (cause : String)
deriving DecidableEq

namespace Refusal

def message : Refusal → String
  | outOfRange axis value lowest highest =>
    s!"{axis.name} {value.val} out of range [{lowest.val}, {highest.val}]"
  | axisUnavailable axis => s!"rotator has no {axis.name} axis"
  | transport cause => s!"transport error: {cause}"

end Refusal

structure Response (ρ : Type) where
  refusal : Option Refusal
  rotator : ρ
  changes : List Change

namespace Response

variable {ρ σ : Type}

def accept (r : ρ) (changes : List Change) : Response ρ := ⟨none, r, changes⟩

def refuse (r : ρ) (why : Refusal) : Response ρ := ⟨some why, r, []⟩

/-- Goes on with `f` unless the request was refused. -/
def andThen (first : Response ρ) (f : ρ → Response ρ) : Response ρ :=
  match first.refusal with
  | some _ => first
  | none =>
    let second := f first.rotator
    { second with changes := first.changes ++ second.changes }

def map (f : ρ → σ) (r : Response ρ) : Response σ := ⟨r.refusal, f r.rotator, r.changes⟩

end Response

/-- A rotator takes each command by itself. -/
class Commands (ρ : Type) where
  setAzimuth : ρ → Degrees → Response ρ
  setElevation : ρ → Degrees → Response ρ
  stopAzimuth : ρ → Response ρ
  stopElevation : ρ → Response ρ
  stop : ρ → Response ρ

/-- Gives the one command that a request is for. -/
def Commands.dispatch {ρ : Type} [Commands ρ] (r : ρ) : Request → Response ρ
  | .setAzimuth a => setAzimuth r a
  | .setElevation e => setElevation r e
  | .stopAzimuth => stopAzimuth r
  | .stopElevation => stopElevation r
  | .stop => stop r

class Rotator (ρ : Type) extends Commands ρ where
  info : ρ → Info
  /-- Executes a request: by the command that it is for, unless the rotator has a way of
  its own. -/
  execute : ρ → Request → Response ρ := Commands.dispatch

namespace Rotator

def status {ρ : Type} [Rotator ρ] (r : ρ) : Status := (info r).status

end Rotator

end Aerial
