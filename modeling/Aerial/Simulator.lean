import Aerial.Rotator

/-! # The simulated rotator

A simulator needs no hardware: it keeps a pointing per axis and moves each heading
towards its preset, at most one step per tick. It changes by atomic moves. `steer` and
`halt` redirect one axis, `tick` moves both, and each reports exactly the axes it
touched, with the status after the whole move. A request is one of these moves, but
for the full stop, which halts the available axes one after the other. -/

namespace Aerial

/-- What a simulator is built from and never changes. -/
structure Profile where
  name : String
  limits : PerAxis Limits
  initial : PerAxis Degrees
  step : Degrees
deriving DecidableEq

namespace Profile

/-- A rotator with both axes, an overlapping azimuth, and nothing unusual. -/
def standard : Profile where
  name := "dummyRotator"
  limits := ⟨⟨true, 0, 450, 0⟩, ⟨true, 0, 180, 0⟩⟩
  initial := ⟨0, 0⟩
  step := 5

/-- The largest move of an axis in one tick. -/
def pace (p : Profile) : Int := max p.step.val 1

/-- An azimuth that reaches past the full circle overlaps. -/
def azimuthOverlap (p : Profile) : Bool := decide (360 < p.limits.azimuth.highest.val)

/-- Where an axis rests before any command. -/
def start (p : Profile) (axis : Axis) : Degrees :=
  (p.initial.get axis).within (p.limits.get axis).lowest (p.limits.get axis).highest

end Profile

structure Simulator where
  profile : Profile
  pointing : PerAxis Pointing
deriving DecidableEq

namespace Simulator

def create (p : Profile) : Simulator :=
  ⟨p, .resting (p.start .azimuth), .resting (p.start .elevation)⟩

def info (s : Simulator) : Info :=
  ⟨s.profile.name, s.profile.azimuthOverlap, s.profile.limits, s.pointing⟩

def status (s : Simulator) : Status := s.info.status

/-! ## Atomic moves -/

/-- Gives one axis a new preset. Nothing is announced if it had that preset. -/
def redirect (s : Simulator) (axis : Axis) (preset : Degrees) : Response Simulator :=
  let p := s.pointing.get axis
  if p.preset = preset then .accept s []
  else
    let after := { s with pointing := s.pointing.set axis { p with preset := preset } }
    .accept after [⟨axis, after.status⟩]

def steer (s : Simulator) (axis : Axis) (preset : Degrees) : Response Simulator :=
  let l := s.profile.limits.get axis
  if !l.available then .refuse s (.axisUnavailable axis)
  else if l.allows preset then s.redirect axis preset
  else .refuse s (.outOfRange axis preset l.lowest l.highest)

def halt (s : Simulator) (axis : Axis) : Response Simulator :=
  if (s.profile.limits.get axis).available then s.redirect axis (s.pointing.get axis).heading
  else .refuse s (.axisUnavailable axis)

/-- Moves both axes, whether or not they are available. -/
def tick (s : Simulator) : Response Simulator :=
  let move (p : Pointing) : Pointing :=
    { p with heading := p.heading.toward p.preset s.profile.pace }
  let after := { s with pointing := s.pointing.map move }
  let moved (axis : Axis) : Bool :=
    decide ((after.pointing.get axis).heading ≠ (s.pointing.get axis).heading)
  .accept after ((Axis.all.filter moved).map fun axis => ⟨axis, after.status⟩)

inductive Move where
  | steer (axis : Axis) (preset : Degrees)
  | halt (axis : Axis)
  | tick
deriving DecidableEq

def perform (s : Simulator) : Move → Response Simulator
  | .steer axis preset => s.steer axis preset
  | .halt axis => s.halt axis
  | .tick => s.tick

/-- The simulator after some moves, refused ones included, with all changes in order. -/
def run : Simulator → List Move → Simulator × List Change
  | s, [] => (s, [])
  | s, m :: moves =>
    let r := s.perform m
    let (after, changes) := run r.rotator moves
    (after, r.changes ++ changes)

/-! ## Requests -/

def haltIfAvailable (s : Simulator) (axis : Axis) : Response Simulator :=
  if (s.profile.limits.get axis).available then s.halt axis else .accept s []

/-- Halts the axes that are available, one after the other. -/
def stop (s : Simulator) : Response Simulator :=
  (s.haltIfAvailable .azimuth).andThen (·.haltIfAvailable .elevation)

instance : Rotator Simulator where
  setAzimuth s a := s.steer .azimuth a
  setElevation s e := s.steer .elevation e
  stopAzimuth s := s.halt .azimuth
  stopElevation s := s.halt .elevation
  stop := stop
  info := info

def execute (s : Simulator) (r : Request) : Response Simulator := Rotator.execute s r

theorem execute_eq_stop (s : Simulator) : s.execute .stop = s.stop := rfl

end Simulator

end Aerial
