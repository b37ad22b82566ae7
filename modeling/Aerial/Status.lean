import Aerial.Axis
import Aerial.Degrees

/-! # What is known about a rotator

`Pointing` is the moving part of one axis: where it is and where it was told to
go. A `Status` is the moving part of both axes under the rotator's name; `Info`
adds what never changes, the limits of each axis. A `Change` says which axis moved
or was redirected and carries the status after it. -/

namespace Aerial

structure Pointing where
  heading : Degrees
  preset : Degrees
deriving DecidableEq, Inhabited

/-- At rest: the preset is the heading. -/
def Pointing.resting (a : Degrees) : Pointing := ⟨a, a⟩

structure Status where
  name : String
  azimuthOverlap : Bool
  pointing : PerAxis Pointing
deriving DecidableEq

structure Limits where
  available : Bool
  lowest : Degrees
  highest : Degrees
  stop : Degrees
deriving DecidableEq

namespace Limits

/-- Whether a heading may be commanded on this axis. -/
def allows (l : Limits) (a : Degrees) : Bool :=
  decide (l.lowest.val ≤ a.val ∧ a.val ≤ l.highest.val)

end Limits

structure Info where
  name : String
  azimuthOverlap : Bool
  limits : PerAxis Limits
  pointing : PerAxis Pointing
deriving DecidableEq

namespace Info

def status (i : Info) : Status := ⟨i.name, i.azimuthOverlap, i.pointing⟩

end Info

structure Change where
  axis : Axis
  status : Status
deriving DecidableEq

end Aerial
