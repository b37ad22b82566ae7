import Aerial.Degrees

/-! # Requests and orders

A `Request` is one command to a rotator. On the wire it travels as an `Order`,
a form whose filled fields act: `Order.request?` picks the single command that
a form stands for, and `Request.order` fills in exactly one field. -/

namespace Aerial

inductive Request where
  | setAzimuth (heading : Degrees)
  | setElevation (heading : Degrees)
  | stopAzimuth
  | stopElevation
  | stop
deriving DecidableEq

structure Order where
  azimuth : Option Degrees
  elevation : Option Degrees
  stopAzimuth : Bool
  stopElevation : Bool
  stop : Bool
deriving DecidableEq

namespace Order

def blank : Order := ⟨none, none, false, false, false⟩

/-- Stops win over moves, the full stop over the others, azimuth over elevation. -/
def request? (o : Order) : Option Request :=
  if o.stop then some .stop
  else if o.stopAzimuth then some .stopAzimuth
  else if o.stopElevation then some .stopElevation
  else match o.azimuth, o.elevation with
    | some a, _ => some (.setAzimuth a)
    | none, some e => some (.setElevation e)
    | none, none => none

end Order

namespace Request

def order : Request → Order
  | setAzimuth a => { Order.blank with azimuth := some a }
  | setElevation e => { Order.blank with elevation := some e }
  | stopAzimuth => { Order.blank with stopAzimuth := true }
  | stopElevation => { Order.blank with stopElevation := true }
  | stop => { Order.blank with stop := true }

theorem request?_order (r : Request) : r.order.request? = some r := by
  cases r <;> rfl

/-- The name of a request in logs: `SetAzimuth(5)`, `StopElevation`. -/
def label : Request → String
  | setAzimuth a => s!"SetAzimuth({a.val})"
  | setElevation e => s!"SetElevation({e.val})"
  | stopAzimuth => "StopAzimuth"
  | stopElevation => "StopElevation"
  | stop => "Stop"

end Request

end Aerial
