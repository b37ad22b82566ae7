import Aerial.Wire.Cell

/-! # Requests on the wire

An order is written with its filled fields only, and all of them are optional when it
is read. A request is read as an order that must stand for some command, which is
checked before anything after the order is looked at. -/

namespace Aerial.Wire
open Aerial.Json

def orderRecord : Record Cell Order where
  title := "RequestWire"
  members := [optionalDegreesMember "azimuth", optionalDegreesMember "elevation",
    flagMember "stopAzimuth", flagMember "stopElevation", flagMember "stop"]
  optional := true
  assemble get := .ok {
    azimuth := Cell.optionalHeading (get "azimuth")
    elevation := Cell.optionalHeading (get "elevation")
    stopAzimuth := Cell.optionalFlag (get "stopAzimuth")
    stopElevation := Cell.optionalFlag (get "stopElevation")
    stop := Cell.optionalFlag (get "stop") }

def readRequest (s : Octets) : Except ReadError (Request × Octets) := do
  let (o, rest) ← orderRecord.read s
  match o.request? with
  | some r => pure (r, rest)
  | none => throw (.unfit .noCommand)

def decodeOrder (s : Octets) : Except ReadError Order := decode orderRecord.read s

def decodeRequest (s : Octets) : Except ReadError Request := decode readRequest s

/-- A heading that is written only if it is given. -/
def headingField (key : String) : Option Degrees → List (String × Octets)
  | some a => [(key, Octets.ofInt a.val)]
  | none => []

/-- A flag that is written only if it is raised. -/
def flagField (key : String) : Bool → List (String × Octets)
  | true => [(key, writeFlag true)]
  | false => []

def writeOrder (o : Order) : Octets :=
  writeObject (headingField "azimuth" o.azimuth ++ headingField "elevation" o.elevation
    ++ flagField "stopAzimuth" o.stopAzimuth ++ flagField "stopElevation" o.stopElevation
    ++ flagField "stop" o.stop)

def writeRequest (r : Request) : Octets := writeOrder r.order

end Aerial.Wire
