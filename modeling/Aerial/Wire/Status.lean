import Aerial.Wire.Cell

/-! # Statuses and descriptions on the wire -/

namespace Aerial.Wire
open Aerial.Json

def statusRecord : Record Cell Status where
  title := "Status"
  members := [textMember "name", degreesMember "azimuth", degreesMember "azPreset",
    flagMember "azimuthOverlap", degreesMember "elevation", degreesMember "elPreset"]
  optional := false
  assemble get := do
    let name ← need get "name" Cell.text?
    let azimuth ← need get "azimuth" Cell.heading?
    let azPreset ← need get "azPreset" Cell.heading?
    let overlap ← need get "azimuthOverlap" Cell.flag?
    let elevation ← need get "elevation" Cell.heading?
    let elPreset ← need get "elPreset" Cell.heading?
    pure ⟨name, overlap, ⟨azimuth, azPreset⟩, ⟨elevation, elPreset⟩⟩

def writeStatus (s : Status) : Octets :=
  writeObject [
    ("name", writeText s.name),
    ("azimuth", Octets.ofInt s.pointing.azimuth.heading.val),
    ("azPreset", Octets.ofInt s.pointing.azimuth.preset.val),
    ("azimuthOverlap", writeFlag s.azimuthOverlap),
    ("elevation", Octets.ofInt s.pointing.elevation.heading.val),
    ("elPreset", Octets.ofInt s.pointing.elevation.preset.val)]

def infoRecord : Record Cell Info where
  title := "Info"
  members := [textMember "name", flagMember "hasAzimuth", flagMember "hasElevation",
    degreesMember "azimuthMin", degreesMember "azimuthMax", degreesMember "azimuthStop",
    flagMember "azimuthOverlap",
    degreesMember "elevationMin", degreesMember "elevationMax", degreesMember "elevationStop",
    degreesMember "azimuth", degreesMember "azPreset",
    degreesMember "elevation", degreesMember "elPreset"]
  optional := false
  assemble get := do
    let name ← need get "name" Cell.text?
    let hasAzimuth ← need get "hasAzimuth" Cell.flag?
    let hasElevation ← need get "hasElevation" Cell.flag?
    let azimuthMin ← need get "azimuthMin" Cell.heading?
    let azimuthMax ← need get "azimuthMax" Cell.heading?
    let azimuthStop ← need get "azimuthStop" Cell.heading?
    let overlap ← need get "azimuthOverlap" Cell.flag?
    let elevationMin ← need get "elevationMin" Cell.heading?
    let elevationMax ← need get "elevationMax" Cell.heading?
    let elevationStop ← need get "elevationStop" Cell.heading?
    let azimuth ← need get "azimuth" Cell.heading?
    let azPreset ← need get "azPreset" Cell.heading?
    let elevation ← need get "elevation" Cell.heading?
    let elPreset ← need get "elPreset" Cell.heading?
    pure {
      name := name
      azimuthOverlap := overlap
      limits := ⟨⟨hasAzimuth, azimuthMin, azimuthMax, azimuthStop⟩,
        ⟨hasElevation, elevationMin, elevationMax, elevationStop⟩⟩
      pointing := ⟨⟨azimuth, azPreset⟩, ⟨elevation, elPreset⟩⟩ }

def writeInfo (i : Info) : Octets :=
  writeObject [
    ("name", writeText i.name),
    ("hasAzimuth", writeFlag i.limits.azimuth.available),
    ("hasElevation", writeFlag i.limits.elevation.available),
    ("azimuthMin", Octets.ofInt i.limits.azimuth.lowest.val),
    ("azimuthMax", Octets.ofInt i.limits.azimuth.highest.val),
    ("azimuthStop", Octets.ofInt i.limits.azimuth.stop.val),
    ("azimuthOverlap", writeFlag i.azimuthOverlap),
    ("elevationMin", Octets.ofInt i.limits.elevation.lowest.val),
    ("elevationMax", Octets.ofInt i.limits.elevation.highest.val),
    ("elevationStop", Octets.ofInt i.limits.elevation.stop.val),
    ("azimuth", Octets.ofInt i.pointing.azimuth.heading.val),
    ("azPreset", Octets.ofInt i.pointing.azimuth.preset.val),
    ("elevation", Octets.ofInt i.pointing.elevation.heading.val),
    ("elPreset", Octets.ofInt i.pointing.elevation.preset.val)]

def decodeStatus (s : Octets) : Except ReadError Status := decode statusRecord.read s

def decodeInfo (s : Octets) : Except ReadError Info := decode infoRecord.read s

/-- The descriptions of all rotators that a station serves. -/
def decodeInfos (s : Octets) : Except ReadError (List Info) := decode (readList infoRecord.read) s

def writeInfos (is : List Info) : Octets := writeArray (is.map writeInfo)

end Aerial.Wire
