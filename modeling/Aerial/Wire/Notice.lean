import Aerial.Wire.Status

/-! # Notices on the wire

The kind of a notice is its name as a string, or an object whose only key is that name
and whose value is `null`. -/

namespace Aerial.Wire
open Aerial.Json

/-- The name of a kind, after its opening quote. -/
def readKindName (s : Octets) : Except ReadError (Notice.Kind × Octets) := do
  let (name, s) ← Text.read s
  match Notice.Kind.ofName? name with
  | some k => pure (k, s)
  | none => throw (.unfit (.unknownVariant name (Notice.Kind.all.map Notice.Kind.name)))

/-- The closing brace of the object form. -/
def readKindEnd (s : Octets) : Except ReadError Octets :=
  match skipSpace s with
  | [] => .error .incomplete
  | c :: rest => if c = 125 then .ok rest else .error .malformed

/-- The object form of a kind, after its opening brace. Only a string can name a kind: like outside
the braces, anything else in its place makes the text malformed, and is not taken for a value of
the wrong type. -/
def readKindObject (s : Octets) : Except ReadError (Notice.Kind × Octets) :=
  match skipSpace s with
  | [] => .error .incomplete
  | c :: rest =>
    if c = 34 then do
      let (k, s) ← readKindName rest
      let s ← readColon s
      let s ← readNothing s
      pure (k, ← readKindEnd s)
    else .error .malformed

def readKind (s : Octets) : Except ReadError (Notice.Kind × Octets) :=
  match skipSpace s with
  | [] => .error .incomplete
  | c :: rest =>
    if c = 34 then readKindName rest
    else if c = 123 then readKindObject rest
    else .error .malformed

def noticeRecord : Record Cell Notice where
  title := "Event"
  members := [⟨"name", Read.map .kind readKind⟩, ⟨"status", Read.map .status statusRecord.read⟩]
  optional := false
  assemble get := do
    let kind ← need get "name" Cell.kind?
    let status ← need get "status" Cell.status?
    pure ⟨kind, status⟩

def decodeNotice (s : Octets) : Except ReadError Notice := decode noticeRecord.read s

def writeNotice (n : Notice) : Octets :=
  writeObject [("name", writeText n.kind.name), ("status", writeStatus n.status)]

end Aerial.Wire

namespace Aerial

/-- What a stream client is sent for a status. -/
def Status.headingNotice (s : Status) : Octets := Wire.writeNotice ⟨.heading, s⟩

end Aerial
