import Aerial.Site.Question
import Aerial.Station.Basic
import Aerial.Wire.Status

/-! # The web site of a station

Four pages: the description of the rotator, the health of the service, a catalogue of
these two, and the event stream, which only upgraded connections enter. Any origin may
ask. A question about options is answered before the page is looked for. -/

namespace Aerial.Site

inductive Page where
  | info
  | health
  | catalogue
  | stream
deriving DecidableEq

def Page.path : Page → String
  | info => "/info"
  | health => "/health"
  | catalogue => "/api-docs/openapi.json"
  | stream => "/ws"

def Page.all : List Page := [info, health, catalogue, stream]

def Page.ofPath? (path : String) : Option Page := all.find? (·.path = path)

structure Health where
  rotator : String
  tcpClients : Nat
  streamClients : Nat

inductive Body where
  | empty
  | text (s : String)
  | json (bytes : Octets)
  | health (h : Health)
  | catalogue

structure Answer where
  code : Nat
  headers : List (String × String)
  body : Body

def version : String := "0.1.0"

/-- What the service says of itself while it answers at all. -/
def wellbeing : String := "healthy"

def contentType (s : String) : String × String := ("content-type", s)
def jsonType : String × String := contentType "application/json"

/-- What any origin may see of an answer. -/
def openHeaders : List (String × String) :=
  [("access-control-allow-origin", "*"), ("access-control-expose-headers", "*")]

/-- What any origin may ask. -/
def optionHeaders : List (String × String) :=
  [("access-control-allow-origin", "*"), ("access-control-allow-methods", "*"),
    ("access-control-allow-headers", "*")]

def allowed : String × String := ("allow", "GET,HEAD")

/-- Why a connection does not enter the event stream. The first reason counts. -/
def refuseStream (q : Question) : Nat × String :=
  let headerIs (name value : String) : Bool := (q.header? name).map String.toLower = some value
  let mentionsUpgrade : Bool :=
    match q.header? "connection" with
    | some v => (v.toLower.splitOn "upgrade").length > 1
    | none => false
  if q.method = "HEAD" then (405, "Request method must be \x60GET\x60")
  else if !mentionsUpgrade then (400, "Connection header did not include 'upgrade'")
  else if !headerIs "upgrade" "websocket" then
    (400, "\x60Upgrade\x60 header did not include 'websocket'")
  else if (q.header? "sec-websocket-key").isNone then
    (400, "\x60Sec-WebSocket-Key\x60 header missing")
  else if !headerIs "sec-websocket-version" "13" then
    (400, "\x60Sec-WebSocket-Version\x60 header did not include '13'")
  else (426, "WebSocket request couldn't be upgraded since no upgrade state was present")

section
variable {ρ : Type} [Rotator ρ] (s : Station ρ)

def health : Health where
  rotator := (Rotator.info s.rotator).name
  tcpClients := s.clientCount .tcp
  streamClients := s.clientCount .websocket

/-- The content of a page. -/
def content (q : Question) : Page → Answer
  | .info => ⟨200, [jsonType], .json (Wire.writeInfos [Rotator.info s.rotator])⟩
  | .health => ⟨200, [jsonType], .health (health s)⟩
  | .catalogue => ⟨200, [jsonType], .catalogue⟩
  | .stream =>
    let (code, why) := refuseStream q
    ⟨code, [contentType "text/plain; charset=utf-8"], .text why⟩

def answer (q : Question) : Answer :=
  let page := Page.ofPath? q.path
  if q.method = "OPTIONS" then
    ⟨200, optionHeaders ++ page.toList.map fun _ => allowed, .empty⟩
  else match page with
    | none => ⟨404, openHeaders, .empty⟩
    | some page =>
      if q.method = "GET" || q.method = "HEAD" then
        let a := content s q page
        ⟨a.code, openHeaders ++ a.headers, if q.method = "HEAD" then .empty else a.body⟩
      else ⟨405, allowed :: openHeaders, .empty⟩

end

/-! ## The catalogue -/

inductive FieldType where
  | text
  | number
  | flag

def FieldType.name : FieldType → String
  | text => "string"
  | number => "integer"
  | flag => "boolean"

structure Schema where
  name : String
  fields : List (String × FieldType)

structure Operation where
  page : Page
  tag : String
  summary : String
  description : String
  answers : List (Nat × String)

def title : String := "rotator-hub"

/-- The groups of pages, with what they are about. -/
def tags : List (String × String) :=
  [("Rotator", "Rotator state"), ("System", "Service status")]

def operations : List Operation := [
  { page := .info
    tag := "Rotator"
    summary := "Rotator info"
    description :=
      "Returns the capabilities and current heading of every rotator served by this hub."
    answers := [(200, "Rotator descriptors")] },
  { page := .health
    tag := "System"
    summary := "Health check"
    description :=
      "Returns service health, version, the served rotator and connected client counts."
    answers := [(200, "Service is healthy")] }]

def schemas : List Schema := [
  { name := "Info"
    fields := [("name", .text), ("hasAzimuth", .flag), ("hasElevation", .flag),
      ("azimuthMin", .number), ("azimuthMax", .number), ("azimuthStop", .number),
      ("azimuthOverlap", .flag), ("elevationMin", .number), ("elevationMax", .number),
      ("elevationStop", .number), ("azimuth", .number), ("azPreset", .number),
      ("elevation", .number), ("elPreset", .number)] },
  { name := "Status"
    fields := [("name", .text), ("azimuth", .number), ("azPreset", .number),
      ("azimuthOverlap", .flag), ("elevation", .number), ("elPreset", .number)] },
  { name := "HealthResponse"
    fields := [("status", .text), ("timestamp", .text), ("version", .text), ("rotator", .text),
      ("tcp_clients", .number), ("ws_clients", .number)] }]

end Aerial.Site
