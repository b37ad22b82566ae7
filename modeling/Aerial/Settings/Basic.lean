import Aerial.Settings.Environment
import Aerial.Simulator

/-! # Settings

Everything a station can be told at its start comes from the environment, one variable
per setting, and every setting but one has a default. Loading fails only for a backend
that does not exist, or for a linked backend without the host to link to. -/

namespace Aerial

structure Listener where
  enabled : Bool
  host : String
  portNumber : UInt16
deriving DecidableEq

/-- Where another station is reached. -/
structure Remote where
  host : String
  portNumber : UInt16
  timeoutSeconds : UInt64
deriving DecidableEq

inductive Backend where
  | simulated (profile : Profile) (tickMs : UInt64)
  | linked (remote : Remote)
deriving DecidableEq

structure Settings where
  tcp : Listener
  http : Listener
  busCapacity : UInt64
  logJson : Bool
  backend : Backend
deriving DecidableEq

namespace Settings

inductive Failure where
  | unknownBackend (name : String)
  | noRemoteHost
deriving DecidableEq

def Failure.message : Failure → String
  | unknownBackend name => s!"unknown rotator backend: {name}"
  | noRemoteHost => "PROXY_HOST must be set for the proxy backend"

section
variable (env : Environment)

def text (name default : String) : String := (env.text? name).getD default

/-- The value of a variable as `read` understands it. -/
def parsed {α : Type} (read : String → Option α) (name : String) (default : α) : α :=
  ((env.text? name).bind read).getD default

def heading (name : String) (default : Degrees) : Degrees := parsed env degrees? name default

def flag (name : String) (default : Bool) : Bool := parsed env flag? name default

/-- The limits of one axis, whose variables share a stem. -/
def limits (stem : String) (default : Limits) : Limits where
  available := flag env s!"DUMMY_HAS_{stem}" default.available
  lowest := heading env s!"DUMMY_{stem}_MIN" default.lowest
  highest := heading env s!"DUMMY_{stem}_MAX" default.highest
  stop := heading env s!"DUMMY_{stem}_STOP" default.stop

def profile (default : Profile) : Profile where
  name := text env "ROTATOR_NAME" default.name
  limits := ⟨limits env "AZIMUTH" default.limits.azimuth,
    limits env "ELEVATION" default.limits.elevation⟩
  initial := ⟨heading env "DUMMY_AZIMUTH" default.initial.azimuth,
    heading env "DUMMY_ELEVATION" default.initial.elevation⟩
  step := heading env "DUMMY_STEP" default.step

/-- The chosen backend. The settings of the other one are not looked at. -/
def loadBackend : Except Failure Backend :=
  let name := text env "ROTATOR_BACKEND" "dummy"
  if name = "dummy" then
    .ok (.simulated (profile env .standard) (parsed env word64? "DUMMY_TICK_MS" 100))
  else if name = "proxy" then
    match env.text? "PROXY_HOST" with
    | none => .error .noRemoteHost
    | some host =>
      .ok (.linked ⟨host, parsed env word16? "PROXY_PORT" 7070,
        parsed env word64? "PROXY_TIMEOUT_SECS" 3⟩)
  else .error (.unknownBackend name)

/-- A listener, whose variables share a stem. It listens on all addresses unless told
otherwise. -/
def listener (stem : String) (portNumber : UInt16) : Listener where
  enabled := flag env s!"{stem}_ENABLED" true
  host := text env s!"{stem}_HOST" "0.0.0.0"
  portNumber := parsed env word16? s!"{stem}_PORT" portNumber

/-- A log is JSON lines if the format is `json` in any letter case. -/
def isJson (format : String) : Bool :=
  decide (format.toList.map Char.toLower = ['j', 's', 'o', 'n'])

def load : Except Failure Settings :=
  match loadBackend env with
  | .error e => .error e
  | .ok b => .ok {
      tcp := listener env "TCP" 7373
      http := listener env "HTTP" 7070
      busCapacity := parsed env word64? "EVENT_BUS_CAPACITY" 1024
      logJson := isJson (text env "LOG_FORMAT" "text")
      backend := b }

end

end Settings

end Aerial
