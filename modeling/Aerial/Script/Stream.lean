import Aerial.Script.Station
import Aerial.Station.Basic

/-! # A stream connection, step by step

One client of the event stream joins a station whose rotator publishes on a bus that
a pump follows. The client sends frames, and hears what the station broadcasts. -/

namespace Aerial.Script.Stream

inductive Step where
  | frame (f : Frame)
  | broadcast (status : Status)
  | request (r : Request)
  | advance (ms times : Nat)

def client : ClientId := 0

/-- What a script says of a connection that it breaks. No answer shows it. -/
def cause : String := "connection lost"

/-- The same step on the station. -/
def onStation : Step → List Station.Step
  | .frame f =>
    match Inbound.ofFrame? cause f with
    | none => []
    | some (.message payload) => [.send client [.bytes payload] none]
    | some (.ended none) => [.hangUp client none]
    | some (.ended (some fault)) => [.send client [.fault fault] none]
  | .broadcast status => [.broadcast [.tcp, .websocket] status]
  | .request r => [.request r]
  | .advance ms times => [.advance ms times]

structure Answer where
  result : Option Refusal
  frames : List Octets
  clients : Nat
  status : Status
  log : List LogEvent

def refusalOf : Station.Result → Option Refusal
  | .refused why => some why
  | _ => none

/-- One answer for the steps that stand for one. -/
def merge (s : Station.State) (log : List LogEvent) (answers : List Station.Answer) : Answer where
  result := answers.findSome? fun a => refusalOf a.result
  frames := answers.flatMap fun a => a.frames.flatMap Prod.snd
  clients := s.station.clientCount .websocket
  status := Rotator.status s.station.rotator
  log := log ++ answers.flatMap (·.log)

/-- A run of station steps that keeps the state. -/
def runSteps : Station.State → List Station.Step → List Station.Answer × Station.State
  | s, [] => ([], s)
  | s, x :: steps =>
    let (a, s) := Station.step s x
    let (as, s) := runSteps s steps
    (a :: as, s)

/-- `log` is what happened before the first step. -/
def play : Station.State → (log : List LogEvent) → List Step → List Answer
  | _, _, [] => []
  | s, log, x :: steps =>
    let (answers, s) := runSteps s (onStation x)
    merge s log answers :: play s [] steps

def run (p : Profile) (interval capacity : Nat) (steps : List Step) : List Answer :=
  let (opening, s) := runSteps (Station.start p interval (some capacity) true)
    [.pump, .add client .websocket [] false]
  play s (opening.flatMap (·.log)) steps

end Aerial.Script.Stream
