import Aerial.Bench
import Aerial.Script.Bus

/-! # Scripts on a simulated rotator

The rotator may publish its changes on a bus with one reader. -/

namespace Aerial.Script.Rotator

inductive Step where
  | request (r : Request)
  | advance (ms times : Nat)
  | info
  | accessors

inductive Result where
  | done
  | refused (why : Refusal)
  | info (i : Info)
  | accessors (i : Info)

def Result.ofRefusal : Option Refusal → Result
  | none => done
  | some why => refused why

structure Answer where
  result : Result
  status : Status
  /-- Nothing without a bus. -/
  events : Option (List (Bus.Item Change))

structure State where
  bench : Bench
  bus : Tap

def start (p : Profile) (interval : Nat) (capacity : Option Nat) : State where
  bench := .create p interval
  bus := .start capacity

/-- The bench after a response, with the changes published. -/
def State.settle (s : State) (r : Response Bench) : State where
  bench := r.rotator
  bus := s.bus.publish r.changes

def advanceTimes (ms : Nat) : Nat → State → State
  | 0, s => s
  | n + 1, s => advanceTimes ms n (s.settle (s.bench.advance ms))

def act (s : State) : Step → Result × State
  | .request r =>
    let response := Aerial.Rotator.execute s.bench r
    (.ofRefusal response.refusal, s.settle response)
  | .advance ms times => (.done, advanceTimes ms times s)
  | .info => (.info (Aerial.Rotator.info s.bench), s)
  | .accessors => (.accessors (Aerial.Rotator.info s.bench), s)

def step (s : State) (x : Step) : Answer × State :=
  let (result, s) := act s x
  let (events, bus) := s.bus.read
  (⟨result, Aerial.Rotator.status s.bench, events⟩, { s with bus := bus })

def run : State → List Step → List Answer
  | _, [] => []
  | s, x :: steps =>
    let (a, s) := step s x
    a :: run s steps

end Aerial.Script.Rotator
