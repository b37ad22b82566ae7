import Aerial.Bus
import Aerial.Status

/-! # Scripts on a bus

A script drives one bus of changes with named readers, step by step. Each step is one
operation of the bus, with its outcome for an answer.

Scripts on other things may have a bus for what is announced. Then one reader follows it from
the start, and every answer tells what that reader got since the one before. -/

namespace Aerial.Script.Bus

inductive Step where
  | subscribe (reader : String)
  | publish (change : Change) (count : Nat)
  | receive (reader : String)
  | drain (reader : String)
  | unsubscribe (reader : String)
  | close

abbrev State := Aerial.Bus String Change

abbrev Answer := Aerial.Bus.Outcome Change

/-- The change `n` degrees of azimuth further on. -/
def shifted (c : Change) (n : Nat) : Change :=
  let p := c.status.pointing.azimuth
  let azimuth := { p with heading := .clamp (p.heading.val + n) }
  { c with status.pointing.azimuth := azimuth }

def Step.op : Step → Aerial.Bus.Op String Change
  | subscribe k => .subscribe k
  | publish c n => .publish ((List.range n).map (shifted c))
  | receive k => .receive k
  | drain k => .drain k
  | unsubscribe k => .unsubscribe k
  | close => .close

def run (b : State) (steps : List Step) : List Answer := b.outcomes (steps.map Step.op)

end Aerial.Script.Bus

/-! ## One reader -/

namespace Aerial.Script

/-- A bus with one reader, or no bus. -/
abbrev Tap := Option (Bus Unit Change)

namespace Tap

def start (capacity : Option Nat) : Tap := capacity.map fun c => (Bus.create c).subscribe ()

def publish (t : Tap) (changes : List Change) : Tap := t.map (·.publishAll changes)

/-- What the reader has not read yet. Without a bus there is nothing to tell. -/
def read (t : Tap) : Option (List (Bus.Item Change)) × Tap :=
  let drained := t.bind (·.drain? ())
  (t.map fun _ => (drained.map Prod.fst).getD [], (drained.map Prod.snd).or t)

end Tap

end Aerial.Script
