import Aerial.Simulator

/-! # A simulator under its clock

Movement happens on ticks. The first deadline is the moment of creation, time
zero. When time has come to `now`, ticks run while a deadline has been reached; a
tick that is more than five milliseconds late pushes the next deadline a full
interval past `now`, any other a full interval past its own deadline. So a long
pause costs one tick and not a burst. Times are in milliseconds.

A bench is a simulated rotator together with the ticker that moves it and the time
that has passed. Time advances only when it is told to. -/

namespace Aerial

/-! ## The ticker -/

structure Ticker where
  interval : Nat
  deadline : Nat
  interval_pos : 0 < interval

namespace Ticker

/-- How late a tick may be and still keep the rhythm. -/
def tolerance : Nat := 5

/-- A ticker with its first deadline at time zero. An interval of zero gives none. -/
def start? (interval : Nat) : Option Ticker :=
  if h : 0 < interval then some ⟨interval, 0, h⟩ else none

/-- The ticker after the tick that runs at `now`. -/
def rearm (t : Ticker) (now : Nat) : Ticker :=
  { t with deadline := (if t.deadline + tolerance < now then now else t.deadline) + t.interval }

theorem deadline_lt_rearm (t : Ticker) {now : Nat} (h : t.deadline ≤ now) :
    t.deadline < (t.rearm now).deadline := by
  have := t.interval_pos
  simp only [rearm]
  split <;> omega

/-- The number of ticks that run by the time `now`, and the ticker after them. -/
def due (t : Ticker) (now : Nat) : Nat × Ticker :=
  if t.deadline ≤ now then
    let rest := (t.rearm now).due now
    (rest.1 + 1, rest.2)
  else (0, t)
termination_by now + 1 - t.deadline
decreasing_by
  have := t.deadline_lt_rearm ‹_›
  omega

end Ticker

/-! ## The bench -/

structure Bench where
  simulator : Simulator
  ticker : Option Ticker
  now : Nat

namespace Bench

/-- Runs the ticks that are due at the present time. -/
def settle (b : Bench) : Response Bench :=
  match b.ticker with
  | none => .accept b []
  | some t =>
    let (n, t') := t.due b.now
    let (s, changes) := b.simulator.run (List.replicate n .tick)
    .accept { b with simulator := s, ticker := some t' } changes

/-- A fresh simulator at time zero, when its first tick has run. Without an interval
it never moves. -/
def create (p : Profile) (interval : Nat) : Bench :=
  (Bench.mk (.create p) (Ticker.start? interval) 0).settle.rotator

def advance (b : Bench) (ms : Nat) : Response Bench := { b with now := b.now + ms }.settle

/-- Has the simulator do something. -/
def ask (b : Bench) (f : Simulator → Response Simulator) : Response Bench :=
  (f b.simulator).map fun s => { b with simulator := s }

end Bench

instance : Rotator Bench where
  setAzimuth b a := b.ask (Commands.setAzimuth · a)
  setElevation b e := b.ask (Commands.setElevation · e)
  stopAzimuth b := b.ask Commands.stopAzimuth
  stopElevation b := b.ask Commands.stopElevation
  stop b := b.ask Commands.stop
  info b := b.simulator.info
  execute b r := b.ask (·.execute r)

end Aerial
