import Aerial.Bench
import Aerial.Proofs.Tasks

/-! # Ticks keep to their schedule

The protected quantity is the next deadline of a ticker, between jumps of its clock. It lies ahead,
by no more than an interval, and it is at least an interval for each tick so far: a tick that keeps
the rhythm moves the deadline by just an interval, and one that is too late moves it further. So
there are never more ticks than the time allows, and just as many if no tick was too late. No jump
of six milliseconds makes a tick too late, whatever the interval; after a longer one it is a single
tick that catches up. What the rotator is asked for meanwhile has no part in this. -/

namespace Aerial

namespace Ticker

/-! ## One poll -/

/-- Polled at `now`, a ticker fires as long as its deadline has been reached. A tick that is more
than five milliseconds late sets the deadline an interval after now, any other an interval after
the deadline that it was for. -/
inductive Polls (interval now : Nat) : (deadline fired next : Nat) → Prop where
  | waits {deadline : Nat} (ahead : now < deadline) : Polls interval now deadline 0 deadline
  | fires {deadline fired next : Nat} (reached : deadline ≤ now)
      (rest : Polls interval now
        (if now > deadline + 5 then now + interval else deadline + interval) fired next) :
      Polls interval now deadline (fired + 1) next

theorem deadline_rearm (t : Ticker) (now : Nat) : (t.rearm now).deadline =
    if now > t.deadline + 5 then now + t.interval else t.deadline + t.interval := by
  by_cases late : t.deadline + 5 < now <;> simp [rearm, tolerance, late]

/-- The ticks that are due at `now` are those that polling finds. -/
theorem polls_due (t : Ticker) (now : Nat) :
    Polls t.interval now t.deadline (t.due now).1 (t.due now).2.deadline ∧
      (t.due now).2.interval = t.interval := by
  induction t using Ticker.due.induct now with
  | case1 t reached ih =>
    rw [due, if_pos reached]
    rw [deadline_rearm] at ih
    exact ⟨.fires reached ih.1, ih.2⟩
  | case2 t ahead =>
    rw [due, if_neg ahead]
    exact ⟨.waits (Nat.lt_of_not_le ahead), rfl⟩

namespace Polls

variable {interval now deadline fired next : Nat}

/-- Polling ends, with the next deadline ahead. -/
theorem ahead (h : Polls interval now deadline fired next) : now < next := by
  induction h with
  | waits ahead => exact ahead
  | fires _ _ ih => exact ih

theorem near (h : Polls interval now deadline fired next) (hnear : deadline ≤ now + interval) :
    next ≤ now + interval := by
  induction h with
  | waits => exact hnear
  | fires reached _ ih =>
    apply ih
    split <;> omega

/-- Each tick moves the deadline by an interval or more. -/
theorem paced (h : Polls interval now deadline fired next) :
    deadline + fired * interval ≤ next := by
  induction h with
  | waits => omega
  | fires reached _ ih =>
    rw [Nat.add_one_mul]
    split at ih <;> omega

/-- A ticker that is not too late keeps the rhythm. -/
theorem exact (h : Polls interval now deadline fired next) (intime : now ≤ deadline + 5) :
    next = deadline + fired * interval := by
  induction h with
  | waits => omega
  | fires reached _ ih =>
    rw [if_neg (by omega)] at ih
    rw [Nat.add_one_mul, ih (by omega)]
    omega

/-- One tick catches up with a ticker that is too late. -/
theorem late (h : Polls interval now deadline fired next) (positive : 0 < interval)
    (overdue : deadline + 5 < now) : fired = 1 := by
  cases h with
  | waits ahead => omega
  | fires reached rest =>
    rw [if_pos overdue] at rest
    cases rest with
    | waits => rfl
    | fires reached => omega

/-- At the start a single tick is due. -/
theorem once (h : Polls interval 0 0 fired next) (positive : 0 < interval) :
    fired = 1 ∧ next = interval := by
  cases h with
  | waits ahead => omega
  | fires reached rest =>
    rw [if_neg (by omega), Nat.zero_add] at rest
    cases rest with
    | waits => exact ⟨rfl, rfl⟩
    | fires reached => omega

end Polls

end Ticker

namespace Bench

/-! ## Jumps of the clock -/

/-- What happens to a bench: somebody asks something of the rotator, or the clock jumps. -/
inductive Event where
  | request (r : Request)
  | jump (ms : Nat)

/-- How much time passes. -/
def Event.ms : Event → Nat
  | request _ => 0
  | jump ms => ms

def happen (b : Bench) : Event → Response Bench
  | .request r => Rotator.execute b r
  | .jump ms => b.advance ms

def after (b : Bench) (events : List Event) : Bench := (Response.inTurn happen b events).1

/-- The ticks that run after a jump of the clock. -/
def ticks (b : Bench) (ms : Nat) : Nat :=
  match b.ticker with
  | none => 0
  | some t => (t.due (b.now + ms)).1

/-- What the simulator is made to do. -/
def tasks (b : Bench) : Event → List Task
  | .request r => [.request r]
  | .jump ms => List.replicate (b.ticks ms) (.move .tick)

/-- What the simulator is made to do, one event after the other. -/
def allTasks : Bench → List Event → List Task
  | _, [] => []
  | b, e :: events => b.tasks e ++ allTasks (b.happen e).rotator events

/-- The next deadline of a bench lies ahead, but not by more than an interval, and there has been an
interval for each tick. -/
structure OnTime (interval ticks : Nat) (b : Bench) (t : Ticker) : Prop where
  ticker : b.ticker = some t
  regular : t.interval = interval
  ahead : b.now < t.deadline
  near : t.deadline ≤ b.now + interval
  paced : ticks * interval ≤ t.deadline

section

variable {interval n : Nat} {b : Bench} {t : Ticker}

theorem ticks_of_ticker (h : b.ticker = some t) (ms : Nat) :
    b.ticks ms = (t.due (b.now + ms)).1 ∧
      (b.advance ms).rotator.ticker = some (t.due (b.now + ms)).2 := by
  simp only [ticks, Bench.advance, settle, h]
  exact ⟨trivial, rfl⟩

theorem now_advance (b : Bench) (ms : Nat) : (b.advance ms).rotator.now = b.now + ms := by
  rw [Bench.advance, settle]
  cases b.ticker <;> rfl

/-- A jump of the clock polls the ticker. -/
theorem OnTime.polls (h : OnTime interval n b t) (ms : Nat) :
    ∃ t', (b.advance ms).rotator.ticker = some t' ∧ t'.interval = interval ∧
      Ticker.Polls interval (b.now + ms) t.deadline (b.ticks ms) t'.deadline := by
  obtain ⟨hpolls, hinterval⟩ := t.polls_due (b.now + ms)
  obtain ⟨hticks, hticker⟩ := ticks_of_ticker h.ticker ms
  rw [h.regular, ← hticks] at hpolls
  exact ⟨_, hticker, hinterval.trans h.regular, hpolls⟩

theorem OnTime.advance (h : OnTime interval n b t) (ms : Nat) :
    ∃ t', OnTime interval (n + b.ticks ms) (b.advance ms).rotator t' ∧
      (ms ≤ 6 → t.deadline = n * interval → t'.deadline = (n + b.ticks ms) * interval) := by
  obtain ⟨t', hticker, hinterval, hpolls⟩ := h.polls ms
  have hnow := b.now_advance ms
  have hnear := h.near
  have hahead := h.ahead
  have hpaced := h.paced
  refine ⟨t', ⟨hticker, hinterval, hnow ▸ hpolls.ahead, hnow ▸ hpolls.near (by omega), ?_⟩,
    fun short steady => ?_⟩
  · have := hpolls.paced
    rw [Nat.add_mul]
    omega
  · -- The deadline was ahead, so a jump of six leaves it behind by five at most.
    rw [hpolls.exact (by omega), steady, Nat.add_mul]

/-- Nothing that happens to a bench puts it out of time. -/
theorem OnTime.happen (h : OnTime interval n b t) (e : Event) :
    ∃ t', OnTime interval (n + (b.tasks e).count (.move .tick)) (b.happen e).rotator t' ∧
      (e.ms ≤ 6 → t.deadline = n * interval →
        t'.deadline = (n + (b.tasks e).count (.move .tick)) * interval) := by
  cases e with
  | request r => exact ⟨t, ⟨h.ticker, h.regular, h.ahead, h.near, h.paced⟩, fun _ => id⟩
  | jump ms =>
    rw [tasks, List.count_replicate_self]
    exact h.advance ms

theorem OnTime.after (h : OnTime interval n b t) (events : List Event) :
    ∃ t', OnTime interval (n + (b.allTasks events).count (.move .tick)) (b.after events) t' ∧
      ((∀ e ∈ events, e.ms ≤ 6) → t.deadline = n * interval →
        t'.deadline = (n + (b.allTasks events).count (.move .tick)) * interval) := by
  induction events generalizing n b t with
  | nil => exact ⟨t, h, fun _ => id⟩
  | cons e events ih =>
    obtain ⟨t', h', hsteady⟩ := h.happen e
    obtain ⟨t'', h'', hsteady'⟩ := ih h'
    rw [allTasks, List.count_append, ← Nat.add_assoc]
    refine ⟨t'', h'', fun short steady => ?_⟩
    obtain ⟨hfirst, hrest⟩ := List.forall_mem_cons.mp short
    exact hsteady' hrest (hsteady hfirst steady)

end

/-- A bench before its first tick, which is due at once. -/
def fresh (p : Profile) (interval : Nat) : Bench := ⟨.create p, Ticker.start? interval, 0⟩

end Bench

end Aerial
