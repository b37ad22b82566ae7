import Aerial.Proofs.Announcements

/-! # Runs of moves

Whoever commands a simulator, alone or beside others, changes it by atomic moves, and so
does its ticker. A run is a list of moves, and every interleaving of callers is one:
`Request.moves` takes a request apart, the full stop into one move for each available
axis. `changes_of_run` says that no move is silent. After any run the status is the one
announced last, and each move announces exactly the axes that it made point differently,
with the status after the whole move. -/

namespace Aerial

/-- The atomic moves that a request consists of. -/
def Request.moves (p : Profile) : Request → List Simulator.Move
  | setAzimuth a => [.steer .azimuth a]
  | setElevation e => [.steer .elevation e]
  | stopAzimuth => [.halt .azimuth]
  | stopElevation => [.halt .elevation]
  | stop => (Axis.all.filter fun axis => (p.limits.get axis).available).map .halt

namespace Simulator

theorem run_singleton (s : Simulator) (m : Move) :
    s.run [m] = ((s.perform m).rotator, (s.perform m).changes) := by
  simp [run]

theorem run_append (s : Simulator) (moves more : List Move) :
    s.run (moves ++ more) =
      (((s.run moves).1.run more).1, (s.run moves).2 ++ ((s.run moves).1.run more).2) := by
  induction moves generalizing s with
  | nil => rfl
  | cons m moves ih => simp [run, ih]

theorem run_profile (s : Simulator) (moves : List Move) : (s.run moves).1.profile = s.profile := by
  induction moves generalizing s with
  | nil => rfl
  | cons m moves ih => exact (ih (s.perform m).rotator).trans (s.perform_announces m).profile

/-- The announcements of a run tell how the simulator came to point as it does. -/
theorem run_accounts (s : Simulator) (moves : List Move) :
    Tells s.info (s.run moves).2 (s.run moves).1.info := by
  induction moves generalizing s with
  | nil => exact .nil
  | cons m moves ih => exact (s.perform_accounts m).append (ih (s.perform m).rotator)

/-- The last announcement of a run carries the status after it. -/
theorem run_status (s : Simulator) (moves : List Move) :
    (s.run moves).1.status = ((s.run moves).2.getLast?.map Change.status).getD s.status := by
  rcases (s.run_accounts moves).getLast with ⟨hsilent, hinfo⟩ | ⟨c, hlast, hstatus⟩
  · rw [hsilent, status, status, ← hinfo]
    rfl
  · rw [hlast, status, ← hstatus]
    rfl

/-! ## Requests -/

theorem halt_refusal {s : Simulator} {axis : Axis}
    (available : (s.profile.limits.get axis).available = true) : (s.halt axis).refusal = none := by
  rw [halt, if_pos available]
  unfold redirect
  dsimp only
  split <;> rfl

/-- Half of the full stop is a move, or nothing on an axis that is not available. -/
theorem haltIfAvailable_eq_run (s : Simulator) (axis : Axis) :
    let moves := if (s.profile.limits.get axis).available then [.halt axis] else []
    (s.haltIfAvailable axis).refusal = none ∧
      ((s.haltIfAvailable axis).rotator, (s.haltIfAvailable axis).changes) = s.run moves := by
  intro moves
  by_cases available : (s.profile.limits.get axis).available = true
  · simp only [moves, haltIfAvailable, available, if_true]
    exact ⟨halt_refusal available, (s.run_singleton (.halt axis)).symm⟩
  · simp only [moves, haltIfAvailable, available]
    exact ⟨rfl, rfl⟩

theorem stop_moves (p : Profile) : Request.stop.moves p =
    (if (p.limits.get .azimuth).available then [.halt .azimuth] else [])
      ++ if (p.limits.get .elevation).available then [.halt .elevation] else [] := by
  simp only [Request.moves, Axis.all, List.filter_cons, List.filter_nil]
  split <;> split <;> rfl

/-- A request does what its moves do. -/
theorem execute_eq_run (s : Simulator) (r : Request) :
    ((s.execute r).rotator, (s.execute r).changes) = s.run (r.moves s.profile) := by
  cases r with
  | setAzimuth a => exact (s.run_singleton (.steer .azimuth a)).symm
  | setElevation e => exact (s.run_singleton (.steer .elevation e)).symm
  | stopAzimuth => exact (s.run_singleton (.halt .azimuth)).symm
  | stopElevation => exact (s.run_singleton (.halt .elevation)).symm
  | stop =>
    obtain ⟨hnone, hfirst⟩ := s.haltIfAvailable_eq_run .azimuth
    have hprofile : (s.haltIfAvailable .azimuth).rotator.profile = s.profile := by
      have hrotator := congrArg (fun out => out.1.profile) hfirst
      exact hrotator.trans (s.run_profile _)
    obtain ⟨-, hsecond⟩ := (s.haltIfAvailable .azimuth).rotator.haltIfAvailable_eq_run .elevation
    rw [hprofile] at hsecond
    rw [stop_moves, run_append, ← hfirst]
    dsimp only
    rw [← hsecond, execute_eq_stop, stop, Response.andThen, hnone]

/-- No change is silent. A simulator has the status announced last, or the one it began with
while nothing was announced. A move announces an axis exactly if the axis comes to point
differently by it, azimuth first, each time with the status after the move. A request is a
run of such moves. -/
theorem changes_of_run (p : Profile) (moves : List Move) :
    let now := ((create p).run moves).1
    let announced := ((create p).run moves).2
    now.status = (announced.getLast?.map Change.status).getD (create p).status ∧
    (∀ m : Move,
      let next := (now.perform m).rotator
      (create p).run (moves ++ [m]) = (next, announced ++ (now.perform m).changes) ∧
      (now.perform m).changes =
        (Axis.all.filter fun axis => now.pointing.get axis ≠ next.pointing.get axis).map
          fun axis => ⟨axis, next.status⟩) ∧
    ∀ r : Request,
      (create p).run (moves ++ r.moves p) =
        ((now.execute r).rotator, announced ++ (now.execute r).changes) := by
  intro now announced
  refine ⟨run_status .., fun m => ⟨?_, ?_⟩, fun r => ?_⟩
  · rw [run_append, run_singleton]
  · have hannounces := now.perform_announces m
    have hstatus : (now.info.pointed (now.perform m).rotator.pointing).status
        = (now.perform m).rotator.status := by
      rw [status, info, info, hannounces.profile]
      rfl
    rw [hannounces.changes, Info.announce, hstatus]
    rfl
  · have hprofile : now.profile = p := run_profile ..
    have hrequest := now.execute_eq_run r
    rw [hprofile] at hrequest
    rw [run_append, ← hrequest]

end Simulator

end Aerial
