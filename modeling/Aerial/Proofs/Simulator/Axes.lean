import Aerial.Proofs.Simulator.Moves

/-! # One axis by itself

What a move does to an axis is told from that axis alone: from its limits, the pace and where it
points. The other axis has no part in it, not even when a move is refused. `Move.turn` says what
becomes of the axis, and a run does to it what its moves do, one after the other. -/

namespace Aerial

namespace Simulator

/-- What a move makes of an axis with these limits that points like this. -/
def Move.turn (axis : Axis) (l : Limits) (pace : Int) (p : Pointing) : Move → Pointing
  | .steer a preset =>
    if a = axis ∧ l.available = true ∧ l.allows preset = true then { p with preset := preset }
    else p
  | .halt a => if a = axis ∧ l.available = true then { p with preset := p.heading } else p
  | .tick => { p with heading := p.heading.toward p.preset pace }

theorem pointing_redirect (s : Simulator) (axis other : Axis) (preset : Degrees) :
    (s.redirect axis preset).rotator.pointing.get other =
      if axis = other then { s.pointing.get other with preset := preset }
      else s.pointing.get other := by
  unfold redirect
  dsimp only
  split
  · rename_i hsame
    split
    · rename_i haxis
      rw [← haxis, ← hsame]
      rfl
    · rfl
  · split
    · rename_i haxis
      rw [← haxis]
      exact PerAxis.get_set_self ..
    · rename_i haxis
      exact PerAxis.get_set_of_ne _ (Ne.symm haxis) _

/-- A move turns each axis by itself. -/
theorem pointing_perform (s : Simulator) (m : Move) (axis : Axis) :
    (s.perform m).rotator.pointing.get axis =
      m.turn axis (s.profile.limits.get axis) s.profile.pace (s.pointing.get axis) := by
  cases m with
  | steer a preset =>
    by_cases ha : a = axis
    · subst ha
      cases havailable : (s.profile.limits.get a).available with
      | false => simp [perform, steer, Move.turn, havailable, Response.refuse]
      | true =>
        cases hallows : (s.profile.limits.get a).allows preset with
        | false => simp [perform, steer, Move.turn, havailable, hallows, Response.refuse]
        | true => simp [perform, steer, Move.turn, havailable, hallows, pointing_redirect]
    · simp only [perform, steer, Move.turn, ha, false_and, if_false]
      split
      · rfl
      split
      · rw [pointing_redirect, if_neg ha]
      · rfl
  | halt a =>
    by_cases ha : a = axis
    · subst ha
      cases havailable : (s.profile.limits.get a).available with
      | false => simp [perform, halt, Move.turn, havailable, Response.refuse]
      | true => simp [perform, halt, Move.turn, havailable, pointing_redirect]
    · simp only [perform, halt, Move.turn, ha, false_and, if_false]
      split
      · rw [pointing_redirect, if_neg ha]
      · rfl
  | tick => exact PerAxis.get_map ..

/-- A move announces an axis once if the axis comes to point differently by it, and else not. -/
theorem changes_perform_axis (s : Simulator) (m : Move) (axis : Axis) :
    (s.perform m).changes.filter (·.axis = axis) =
      if s.pointing.get axis = (s.perform m).rotator.pointing.get axis then []
      else [⟨axis, (s.perform m).rotator.status⟩] := by
  have hannounces := s.perform_announces m
  have hstatus : (s.info.pointed (s.perform m).rotator.pointing).status
      = (s.perform m).rotator.status := by
    rw [status, info, info, hannounces.profile]
    rfl
  rw [hannounces.changes, Info.announce, hstatus, info_pointing, Link.changedAxes]
  generalize s.pointing = before
  generalize (s.perform m).rotator.pointing = after
  by_cases ha : before.get .azimuth = after.get .azimuth <;>
    by_cases he : before.get .elevation = after.get .elevation <;>
      cases axis <;> simp [Axis.all, ha, he]

/-- A run turns each axis by itself, move by move. -/
theorem pointing_run (s : Simulator) (moves : List Move) (axis : Axis) :
    (s.run moves).1.pointing.get axis =
      moves.foldl (fun p m => m.turn axis (s.profile.limits.get axis) s.profile.pace p)
        (s.pointing.get axis) := by
  induction moves generalizing s with
  | nil => rfl
  | cons m moves ih =>
    have hrest := ih (s.perform m).rotator
    rw [(s.perform_announces m).profile, pointing_perform] at hrest
    exact hrest

end Simulator

end Aerial
