import Aerial.Proofs.Simulator.Moves

/-! # What a refusal leaves

A simulator refuses a request before anything is done: what is refused changes nothing and announces
nothing. The full stop is never refused, for it passes over the axes that are unavailable. -/

namespace Aerial

/-- A response that leaves everything as it was. -/
def Response.Declines {ρ : Type} (r : ρ) (response : Response ρ) : Prop :=
  response.rotator = r ∧ response.changes = []

namespace Simulator

theorem redirect_refusal (s : Simulator) (axis : Axis) (preset : Degrees) :
    (s.redirect axis preset).refusal = none := by
  unfold redirect
  dsimp only
  split <;> rfl

theorem steer_refusal (s : Simulator) (axis : Axis) (preset : Degrees) :
    let l := s.profile.limits.get axis
    (s.steer axis preset).refusal =
      if l.available = false then some (.axisUnavailable axis)
      else if l.allows preset = true then none
      else some (.outOfRange axis preset l.lowest l.highest) := by
  intro l
  simp only [steer, Bool.not_eq_true']
  split
  · rfl
  split
  · exact s.redirect_refusal axis preset
  · rfl

theorem halt_refusal_eq (s : Simulator) (axis : Axis) :
    (s.halt axis).refusal =
      if (s.profile.limits.get axis).available = false then some (.axisUnavailable axis)
      else none := by
  cases h : (s.profile.limits.get axis).available with
  | false => simp [halt, h, Response.refuse]
  | true => rw [halt_refusal h, if_neg (by simp)]

theorem declines_steer {s : Simulator} {axis : Axis} {preset : Degrees} {why : Refusal}
    (h : (s.steer axis preset).refusal = some why) : (s.steer axis preset).Declines s := by
  unfold steer at *
  dsimp only at *
  split at h
  · rename_i hunavailable
    rw [if_pos hunavailable]
    exact ⟨rfl, rfl⟩
  rename_i havailable
  rw [if_neg havailable]
  split at h
  · rw [redirect_refusal] at h
    cases h
  · rename_i hforbidden
    rw [if_neg hforbidden]
    exact ⟨rfl, rfl⟩

theorem declines_halt {s : Simulator} {axis : Axis} {why : Refusal}
    (h : (s.halt axis).refusal = some why) : (s.halt axis).Declines s := by
  unfold halt at *
  split at h
  · rw [redirect_refusal] at h
    cases h
  · rename_i hunavailable
    rw [if_neg hunavailable]
    exact ⟨rfl, rfl⟩

/-- The full stop halts the axes that are available, the azimuth first, and is not refused. -/
theorem execute_stop (s : Simulator) :
    let first := s.haltIfAvailable .azimuth
    let second := first.rotator.haltIfAvailable .elevation
    s.execute .stop = ⟨none, second.rotator, first.changes ++ second.changes⟩ := by
  intro first second
  have hfirst : first.refusal = none := (s.haltIfAvailable_eq_run .azimuth).1
  have hsecond : second.refusal = none := (first.rotator.haltIfAvailable_eq_run .elevation).1
  have hstop : s.execute .stop = { second with changes := first.changes ++ second.changes } := by
    rw [execute_eq_stop, stop, Response.andThen, hfirst]
  rw [hstop, ← hsecond]

theorem stop_refusal (s : Simulator) : (s.execute .stop).refusal = none := by
  rw [execute_stop]

/-- A request that is refused changes nothing and announces nothing. -/
theorem declines_execute {s : Simulator} {r : Request} {why : Refusal}
    (h : (s.execute r).refusal = some why) : (s.execute r).Declines s := by
  cases r with
  | setAzimuth a => exact declines_steer h
  | setElevation e => exact declines_steer h
  | stopAzimuth => exact declines_halt h
  | stopElevation => exact declines_halt h
  | stop =>
    rw [stop_refusal] at h
    cases h

end Simulator

end Aerial
