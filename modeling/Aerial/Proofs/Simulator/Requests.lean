import Aerial.Proofs.Simulator.Stops

/-! # What becomes of a request

A request is for some axes, and names a preset or stops them where they are. It is refused for an
axis that it is for alone, if that axis is unavailable or is not allowed the preset; whether it is
depends on the limits and on nothing that moves. A request that is refused has done nothing. One
that is not gives each of its axes that is available a new preset, and each axis whose preset differs
from the one before is announced, the azimuth before the elevation is touched. Executed once more, it
finds all of this done. Nothing is assumed of the simulator, so all of it holds wherever a run of
moves and requests may have led. -/

namespace Aerial

theorem Axis.mem_all (axis : Axis) : axis ∈ all := by
  cases axis <;> simp [all]

namespace Request

/-- The axes that a request is for. -/
def axes : Request → List Axis
  | setAzimuth _ | stopAzimuth => [.azimuth]
  | setElevation _ | stopElevation => [.elevation]
  | stop => Axis.all

/-- The preset that a request names. A stop names none. -/
def preset? : Request → Option Degrees
  | setAzimuth a => some a
  | setElevation e => some e
  | stopAzimuth | stopElevation | stop => none

/-- The request for a preset on one axis. -/
def steerOf : Axis → Degrees → Request
  | .azimuth => setAzimuth
  | .elevation => setElevation

/-- A request is for one axis, to steer it or to stop it, or it is the full stop. -/
theorem forms (r : Request) :
    (∃ axis preset, r = steerOf axis preset) ∨ (∃ axis, r = stopOf axis) ∨ r = stop := by
  cases r with
  | setAzimuth a => exact .inl ⟨.azimuth, a, rfl⟩
  | setElevation e => exact .inl ⟨.elevation, e, rfl⟩
  | stopAzimuth => exact .inr (.inl ⟨.azimuth, rfl⟩)
  | stopElevation => exact .inr (.inl ⟨.elevation, rfl⟩)
  | stop => exact .inr (.inr rfl)

@[simp] theorem axes_steerOf (axis : Axis) (preset : Degrees) :
    (steerOf axis preset).axes = [axis] := by
  cases axis <;> rfl

@[simp] theorem preset?_steerOf (axis : Axis) (preset : Degrees) :
    (steerOf axis preset).preset? = some preset := by
  cases axis <;> rfl

@[simp] theorem axes_stopOf (axis : Axis) : (stopOf axis).axes = [axis] := by
  cases axis <;> rfl

@[simp] theorem preset?_stopOf (axis : Axis) : (stopOf axis).preset? = none := by
  cases axis <;> rfl

@[simp] theorem mem_axes_stop (axis : Axis) : axis ∈ stop.axes := axis.mem_all

/-- An axis that points like this, when it has been told what the request says. -/
def redirected (r : Request) (p : Pointing) : Pointing :=
  { p with preset := r.preset?.getD p.heading }

theorem redirected_redirected (r : Request) (p : Pointing) :
    r.redirected (r.redirected p) = r.redirected p := rfl

end Request

/-- What these limits forbid: a request for a single axis that is unavailable, and on an available
one a preset outside the limits. -/
inductive Profile.Forbids (p : Profile) (r : Request) : Refusal → Prop where
  | unavailable {axis : Axis} (alone : r.axes = [axis])
      (missing : (p.limits.get axis).available = false) : p.Forbids r (.axisUnavailable axis)
  | outside {axis : Axis} {value : Degrees} (alone : r.axes = [axis])
      (named : r.preset? = some value) (present : (p.limits.get axis).available = true)
      (beyond : ¬((p.limits.get axis).lowest.val ≤ value.val ∧
        value.val ≤ (p.limits.get axis).highest.val)) :
      p.Forbids r (.outOfRange axis value (p.limits.get axis).lowest (p.limits.get axis).highest)

namespace Simulator

theorem execute_steerOf (s : Simulator) (axis : Axis) (preset : Degrees) :
    s.execute (.steerOf axis preset) = s.steer axis preset := by
  cases axis <;> rfl

theorem execute_stopOf (s : Simulator) (axis : Axis) :
    s.execute (.stopOf axis) = s.halt axis := by
  cases axis <;> rfl

/-! ## Refusals -/

theorem refusal_execute_congr {s t : Simulator} (h : s.profile = t.profile) (r : Request) :
    (s.execute r).refusal = (t.execute r).refusal := by
  obtain ⟨axis, preset, rfl⟩ | ⟨axis, rfl⟩ | rfl := r.forms
  · simp only [execute_steerOf, steer_refusal, h]
  · simp only [execute_stopOf, halt_refusal_eq, h]
  · rw [stop_refusal, stop_refusal]

/-- What a request is refused for, and nothing else. -/
theorem execute_refusal_iff (s : Simulator) (r : Request) (why : Refusal) :
    (s.execute r).refusal = some why ↔ s.profile.Forbids r why := by
  obtain ⟨axis, preset, rfl⟩ | ⟨axis, rfl⟩ | rfl := r.forms
  · rw [execute_steerOf, steer_refusal]
    constructor
    · intro h
      split at h
      · rename_i hmissing
        cases h
        exact .unavailable (by simp) hmissing
      split at h
      · cases h
      · rename_i hpresent houtside
        cases h
        exact .outside (by simp) (by simp) (by simpa using hpresent)
          (by simpa [Limits.allows] using houtside)
    · rintro (⟨halone, hmissing⟩ | ⟨halone, hnamed, hpresent, houtside⟩)
      · obtain rfl : axis = _ := by simpa using halone
        rw [if_pos hmissing]
      · obtain rfl : axis = _ := by simpa using halone
        obtain rfl : preset = _ := by simpa using hnamed
        rw [if_neg (by simp [hpresent]), if_neg (by simpa [Limits.allows] using houtside)]
  · rw [execute_stopOf, halt_refusal_eq]
    constructor
    · intro h
      split at h
      · rename_i hmissing
        cases h
        exact .unavailable (by simp) hmissing
      · cases h
    · rintro (⟨halone, hmissing⟩ | ⟨-, hnamed, -⟩)
      · obtain rfl : axis = _ := by simpa using halone
        rw [if_pos hmissing]
      · simp at hnamed
  · rw [stop_refusal]
    constructor
    · intro h
      cases h
    · rintro (⟨halone, -⟩ | ⟨-, hnamed, -⟩)
      · simp [Request.axes, Axis.all] at halone
      · cases hnamed

/-! ## Redirections -/

theorem eq_of_axes {s t : Simulator} (profile : s.profile = t.profile)
    (pointing : ∀ axis, s.pointing.get axis = t.pointing.get axis) : s = t := by
  cases s
  cases t
  cases profile
  exact congrArg (mk _) (PerAxis.ext_get pointing)

/-- A response that has to do with one axis: at most the preset of the axis has changed, and the
axis is announced if it has. -/
structure Redirects (s : Simulator) (axis : Axis) (r : Response Simulator) : Prop where
  profile : r.rotator.profile = s.profile
  heading : (r.rotator.pointing.get axis).heading = (s.pointing.get axis).heading
  other : ∀ a, a ≠ axis → r.rotator.pointing.get a = s.pointing.get a
  changes : r.changes =
    if (r.rotator.pointing.get axis).preset = (s.pointing.get axis).preset then []
    else [⟨axis, r.rotator.status⟩]

theorem redirects_unmoved (s : Simulator) (axis : Axis) (refusal : Option Refusal) :
    s.Redirects axis ⟨refusal, s, []⟩ :=
  ⟨rfl, rfl, fun _ _ => rfl, (if_pos rfl).symm⟩

theorem redirects_redirect (s : Simulator) (axis : Axis) (preset : Degrees) :
    s.Redirects axis (s.redirect axis preset) := by
  have hpointing := fun a => s.pointing_redirect axis a preset
  refine ⟨(s.redirect_announces axis preset).profile, ?_, fun a ha => ?_, ?_⟩
  · rw [hpointing, if_pos rfl]
  · rw [hpointing, if_neg (Ne.symm ha)]
  · rw [hpointing, if_pos rfl]
    unfold redirect
    dsimp only
    split
    · rename_i hsame
      rw [if_pos hsame.symm]
      rfl
    · rename_i hnew
      rw [if_neg (Ne.symm hnew)]
      rfl

theorem redirects_steer (s : Simulator) (axis : Axis) (preset : Degrees) :
    s.Redirects axis (s.steer axis preset) := by
  unfold steer
  dsimp only
  split
  · exact s.redirects_unmoved axis _
  split
  · exact s.redirects_redirect axis preset
  · exact s.redirects_unmoved axis _

theorem redirects_halt (s : Simulator) (axis : Axis) : s.Redirects axis (s.halt axis) := by
  unfold halt
  split
  · exact s.redirects_redirect axis _
  · exact s.redirects_unmoved axis _

theorem redirects_haltIfAvailable (s : Simulator) (axis : Axis) :
    s.Redirects axis (s.haltIfAvailable axis) := by
  unfold haltIfAvailable
  split
  · exact s.redirects_halt axis
  · exact s.redirects_unmoved axis none

theorem status_of_profile {s after : Simulator} (h : after.profile = s.profile) :
    after.status = ⟨s.status.name, s.status.azimuthOverlap, after.pointing⟩ := by
  rw [status, info, h]
  rfl

/-- The axes with another preset in `after`, each with what is announced of it: the azimuth while
the elevation is as it was. -/
def redirections (s after : Simulator) : List Change :=
  (Axis.all.filter fun axis => (after.pointing.get axis).preset ≠ (s.pointing.get axis).preset).map
    fun axis =>
      let elevation := if axis = .azimuth then s.pointing.elevation else after.pointing.elevation
      ⟨axis, ⟨s.status.name, s.status.azimuthOverlap, ⟨after.pointing.azimuth, elevation⟩⟩⟩

theorem redirections_self (s : Simulator) : s.redirections s = [] := by
  simp [redirections]

/-- Two redirections, of the azimuth first, are announced one after the other. -/
theorem Redirects.changes_append {s : Simulator} {first second : Response Simulator}
    (h : s.Redirects .azimuth first) (h' : first.rotator.Redirects .elevation second) :
    first.changes ++ second.changes = s.redirections second.rotator := by
  -- The first leaves the elevation alone and the second the azimuth, so each shows in the end.
  have hazimuth : second.rotator.pointing.azimuth = first.rotator.pointing.azimuth :=
    h'.other .azimuth (by simp)
  have helevation : first.rotator.pointing.elevation = s.pointing.elevation :=
    h.other .elevation (by simp)
  have hfirst : first.rotator.status = ⟨s.status.name, s.status.azimuthOverlap,
      ⟨second.rotator.pointing.azimuth, s.pointing.elevation⟩⟩ := by
    rw [status_of_profile h.profile, hazimuth, ← helevation]
  have hsecond : second.rotator.status = ⟨s.status.name, s.status.azimuthOverlap,
      second.rotator.pointing⟩ :=
    status_of_profile (h'.profile.trans h.profile)
  rw [h.changes, h'.changes, hfirst, hsecond, redirections]
  simp only [PerAxis.get, ← hazimuth, helevation, Axis.all, List.filter_cons, List.filter_nil]
  by_cases ha : second.rotator.pointing.azimuth.preset = s.pointing.azimuth.preset <;>
    by_cases he : second.rotator.pointing.elevation.preset = s.pointing.elevation.preset <;>
      simp [ha, he]

theorem Redirects.changes_eq {s : Simulator} {axis : Axis} {r : Response Simulator}
    (h : s.Redirects axis r) : r.changes = s.redirections r.rotator := by
  cases axis with
  | azimuth =>
    have := h.changes_append (r.rotator.redirects_unmoved .elevation none)
    rwa [List.append_nil] at this
  | elevation => exact (s.redirects_unmoved .azimuth none).changes_append h

/-! ## Requests -/

theorem profile_execute (s : Simulator) (r : Request) :
    (s.execute r).rotator.profile = s.profile := by
  have hrun := congrArg (·.1.profile) (s.execute_eq_run r)
  exact hrun.trans (s.run_profile _)

/-- The axes that a request is for are announced, if their presets change. -/
theorem changes_execute (s : Simulator) (r : Request) :
    (s.execute r).changes = s.redirections (s.execute r).rotator := by
  obtain ⟨axis, preset, rfl⟩ | ⟨axis, rfl⟩ | rfl := r.forms
  · rw [execute_steerOf]
    exact (s.redirects_steer axis preset).changes_eq
  · rw [execute_stopOf]
    exact (s.redirects_halt axis).changes_eq
  · rw [execute_stop]
    exact (s.redirects_haltIfAvailable .azimuth).changes_append (redirects_haltIfAvailable _ _)

/-- Each axis that a request is for is redirected, if it is available and nothing is refused. -/
theorem pointing_execute (s : Simulator) (r : Request) (axis : Axis) :
    (s.execute r).rotator.pointing.get axis =
      if (s.execute r).refusal = none ∧ axis ∈ r.axes ∧
          (s.profile.limits.get axis).available = true
      then r.redirected (s.pointing.get axis)
      else s.pointing.get axis := by
  obtain ⟨a, preset, rfl⟩ | ⟨a, rfl⟩ | rfl := r.forms
  · rw [execute_steerOf]
    refine (s.pointing_perform (.steer a preset) axis).trans
      (ite_congr (propext ?_) (fun _ => ?_) fun _ => rfl)
    · rw [steer_refusal_eq_none_iff, Request.axes_steerOf, List.mem_singleton]
      constructor
      · rintro ⟨rfl, h⟩
        exact ⟨h, rfl, h.1⟩
      · rintro ⟨h, rfl, -⟩
        exact ⟨rfl, h⟩
    · rw [Request.redirected, Request.preset?_steerOf, Option.getD_some]
  · rw [execute_stopOf]
    refine (s.pointing_perform (.halt a) axis).trans
      (ite_congr (propext ?_) (fun _ => ?_) fun _ => rfl)
    · rw [Request.axes_stopOf, List.mem_singleton]
      constructor
      · rintro ⟨rfl, h⟩
        exact ⟨halt_refusal h, rfl, h⟩
      · rintro ⟨-, rfl, h⟩
        exact ⟨rfl, h⟩
    · rw [Request.redirected, Request.preset?_stopOf, Option.getD_none]
  · have hprofile := s.profile_haltIfAvailable .azimuth
    rw [execute_stop]
    cases axis with
    | azimuth =>
      rw [pointing_haltIfAvailable_other _ (by simp), pointing_haltIfAvailable_self]
      simp [Request.redirected, Request.preset?, Pointing.resting]
    | elevation =>
      rw [pointing_haltIfAvailable_self, hprofile, pointing_haltIfAvailable_other _ (by simp)]
      simp [Request.redirected, Request.preset?, Pointing.resting]

theorem pointing_accepted {s : Simulator} {r : Request} (h : (s.execute r).refusal = none)
    (axis : Axis) :
    (s.execute r).rotator.pointing.get axis =
      if axis ∈ r.axes ∧ (s.profile.limits.get axis).available = true
      then r.redirected (s.pointing.get axis)
      else s.pointing.get axis := by
  rw [pointing_execute]
  simp only [h, true_and]

/-- A request that has been executed has nothing left to do. -/
theorem execute_again {s : Simulator} {r : Request} (h : (s.execute r).refusal = none) :
    (s.execute r).rotator.execute r = .accept (s.execute r).rotator [] := by
  have hrefusal : ((s.execute r).rotator.execute r).refusal = none := by
    rw [refusal_execute_congr (s.profile_execute r), h]
  have hrotator : ((s.execute r).rotator.execute r).rotator = (s.execute r).rotator := by
    refine eq_of_axes (profile_execute _ r) fun axis => ?_
    rw [pointing_accepted hrefusal, profile_execute, pointing_accepted h]
    split
    · exact r.redirected_redirected _
    · rfl
  have hchanges : ((s.execute r).rotator.execute r).changes = [] := by
    rw [changes_execute, hrotator, redirections_self]
  calc (s.execute r).rotator.execute r
      = ⟨((s.execute r).rotator.execute r).refusal, ((s.execute r).rotator.execute r).rotator,
          ((s.execute r).rotator.execute r).changes⟩ := rfl
    _ = .accept (s.execute r).rotator [] := by
      rw [hrefusal, hrotator, hchanges]
      rfl

/-- A request is refused for what the limits forbid, and for nothing else; the full stop never is.
What is refused leaves the simulator as it was and announces nothing. What is not gives the
available axes of the request their presets, the one named or the present heading, and leaves
headings, other axes and the rest alone. It announces each preset that this has changed, once, and
executed again right away it neither changes nor announces anything. -/
theorem request_all_or_nothing (s : Simulator) (r : Request) :
    let response := s.execute r
    let after := response.rotator
    (∀ why, response.refusal = some why ↔ s.profile.Forbids r why) ∧
    (s.execute .stop).refusal = none ∧
    (response.refusal ≠ none → response.Declines s) ∧
    (response.refusal = none →
      after.profile = s.profile ∧
      (∀ axis, after.pointing.get axis =
        if axis ∈ r.axes ∧ (s.profile.limits.get axis).available = true
        then { s.pointing.get axis with preset := r.preset?.getD (s.pointing.get axis).heading }
        else s.pointing.get axis) ∧
      response.changes = s.redirections after ∧
      after.execute r = .accept after []) := by
  intro response after
  refine ⟨s.execute_refusal_iff r, s.stop_refusal, fun h => ?_, fun h => ⟨s.profile_execute r,
    pointing_accepted h, s.changes_execute r, execute_again h⟩⟩
  obtain ⟨why, hwhy⟩ := Option.ne_none_iff_exists'.mp h
  exact declines_execute hwhy

/-- That an axis is missing goes before the value that it was to have. -/
example : ((create turntable).execute (.setElevation 181)).refusal =
    some (.axisUnavailable .elevation) := by decide

end Simulator

end Aerial
