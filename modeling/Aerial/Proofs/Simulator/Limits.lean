import Aerial.Proofs.Simulator.Axes

/-! # A simulator stays within its limits

The protected quantity is where an axis points: its heading and its preset lie between the lowest
and the highest heading of the axis, or at the lowest if the two are out of order. The axis starts
there, it is steered only to headings that are allowed, it is halted where it is, and a tick takes
its heading towards the preset and never past it. An axis that cannot be steered, because it is
unavailable or because no heading is allowed on it, rests where it started. Nothing is assumed of
the profile: limits may be out of order, the initial heading may lie outside, and the step may be
zero or less. -/

namespace Aerial

/-! ## Approaching -/

/-- A heading moved towards its goal stays between the two. -/
theorem Degrees.toward_between (a goal : Degrees) {pace : Int} (h : 0 ≤ pace) :
    min a.val goal.val ≤ (a.toward goal pace).val ∧
      (a.toward goal pace).val ≤ max a.val goal.val := by
  have halo := a.ge_lowest
  have hahi := a.le_highest
  have hglo := goal.ge_lowest
  have hghi := goal.le_highest
  simp only [toward, clamp, lowest, highest] at *
  omega

theorem Degrees.toward_self (a : Degrees) {pace : Int} (h : 0 ≤ pace) :
    a.toward a pace = a := by
  have hbetween := a.toward_between a h
  exact ext_val (by omega)

theorem Profile.pace_nonneg (p : Profile) : 0 ≤ p.pace := by
  simp only [pace]
  omega

/-! ## Limits -/

namespace Limits

/-- Where an axis with these limits may point. -/
def Spans (l : Limits) (a : Degrees) : Prop :=
  l.lowest.val ≤ a.val ∧ a.val ≤ max l.lowest.val l.highest.val

/-- An axis with these limits cannot be steered. -/
def Fixed (l : Limits) : Prop := l.available = false ∨ l.highest.val < l.lowest.val

theorem spans_of_allows {l : Limits} {a : Degrees} (h : l.allows a = true) : l.Spans a := by
  simp only [allows, decide_eq_true_eq] at h
  exact ⟨h.1, by omega⟩

/-- No heading is both allowed and available on a fixed axis. -/
theorem not_fixed {l : Limits} {a : Degrees} (available : l.available = true)
    (h : l.allows a = true) : ¬l.Fixed := by
  simp only [allows, decide_eq_true_eq] at h
  rintro (hfixed | hfixed)
  · rw [available] at hfixed
    cases hfixed
  · omega

theorem Spans.toward {l : Limits} {a goal : Degrees} {pace : Int} (ha : l.Spans a)
    (hgoal : l.Spans goal) (h : 0 ≤ pace) : l.Spans (a.toward goal pace) := by
  have hbetween := a.toward_between goal h
  unfold Spans at *
  omega

end Limits

namespace Simulator

/-! ## One axis -/

/-- An axis with these limits that started at `origin` points like this. -/
structure Confined (l : Limits) (origin : Degrees) (p : Pointing) : Prop where
  heading : l.Spans p.heading
  preset : l.Spans p.preset
  rests : l.Fixed → p = .resting origin

theorem spans_start (p : Profile) (axis : Axis) : (p.limits.get axis).Spans (p.start axis) := by
  simp only [Profile.start, Degrees.within, Limits.Spans]
  omega

theorem confined_start (p : Profile) (axis : Axis) :
    Confined (p.limits.get axis) (p.start axis) ((create p).pointing.get axis) := by
  have hresting : (create p).pointing.get axis = .resting (p.start axis) := by
    cases axis <;> rfl
  rw [hresting]
  exact ⟨spans_start p axis, spans_start p axis, fun _ => rfl⟩

/-- What a move makes of an axis keeps to its limits. -/
theorem Confined.turn {l : Limits} {origin : Degrees} {p : Pointing} {pace : Int}
    (h : Confined l origin p) (hpace : 0 ≤ pace) (axis : Axis) (m : Move) :
    Confined l origin (m.turn axis l pace p) := by
  cases m with
  | steer a preset =>
    rw [Move.turn]
    split
    · rename_i hguard
      obtain ⟨-, havailable, hallows⟩ := hguard
      exact ⟨h.heading, Limits.spans_of_allows hallows,
        fun hfixed => absurd hfixed (Limits.not_fixed havailable hallows)⟩
    · exact h
  | halt a =>
    rw [Move.turn]
    split
    · refine ⟨h.heading, h.heading, fun hfixed => ?_⟩
      rw [h.rests hfixed]
      rfl
    · exact h
  | tick =>
    refine ⟨h.heading.toward h.preset hpace, h.preset, fun hfixed => ?_⟩
    rw [Move.turn, h.rests hfixed]
    exact congrArg (Pointing.mk · origin) (origin.toward_self hpace)

theorem Confined.turns {l : Limits} {origin : Degrees} {p : Pointing} {pace : Int}
    (h : Confined l origin p) (hpace : 0 ≤ pace) (axis : Axis) (moves : List Move) :
    Confined l origin (moves.foldl (fun p m => m.turn axis l pace p) p) := by
  induction moves generalizing p with
  | nil => exact h
  | cons m moves ih => exact ih (h.turn hpace axis m)

/-! ## Whole runs -/

theorem confined_run (p : Profile) (moves : List Move) (axis : Axis) :
    Confined (p.limits.get axis) (p.start axis) (((create p).run moves).1.pointing.get axis) := by
  rw [pointing_run]
  exact (confined_start p axis).turns p.pace_nonneg axis moves

/-- Whatever its profile and whatever was done with it, a simulator has heading and preset of each
axis between the lowest and the highest heading, the latter not counting below the former, and
tells the name and limits it was built with. An axis that is unavailable, or whose highest heading
is below its lowest, still points, heading and preset alike, to the initial heading cut to the
limits. Requests are no exception, since each is a run of moves. -/
theorem stays_within_limits (p : Profile) (moves : List Move) (axis : Axis) :
    let s := ((create p).run moves).1
    let l := p.limits.get axis
    let q := s.pointing.get axis
    (l.lowest.val ≤ q.heading.val ∧ q.heading.val ≤ max l.lowest.val l.highest.val) ∧
    (l.lowest.val ≤ q.preset.val ∧ q.preset.val ≤ max l.lowest.val l.highest.val) ∧
    s.profile = p ∧
    s.info = ⟨p.name, decide (360 < p.limits.azimuth.highest.val), p.limits, s.pointing⟩ ∧
    (l.available = false ∨ l.highest.val < l.lowest.val → q.preset = q.heading ∧
      q.heading.val =
        max l.lowest.val (min (max l.lowest.val l.highest.val) (p.initial.get axis).val)) ∧
    ∀ r : Request, (s.execute r).rotator = ((create p).run (moves ++ r.moves p)).1 := by
  intro s l q
  have hconfined : Confined l (p.start axis) q := confined_run p moves axis
  have hprofile : s.profile = p := run_profile ..
  refine ⟨hconfined.heading, hconfined.preset, hprofile, ?_, ?_, ?_⟩
  · rw [info, hprofile]
    rfl
  · intro hfixed
    rw [hconfined.rests hfixed]
    exact ⟨rfl, rfl⟩
  · intro r
    have hrequest := s.execute_eq_run r
    rw [hprofile] at hrequest
    rw [run_append]
    exact congrArg (·.1) hrequest

end Simulator

end Aerial
