import Aerial.Proofs.Simulator.Limits
import Aerial.Proofs.Simulator.Refusals

/-! # What is stopped stays

An axis rests when its preset is its heading. A halt makes it rest, and no halt, tick or refused
move ends that, so it rests until a preset is accepted for it. The full stop passes over an axis
that is unavailable while the ticks do not; but such an axis has rested since the simulator was
made. Nothing is assumed of the state the stop finds, except that moves have led there from the
start. -/

namespace Aerial

/-- The request that stops one axis. -/
def Request.stopOf : Axis → Request
  | .azimuth => stopAzimuth
  | .elevation => stopElevation

def Pointing.Rests (p : Pointing) : Prop := p.preset = p.heading

namespace Simulator

/-! ## Accepted presets -/

theorem steer_refusal_eq_none_iff {s : Simulator} {axis : Axis} {preset : Degrees} :
    (s.steer axis preset).refusal = none ↔
      (s.profile.limits.get axis).available = true ∧
        (s.profile.limits.get axis).allows preset = true := by
  rw [steer_refusal]
  cases (s.profile.limits.get axis).available with
  | false => simp
  | true => simp

/-- No preset is accepted for the axis by any of these moves. -/
def Unsteered (s : Simulator) (axis : Axis) (moves : List Move) : Prop :=
  ∀ before preset after, moves = before ++ .steer axis preset :: after →
    ((s.run before).1.steer axis preset).refusal ≠ none

/-- What is accepted does not depend on the moves before. -/
theorem unsteered_iff {s : Simulator} {axis : Axis} {moves : List Move} :
    s.Unsteered axis moves ↔ ∀ preset, .steer axis preset ∈ moves →
      ¬((s.profile.limits.get axis).available = true ∧
        (s.profile.limits.get axis).allows preset = true) := by
  constructor
  · intro h preset hmem
    obtain ⟨before, after, hsplit⟩ := List.append_of_mem hmem
    have hrefused := h before preset after hsplit
    rwa [ne_eq, steer_refusal_eq_none_iff, run_profile] at hrefused
  · rintro h before preset after rfl
    rw [ne_eq, steer_refusal_eq_none_iff, run_profile]
    exact h preset (by simp)

/-! ## An axis at rest -/

theorem Move.turn_of_rests {axis : Axis} {l : Limits} {pace : Int} {p : Pointing} {m : Move}
    (hpace : 0 ≤ pace) (rests : p.Rests)
    (refused : ∀ preset, m = .steer axis preset →
      ¬(l.available = true ∧ l.allows preset = true)) :
    m.turn axis l pace p = p := by
  obtain ⟨heading, preset⟩ := p
  obtain rfl : preset = heading := rests
  cases m with
  | steer a preset =>
    rw [turn, if_neg]
    rintro ⟨rfl, haccepted⟩
    exact refused preset rfl haccepted
  | halt a => rw [turn, ite_self]
  | tick => rw [turn, Degrees.toward_self _ hpace]

/-- An axis that rests is neither moved nor announced, until a preset is accepted for it. -/
theorem run_of_rests {s : Simulator} {axis : Axis} {moves : List Move}
    (rests : (s.pointing.get axis).Rests) (h : s.Unsteered axis moves) :
    (s.run moves).1.pointing.get axis = s.pointing.get axis ∧
      ∀ c ∈ (s.run moves).2, c.axis ≠ axis := by
  rw [unsteered_iff] at h
  induction moves generalizing s with
  | nil => exact ⟨rfl, by simp [run]⟩
  | cons m moves ih =>
    have hprofile := (s.perform_announces m).profile
    have hkept : (s.perform m).rotator.pointing.get axis = s.pointing.get axis := by
      rw [pointing_perform]
      exact Move.turn_of_rests s.profile.pace_nonneg rests
        fun preset hm => h preset (hm ▸ List.mem_cons_self)
    have hsilent := s.changes_perform_axis m axis
    rw [if_pos hkept.symm] at hsilent
    obtain ⟨hpointing, hchanges⟩ := @ih (s.perform m).rotator (hkept ▸ rests) <| by
      rw [hprofile]
      exact fun preset hmem => h preset (List.mem_cons_of_mem m hmem)
    refine ⟨hpointing.trans hkept, fun c hc => ?_⟩
    rcases List.mem_append.mp hc with hc | hc
    · simpa using List.filter_eq_nil_iff.mp hsilent c hc
    · exact hchanges c hc

/-! ## What a stop makes rest -/

/-- An axis that a stop passes over rests already. -/
def Idles (s : Simulator) (axis : Axis) : Prop :=
  (s.profile.limits.get axis).available = false → (s.pointing.get axis).Rests

theorem idles_run (p : Profile) (moves : List Move) (axis : Axis) :
    ((create p).run moves).1.Idles axis := by
  intro unavailable
  rw [run_profile] at unavailable
  rw [(confined_run p moves axis).rests (.inl unavailable)]
  rfl

theorem halt_available {s : Simulator} {axis : Axis} (h : (s.halt axis).refusal = none) :
    (s.profile.limits.get axis).available = true := by
  rw [halt] at h
  split at h
  · assumption
  · cases h

theorem pointing_halt {s : Simulator} {axis : Axis}
    (available : (s.profile.limits.get axis).available = true) :
    (s.halt axis).rotator.pointing.get axis = .resting (s.pointing.get axis).heading := by
  rw [halt, if_pos available, pointing_redirect, if_pos rfl]
  rfl

theorem pointing_haltIfAvailable_self (s : Simulator) (axis : Axis) :
    (s.haltIfAvailable axis).rotator.pointing.get axis =
      if (s.profile.limits.get axis).available = true then .resting (s.pointing.get axis).heading
      else s.pointing.get axis := by
  split
  · rename_i available
    rw [haltIfAvailable, if_pos available]
    exact pointing_halt available
  · rename_i unavailable
    rw [haltIfAvailable, if_neg unavailable]
    rfl

theorem pointing_haltIfAvailable {s : Simulator} {axis : Axis} (h : s.Idles axis) :
    (s.haltIfAvailable axis).rotator.pointing.get axis =
      .resting (s.pointing.get axis).heading := by
  rw [pointing_haltIfAvailable_self]
  split
  · rfl
  · rename_i unavailable
    have hrests := h (Bool.not_eq_true _ ▸ unavailable)
    exact congrArg (Pointing.mk _) hrests

theorem pointing_haltIfAvailable_other (s : Simulator) {axis other : Axis} (h : other ≠ axis) :
    (s.haltIfAvailable axis).rotator.pointing.get other = s.pointing.get other := by
  rw [haltIfAvailable]
  split
  · exact (s.pointing_perform (.halt axis) other).trans (if_neg fun hsame => h hsame.1.symm)
  · rfl

theorem profile_haltIfAvailable (s : Simulator) (axis : Axis) :
    (s.haltIfAvailable axis).rotator.profile = s.profile := by
  have hrun := congrArg Prod.fst (s.haltIfAvailable_eq_run axis).2
  exact (congrArg Simulator.profile hrun).trans (s.run_profile _)

/-- The full stop makes both axes rest where they are. -/
theorem pointing_stop {s : Simulator} (h : ∀ axis, s.Idles axis) (axis : Axis) :
    (s.execute .stop).rotator.pointing.get axis = .resting (s.pointing.get axis).heading := by
  have hother : (s.haltIfAvailable .azimuth).rotator.pointing.get .elevation
      = s.pointing.get .elevation := s.pointing_haltIfAvailable_other (by simp)
  rw [execute_stop]
  cases axis with
  | azimuth =>
    exact (pointing_haltIfAvailable_other _ (by simp)).trans (pointing_haltIfAvailable (h .azimuth))
  | elevation =>
    have hidles : (s.haltIfAvailable .azimuth).rotator.Idles .elevation := by
      rw [Idles, profile_haltIfAvailable, hother]
      exact h .elevation
    rw [pointing_haltIfAvailable hidles, hother]

/-! ## From a stop on -/

/-- From `t` on the axis keeps the heading that it has in `s`, and is not announced, until a preset
is accepted for it. -/
def Keeps (s t : Simulator) (axis : Axis) : Prop :=
  ∀ later, t.Unsteered axis later →
    ((t.run later).1.pointing.get axis).heading = (s.pointing.get axis).heading ∧
      ∀ c ∈ (t.run later).2, c.axis ≠ axis

theorem keeps_of_resting {s t : Simulator} {axis : Axis}
    (h : t.pointing.get axis = .resting (s.pointing.get axis).heading) : s.Keeps t axis := by
  intro later hlater
  have hrests : (t.pointing.get axis).Rests := by
    rw [h]
    rfl
  obtain ⟨hpointing, hchanges⟩ := run_of_rests hrests hlater
  rw [hpointing, h]
  exact ⟨rfl, hchanges⟩

/-- The full stop succeeds, and from then on neither axis moves and nothing is announced, until a
preset is accepted: not by ticks, nor by halts, nor by moves that are refused. Each axis keeps its
heading by itself, whatever is accepted for the other; so it does after a stop of that axis alone
that succeeds, and after either half of the full stop, in case others come in between. Requests are
runs of the moves that are counted here. -/
theorem stop_holds (p : Profile) (before : List Move) :
    let s := ((create p).run before).1
    let stopped := (s.execute .stop).rotator
    (s.execute .stop).refusal = none ∧
    (∀ later, (∀ axis, stopped.Unsteered axis later) →
      (stopped.run later).2 = [] ∧
      ∀ axis, ((stopped.run later).1.pointing.get axis).heading = (s.pointing.get axis).heading) ∧
    (∀ axis, s.Keeps stopped axis) ∧
    (∀ axis, (s.execute (.stopOf axis)).refusal = none →
      s.Keeps (s.execute (.stopOf axis)).rotator axis) ∧
    (∀ axis, (s.haltIfAvailable axis).refusal = none ∧
      s.Keeps (s.haltIfAvailable axis).rotator axis) ∧
    ∀ (t : Simulator) (r : Request),
      t.run (r.moves t.profile) = ((t.execute r).rotator, (t.execute r).changes) := by
  intro s stopped
  have hidles : ∀ axis, s.Idles axis := idles_run p before
  have hkeeps : ∀ axis, s.Keeps stopped axis := fun axis =>
    keeps_of_resting (pointing_stop hidles axis)
  refine ⟨s.stop_refusal, fun later hlater => ⟨?_, fun axis => (hkeeps axis later (hlater axis)).1⟩,
    hkeeps, fun axis haccepted => ?_, fun axis => ?_, fun t r => (t.execute_eq_run r).symm⟩
  · exact List.eq_nil_iff_forall_not_mem.mpr fun c hc =>
      (hkeeps c.axis later (hlater c.axis)).2 c hc rfl
  · have hhalt : s.execute (.stopOf axis) = s.halt axis := by cases axis <;> rfl
    rw [hhalt] at haccepted ⊢
    exact keeps_of_resting (pointing_halt (halt_available haccepted))
  · exact ⟨(s.haltIfAvailable_eq_run axis).1,
      keeps_of_resting (pointing_haltIfAvailable (hidles axis))⟩

/-- A rotator that turns, but not up and down. -/
def turntable : Profile :=
  { Profile.standard with limits := ⟨⟨true, 0, 450, 0⟩, ⟨false, 0, 180, 0⟩⟩ }

/-- Stopped on its way, a turntable stays where it is, though it is ticked and told what it
refuses. -/
theorem stop_holds_midway :
    let s := ((create turntable).run [.steer .azimuth 90, .tick, .tick]).1
    let stopped := (s.execute .stop).rotator
    let later := [.tick, .steer .azimuth 451, .steer .elevation 10, .halt .elevation, .tick]
    s.pointing.get .azimuth = ⟨10, 90⟩ ∧ (∀ axis, stopped.Unsteered axis later) ∧
      (stopped.run later).2 = [] ∧
      ((stopped.run later).1.pointing.get .azimuth).heading = 10 := by
  intro s stopped later
  have hunsteered : ∀ axis, stopped.Unsteered axis later := by
    intro axis
    rw [unsteered_iff]
    intro preset hmem
    simp only [later, List.mem_cons, Move.steer.injEq, reduceCtorEq, List.not_mem_nil, false_or,
      or_false] at hmem
    rcases hmem with ⟨rfl, rfl⟩ | ⟨rfl, rfl⟩
    · decide
    · decide
  obtain ⟨hchanges, hheadings⟩ := (stop_holds turntable _).2.1 later hunsteered
  exact ⟨by decide, hunsteered, hchanges, (hheadings .azimuth).trans (by decide)⟩

end Simulator

end Aerial
