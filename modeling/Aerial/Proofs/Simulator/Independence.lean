import Aerial.Proofs.Simulator.Requests
import Aerial.Proofs.Simulator.Slewing
import Aerial.Proofs.Tasks

/-! # One axis tells nothing of the other

The protected quantity is what is seen of an axis at the tasks that concern it: what was refused,
where the axis points afterwards, and what was announced of it. A task that does not concern the
axis leaves it where it is and does not announce it, and two simulators that agree on the axis show
the same of it at any task. So what is seen in a run depends on the tasks that concern the axis
alone, whatever is done with the other one in between. Ticks and the full stop concern both axes. A
full stop that comes in two halves, with tasks of others between them, is covered as well, because a
half is a move of its own. -/

namespace Aerial

/-- The axes that a task concerns. -/
def Task.axes : Task → List Axis
  | request r => r.axes
  | move m => m.axis?.elim Axis.all ([·])

namespace Simulator

/-- What is seen of one axis when a task is carried out: what was refused, where the axis points
then, and where it was announced to point. -/
structure View where
  task : Task
  refusal : Option Refusal
  pointing : Pointing
  announced : List Pointing
deriving DecidableEq

/-- Where an axis points by the announcements of it. -/
def announcedOf (axis : Axis) (cs : List Change) : List Pointing :=
  (cs.filter (·.axis = axis)).map fun c => c.status.pointing.get axis

def view (s : Simulator) (axis : Axis) (t : Task) : View where
  task := t
  refusal := (s.carryOut t).refusal
  pointing := (s.carryOut t).rotator.pointing.get axis
  announced := announcedOf axis (s.carryOut t).changes

/-- What is seen of an axis in a run, at the tasks that concern it. -/
def views (axis : Axis) : Simulator → List Task → List View
  | _, [] => []
  | s, t :: tasks =>
    let rest := views axis (s.carryOut t).rotator tasks
    if axis ∈ t.axes then s.view axis t :: rest else rest

/-! ## Announcements of an axis -/

theorem announcedOf_append (axis : Axis) (cs ds : List Change) :
    announcedOf axis (cs ++ ds) = announcedOf axis cs ++ announcedOf axis ds := by
  simp [announcedOf]

theorem announcedOf_redirections (s after : Simulator) (axis : Axis) :
    announcedOf axis (s.redirections after) =
      if (after.pointing.get axis).preset = (s.pointing.get axis).preset then []
      else [after.pointing.get axis] := by
  by_cases ha : after.pointing.azimuth.preset = s.pointing.azimuth.preset <;>
    by_cases he : after.pointing.elevation.preset = s.pointing.elevation.preset <;>
      cases axis <;> simp [announcedOf, redirections, Axis.all, PerAxis.get, ha, he]

theorem heading_execute (s : Simulator) (r : Request) (axis : Axis) :
    ((s.execute r).rotator.pointing.get axis).heading = (s.pointing.get axis).heading := by
  rw [pointing_execute]
  split <;> rfl

/-- Whatever is carried out, an axis is announced once if it comes to point differently, and else
not at all. -/
theorem announcedOf_carryOut (s : Simulator) (axis : Axis) (t : Task) :
    announcedOf axis (s.carryOut t).changes =
      if (s.carryOut t).rotator.pointing.get axis = s.pointing.get axis then []
      else [(s.carryOut t).rotator.pointing.get axis] := by
  cases t with
  | request r =>
    have hheading := s.heading_execute r axis
    rw [carryOut, changes_execute, announcedOf_redirections]
    -- A request leaves headings alone, so an axis points differently only by its preset.
    refine ite_congr (propext ⟨fun hpreset => ?_, congrArg Pointing.preset⟩) (fun _ => rfl)
      fun _ => rfl
    calc (s.execute r).rotator.pointing.get axis
        = ⟨((s.execute r).rotator.pointing.get axis).heading,
            ((s.execute r).rotator.pointing.get axis).preset⟩ := rfl
      _ = s.pointing.get axis := by rw [hheading, hpreset]
  | move m =>
    rw [carryOut, announcedOf, changes_perform_axis]
    by_cases h : s.pointing.get axis = (s.perform m).rotator.pointing.get axis
    · rw [if_pos h, if_pos h.symm]
      rfl
    · rw [if_neg h, if_neg (Ne.symm h)]
      rfl

/-! ## Agreement on an axis -/

/-- Two simulators of one profile that point alike with this axis. -/
structure Agree (axis : Axis) (s s' : Simulator) : Prop where
  profile : s.profile = s'.profile
  pointing : s.pointing.get axis = s'.pointing.get axis

theorem profile_carryOut (s : Simulator) (t : Task) : (s.carryOut t).rotator.profile = s.profile := by
  cases t with
  | request r => exact s.profile_execute r
  | move m => exact (s.perform_announces m).profile

theorem Agree.refusal {axis : Axis} {s s' : Simulator} (h : Agree axis s s') (t : Task) :
    (s.carryOut t).refusal = (s'.carryOut t).refusal := by
  cases t with
  | request r => exact refusal_execute_congr h.profile r
  | move m =>
    cases m with
    | steer a preset => simp only [carryOut, perform, steer_refusal, h.profile]
    | halt a => simp only [carryOut, perform, halt_refusal_eq, h.profile]
    | tick => rfl

theorem Agree.carryOut {axis : Axis} {s s' : Simulator} (h : Agree axis s s') (t : Task) :
    Agree axis (s.carryOut t).rotator (s'.carryOut t).rotator := by
  refine ⟨by rw [profile_carryOut, profile_carryOut, h.profile], ?_⟩
  cases t with
  | request r =>
    have hrefusal := h.refusal (.request r)
    simp only [Simulator.carryOut] at hrefusal ⊢
    rw [pointing_execute, pointing_execute, hrefusal, h.profile, h.pointing]
  | move m =>
    simp only [Simulator.carryOut, pointing_perform, h.profile, h.pointing]

/-- Simulators that agree on an axis show the same of it. -/
theorem Agree.view {axis : Axis} {s s' : Simulator} (h : Agree axis s s') (t : Task) :
    s.view axis t = s'.view axis t := by
  simp only [Simulator.view, h.refusal t, (h.carryOut t).pointing, announcedOf_carryOut, h.pointing]

/-- A task leaves an axis alone that it does not concern. -/
theorem pointing_unconcerned (s : Simulator) {axis : Axis} {t : Task} (h : axis ∉ t.axes) :
    (s.carryOut t).rotator.pointing.get axis = s.pointing.get axis := by
  cases t with
  | request r =>
    rw [carryOut, pointing_execute, if_neg]
    exact fun hconcerned => h hconcerned.2.1
  | move m =>
    rw [carryOut, pointing_perform]
    refine Move.turn_of_spared (fun htick => h ?_) (fun hsame => h ?_) ..
    · rw [htick]
      exact axis.mem_all
    · rw [Task.axes, hsame]
      exact List.mem_singleton_self axis

/-! ## Runs -/

/-- In a run only those tasks count that concern the axis. -/
theorem Agree.views {axis : Axis} {s s' : Simulator} (h : Agree axis s s') (tasks : List Task) :
    views axis s tasks = views axis s' (tasks.filter (axis ∈ ·.axes)) := by
  induction tasks generalizing s s' with
  | nil => rfl
  | cons t tasks ih =>
    by_cases ht : axis ∈ t.axes
    · rw [List.filter_cons_of_pos (by simpa using ht)]
      simp only [Simulator.views, if_pos ht]
      rw [h.view t, ih (h.carryOut t)]
    · rw [List.filter_cons_of_neg (by simpa using ht)]
      simp only [Simulator.views, if_neg ht]
      exact ih ⟨(s.profile_carryOut t).trans h.profile,
        (s.pointing_unconcerned ht).trans h.pointing⟩

/-- Where an axis points at the end of a run was seen at the last task that concerned it. -/
theorem pointing_work (s : Simulator) (axis : Axis) (tasks : List Task) :
    (s.work tasks).1.pointing.get axis =
      ((views axis s tasks).getLast?.map View.pointing).getD (s.pointing.get axis) := by
  induction tasks generalizing s with
  | nil => rfl
  | cons t tasks ih =>
    have hrest := ih (s.carryOut t).rotator
    by_cases ht : axis ∈ t.axes
    · rw [Simulator.views, if_pos ht, List.getLast?_cons]
      refine hrest.trans ?_
      cases (views axis (s.carryOut t).rotator tasks).getLast? <;> rfl
    · rw [Simulator.views, if_neg ht, ← s.pointing_unconcerned ht]
      exact hrest

/-- All announcements of an axis were seen at tasks that concerned it. -/
theorem announcedOf_work (s : Simulator) (axis : Axis) (tasks : List Task) :
    announcedOf axis (s.work tasks).2 = (views axis s tasks).flatMap View.announced := by
  induction tasks generalizing s with
  | nil => rfl
  | cons t tasks ih =>
    have hrest := ih (s.carryOut t).rotator
    have hall : announcedOf axis (s.work (t :: tasks)).2 =
        announcedOf axis (s.carryOut t).changes ++
          (views axis (s.carryOut t).rotator tasks).flatMap View.announced := by
      rw [← hrest]
      exact announcedOf_append ..
    by_cases ht : axis ∈ t.axes
    · rw [hall, Simulator.views, if_pos ht, List.flatMap_cons]
      rfl
    · rw [hall, Simulator.views, if_neg ht, announcedOf_carryOut, if_pos (s.pointing_unconcerned ht),
        List.nil_append]

/-- Tasks that concern different axes can be carried out in either order. -/
theorem carryOut_comm (s : Simulator) {t u : Task} (h : t.axes.Disjoint u.axes) :
    ((s.carryOut t).rotator.carryOut u).rotator = ((s.carryOut u).rotator.carryOut t).rotator := by
  refine eq_of_axes (by simp only [profile_carryOut]) fun axis => ?_
  -- On each axis one of the two does nothing, and the other finds it as it was.
  by_cases ht : axis ∈ t.axes
  · have hu : axis ∉ u.axes := fun hu => h ht hu
    rw [pointing_unconcerned _ hu]
    exact (Agree.carryOut ⟨(s.profile_carryOut u).symm, (s.pointing_unconcerned hu).symm⟩ t).pointing
  · rw [pointing_unconcerned (s.carryOut u).rotator ht]
    exact (Agree.carryOut ⟨s.profile_carryOut t, s.pointing_unconcerned ht⟩ u).pointing

/-- Two runs in which the same tasks concern an axis, in the same order, show the same of it at
these tasks, whatever is done with the other axis in between: the same refusals, the same heading
and preset afterwards, and the same announcements. What is seen there is all there is: in any run the
axis points as was seen last, and it is not announced but as was seen. Tasks that concern different
axes may change places. -/
theorem axes_independent (p : Profile) (axis : Axis) {tasks tasks' : List Task}
    (alike : tasks.filter (axis ∈ ·.axes) = tasks'.filter (axis ∈ ·.axes)) :
    let s := create p
    views axis s tasks = views axis s tasks' ∧
    (∀ run, (s.work run).1.pointing.get axis =
        ((views axis s run).getLast?.map View.pointing).getD (s.pointing.get axis) ∧
      announcedOf axis (s.work run).2 = (views axis s run).flatMap View.announced) ∧
    ∀ t u : Task, t.axes.Disjoint u.axes →
      let now := (s.work tasks).1
      ((now.carryOut t).rotator.carryOut u).rotator =
        ((now.carryOut u).rotator.carryOut t).rotator := by
  intro s
  refine ⟨?_, fun run => ⟨s.pointing_work axis run, s.announcedOf_work axis run⟩,
    fun t u h => carryOut_comm _ h⟩
  have hself : Agree axis s s := ⟨rfl, rfl⟩
  rw [hself.views tasks, alike, ← hself.views tasks']

/-- A rotator is turned and stopped, and it is nodded meanwhile in one run and not in the other. -/
theorem axes_independent_nodding :
    let turning : List Task := [.request (.setAzimuth 12), .move .tick, .request .stop, .move .tick]
    let nodding : List Task := [.request (.setElevation 181), .request (.setAzimuth 12),
      .request (.setElevation 90), .move .tick, .request .stopElevation, .move (.halt .elevation),
      .request .stop, .request (.setElevation 0), .move .tick]
    views .azimuth (create .standard) nodding = views .azimuth (create .standard) turning ∧
      (views .azimuth (create .standard) nodding).map View.announced =
        [[⟨0, 12⟩], [⟨5, 12⟩], [⟨5, 5⟩], []] := by
  intro turning nodding
  have h := (@axes_independent .standard .azimuth nodding turning (by decide)).1
  exact ⟨h, by decide⟩

end Simulator

end Aerial
