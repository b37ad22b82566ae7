import Aerial.Proofs.Simulator.Limits
import Mathlib.Algebra.Order.Floor.Div

/-! # How an axis comes to its preset

Arithmetic on headings saturates at both ends of their range, but no saturation ever shows: the
distance is cut to the pace, and the pace is itself a heading. So a tick moves the axis in exact
integers, and so do any number of ticks while nobody commands the axis. What is done with the other
axis meanwhile does not count. The axis is announced by each tick that moves it, which are as many
as it takes to cover the distance. -/

namespace Aerial

/-! ## One tick -/

/-- No saturation shows in a move. -/
theorem Degrees.toward_val (a goal : Degrees) {pace : Int} (hpos : 0 ≤ pace)
    (hle : pace ≤ Degrees.highest) :
    (a.toward goal pace).val = a.val + max (-pace) (min pace (goal.val - a.val)) := by
  have halo := a.ge_lowest
  have hahi := a.le_highest
  have hglo := goal.ge_lowest
  have hghi := goal.le_highest
  simp only [toward, clamp, lowest, highest] at *
  omega

theorem Profile.one_le_pace (p : Profile) : 1 ≤ p.pace := Int.le_max_right ..

theorem Profile.pace_le_highest (p : Profile) : p.pace ≤ Degrees.highest :=
  Int.max_le.mpr ⟨p.step.le_highest, by decide⟩

namespace Simulator

/-- The axis that a move is a command for. -/
def Move.axis? : Move → Option Axis
  | steer axis _ => some axis
  | halt axis => some axis
  | tick => none

theorem Move.turn_of_spared {axis : Axis} {m : Move} (hm : m ≠ .tick)
    (spared : m.axis? ≠ some axis) (l : Limits) (pace : Int) (p : Pointing) :
    m.turn axis l pace p = p := by
  cases m with
  | steer a preset => exact if_neg fun h => spared (congrArg some h.1)
  | halt a => exact if_neg fun h => spared (congrArg some h.1)
  | tick => exact absurd rfl hm

/-! ## Many ticks -/

/-- The heading after `way` degrees towards the preset, and not past it. -/
def along (p : Pointing) (way : Nat) : Int :=
  p.heading.val + max (-(way : Int)) (min way (p.preset.val - p.heading.val))

/-- How far the heading is from the preset. -/
def distance (p : Pointing) : Nat := (p.preset.val - p.heading.val).natAbs

theorem heading_tick {p : Pointing} {pace : Int} (hpos : 1 ≤ pace) (hle : pace ≤ Degrees.highest)
    (axis : Axis) (l : Limits) :
    (Move.tick.turn axis l pace p).heading.val = along p pace.toNat := by
  rw [Move.turn, p.heading.toward_val p.preset (by omega) hle, along,
    Int.toNat_of_nonneg (by omega)]

theorem distance_tick {p : Pointing} {pace : Int} (hpos : 1 ≤ pace) (hle : pace ≤ Degrees.highest)
    (axis : Axis) (l : Limits) :
    distance (Move.tick.turn axis l pace p) = distance p - pace.toNat := by
  have hheading := heading_tick hpos hle axis l (p := p)
  have hpreset : (Move.tick.turn axis l pace p).preset = p.preset := rfl
  simp only [distance, hheading, hpreset, along]
  omega

/-- A tick moves the axis unless it is where it was told to go. -/
theorem tick_eq_self_iff {p : Pointing} {pace : Int} (hpos : 1 ≤ pace)
    (hle : pace ≤ Degrees.highest) (axis : Axis) (l : Limits) :
    p = Move.tick.turn axis l pace p ↔ distance p = 0 := by
  have hheading := heading_tick hpos hle axis l (p := p)
  constructor
  · intro h
    rw [← h] at hheading
    simp only [along, distance] at *
    omega
  · intro h
    have hsame : (p.heading.toward p.preset pace).val = p.heading.val := by
      refine hheading.trans ?_
      simp only [along, distance] at *
      omega
    exact congrArg (Pointing.mk · p.preset) (Degrees.ext_val hsame.symm)

theorem turns_of_spared {axis : Axis} {l : Limits} {pace : Int} (hpos : 1 ≤ pace)
    (hle : pace ≤ Degrees.highest) {moves : List Move}
    (spared : ∀ m ∈ moves, m.axis? ≠ some axis) (p : Pointing) :
    let q := moves.foldl (fun p m => m.turn axis l pace p) p
    q.preset = p.preset ∧ q.heading.val = along p (moves.count .tick * pace.toNat) := by
  induction moves generalizing p with
  | nil => exact ⟨rfl, by simp [along]⟩
  | cons m moves ih =>
    obtain ⟨hm, hmoves⟩ := List.forall_mem_cons.mp spared
    obtain ⟨hpreset, hheading⟩ := ih hmoves (m.turn axis l pace p)
    by_cases htick : m = .tick
    · subst htick
      have hstep := heading_tick hpos hle axis l (p := p)
      refine ⟨hpreset, hheading.trans ?_⟩
      have hkept : (Move.tick.turn axis l pace p).preset = p.preset := rfl
      rw [List.count_cons_self, Nat.add_one_mul]
      simp only [along, hkept] at hstep ⊢
      omega
    · rw [List.foldl_cons, List.count_cons_of_ne htick]
      rw [Move.turn_of_spared htick hm] at hpreset hheading ⊢
      exact ⟨hpreset, hheading⟩

/-- While nobody commands the axis, each tick takes it a pace along. -/
theorem pointing_of_spared {s : Simulator} {axis : Axis} {moves : List Move}
    (spared : ∀ m ∈ moves, m.axis? ≠ some axis) :
    let q := (s.run moves).1.pointing.get axis
    q.preset = (s.pointing.get axis).preset ∧
      q.heading.val = along (s.pointing.get axis) (moves.count .tick * s.profile.pace.toNat) := by
  rw [pointing_run]
  exact turns_of_spared s.profile.one_le_pace s.profile.pace_le_highest spared _

/-! ## Announcements -/

/-- The distance takes one tick more than what is left of it after a tick. -/
theorem min_ceilDiv_succ {S : Nat} (hS : 0 < S) (n d : Nat) :
    min (n + 1) (d ⌈/⌉ S) = (if d = 0 then 0 else 1) + min n ((d - S) ⌈/⌉ S) := by
  simp only [Nat.ceilDiv_eq_add_pred_div]
  by_cases hd : d = 0
  · have hnone : (0 + S - 1) / S = 0 := Nat.div_eq_of_lt (by omega)
    rw [if_pos hd, hd, Nat.zero_sub, hnone]
    omega
  rw [if_neg hd]
  by_cases hlast : d ≤ S
  · have hone : (d + S - 1) / S = 1 := by
      rw [show d + S - 1 = (d - 1) + S by omega, Nat.add_div_right _ hS,
        Nat.div_eq_of_lt (by omega)]
    have hnone : (0 + S - 1) / S = 0 := Nat.div_eq_of_lt (by omega)
    rw [Nat.sub_eq_zero_of_le hlast, hone, hnone]
    omega
  · have hmore : (d + S - 1) / S = (d - S + S - 1) / S + 1 := by
      rw [← Nat.add_div_right _ hS]
      congr 1
      omega
    rw [hmore]
    omega

/-- While nobody commands the axis, it is announced by as many ticks as its distance takes. -/
theorem changes_of_spared {s : Simulator} {axis : Axis} {moves : List Move}
    (spared : ∀ m ∈ moves, m.axis? ≠ some axis) :
    (s.run moves).2.countP (·.axis = axis) =
      min (moves.count .tick) (distance (s.pointing.get axis) ⌈/⌉ s.profile.pace.toNat) := by
  induction moves generalizing s with
  | nil => simp [run]
  | cons m moves ih =>
    obtain ⟨hm, hmoves⟩ := List.forall_mem_cons.mp spared
    have hprofile := (s.perform_announces m).profile
    have hpointing := s.pointing_perform m axis
    have hfirst : (s.perform m).changes.countP (·.axis = axis) =
        if s.pointing.get axis = (s.perform m).rotator.pointing.get axis then 0 else 1 := by
      rw [List.countP_eq_length_filter, changes_perform_axis]
      split <;> rfl
    have hrest := @ih (s.perform m).rotator hmoves
    rw [hprofile] at hrest
    rw [run, List.countP_append, hfirst, hrest]
    by_cases htick : m = .tick
    · subst htick
      have hpos := s.profile.one_le_pace
      have hle := s.profile.pace_le_highest
      rw [hpointing, List.count_cons_self, min_ceilDiv_succ (by omega),
        distance_tick hpos hle axis]
      simp only [tick_eq_self_iff hpos hle axis]
    · rw [Move.turn_of_spared htick hm] at hpointing
      rw [hpointing, if_pos rfl, Nat.zero_add, List.count_cons_of_ne htick]

/-! ## The closed form -/

/-- Wherever an axis points and wherever it was told to go, after `n` ticks during which nobody
commands it the heading is `n` paces nearer to the preset, in exact integers, or at the preset if
the distance is no more than that. It has never left the way between the two. The axis has been
announced once for each tick that moved it, `n` times or as often as the distance holds a pace,
rounded up, and never once it was at its preset. -/
theorem slews_in_closed_form {s : Simulator} {axis : Axis} {moves : List Move}
    (spared : ∀ m ∈ moves, m.axis? ≠ some axis) :
    let h := (s.pointing.get axis).heading.val
    let p := (s.pointing.get axis).preset.val
    let pace := (max s.profile.step.val 1).toNat
    let n := moves.count .tick
    let q := (s.run moves).1.pointing.get axis
    q.preset.val = p ∧
    ((p - h).natAbs ≤ n * pace → q.heading.val = p) ∧
    (n * pace < (p - h).natAbs →
      q.heading.val = if h ≤ p then h + (n * pace : Nat) else h - (n * pace : Nat)) ∧
    (min h p ≤ q.heading.val ∧ q.heading.val ≤ max h p) ∧
    (s.run moves).2.countP (·.axis = axis) = min n ((p - h).natAbs ⌈/⌉ pace) ∧
    ∀ before later, moves = before ++ later →
      ((s.run before).1.pointing.get axis).heading.val = p →
        ∀ c ∈ ((s.run before).1.run later).2, c.axis ≠ axis := by
  intro h p pace n q
  obtain ⟨hpreset, hheading⟩ : q.preset = (s.pointing.get axis).preset ∧
    q.heading.val = h + max (-((n * pace : Nat) : Int)) (min (n * pace : Nat) (p - h)) :=
    pointing_of_spared spared
  refine ⟨congrArg Degrees.val hpreset, fun hreached => ?_, fun hshort => ?_, ⟨?_, ?_⟩,
    changes_of_spared spared, ?_⟩
  · omega
  · split <;> omega
  · omega
  · omega
  · rintro before later rfl hthere
    obtain ⟨hbefore, hlater⟩ := List.forall_mem_append.mp spared
    have hpreset := (pointing_of_spared (s := s) hbefore).1
    have hcount := changes_of_spared (s := (s.run before).1) hlater
    have hnear : distance ((s.run before).1.pointing.get axis) = 0 := by
      rw [distance, hpreset, hthere]
      omega
    rw [hnear, zero_ceilDiv, Nat.min_zero, List.countP_eq_zero] at hcount
    simpa using hcount

/-- A rotator whose azimuth has all headings and goes almost half of them in a tick. -/
def spinner : Profile :=
  { Profile.standard with
    limits := ⟨⟨true, .clamp Degrees.lowest, .clamp Degrees.highest, 0⟩, ⟨true, 0, 180, 0⟩⟩
    initial := ⟨.clamp Degrees.lowest, 0⟩
    step := .clamp Degrees.highest }

/-- From one end of the headings to the other the distance saturates; two ticks leave one degree. -/
theorem slews_in_closed_form_spinning :
    let s := ((create spinner).run [.steer .azimuth (.clamp Degrees.highest)]).1
    let moves : List Move := [.tick, .halt .elevation, .tick, .steer .elevation 30, .tick, .tick]
    ((s.run (moves.take 3)).1.pointing.get .azimuth).heading.val = Degrees.highest - 1 ∧
      ((s.run moves).1.pointing.get .azimuth).heading.val = Degrees.highest ∧
      (s.run moves).2.countP (·.axis = .azimuth) = 3 := by
  intro s moves
  obtain ⟨-, -, hshort, -⟩ := @slews_in_closed_form s .azimuth (moves.take 3) (by decide)
  obtain ⟨-, hreached, -, -, hcount, -⟩ := @slews_in_closed_form s .azimuth moves (by decide)
  exact ⟨(hshort (by decide)).trans (by decide), (hreached (by decide)).trans (by decide),
    hcount.trans (by decide)⟩

end Simulator

end Aerial
