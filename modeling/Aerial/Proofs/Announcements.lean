import Aerial.Link
import Aerial.Proofs.Wire.Statuses
import Aerial.Simulator

/-! # What announcements tell

A rotator may only change together with its announcements: one per axis that came to
point differently, azimuth first, each with the status after the whole change.
`Tells i cs j` says that `cs` announces a way from `i` to `j` like this. A simulator
keeps to it at every move and request. A link derives its announcements anew, from the
statuses it hears, and `Tells.echoed` says that it announces exactly what it was told:
of two equal frames for a change of both axes the first brings both announcements and
the second none. -/

namespace Aerial

/-- The same rotator, pointing elsewhere. -/
def Info.pointed (i : Info) (p : PerAxis Pointing) : Info := { i with pointing := p }

/-- The announcements of a change of pointing. -/
def Info.announce (i : Info) (p : PerAxis Pointing) : List Change :=
  (Link.changedAxes i.pointing p).map fun axis => ⟨axis, (i.pointed p).status⟩

theorem Link.changedAxes_eq_nil {p q : PerAxis Pointing} : changedAxes p q = [] ↔ p = q := by
  constructor
  · intro h
    simp only [changedAxes, Axis.all, List.filter_eq_nil_iff] at h
    apply PerAxis.ext_get
    intro axis
    have := h axis (by cases axis <;> simp)
    simpa using this
  · rintro rfl
    simp [changedAxes]

theorem Link.changedAxes_set {p : PerAxis Pointing} {axis : Axis} {a : Pointing}
    (h : p.get axis ≠ a) : changedAxes p (p.set axis a) = [axis] := by
  cases axis <;> simp_all [changedAxes, Axis.all, PerAxis.get, PerAxis.set]

@[simp] theorem Info.announce_self (i : Info) : i.announce i.pointing = [] := by
  simp [announce, Link.changedAxes_eq_nil.mpr]

theorem Info.announce_eq_nil {i : Info} {p : PerAxis Pointing} :
    i.announce p = [] ↔ i.pointing = p := by
  rw [announce, List.map_eq_nil_iff, Link.changedAxes_eq_nil]

/-- Every announcement of a change carries the status after it. -/
theorem Info.map_status_announce (i : Info) (p : PerAxis Pointing) :
    (i.announce p).map Change.status
      = List.replicate (i.announce p).length (i.pointed p).status := by
  rw [announce, List.map_map, List.length_map]
  exact List.map_const' ..

/-! ## Ways from one pointing to another -/

inductive Tells (i : Info) : List Change → Info → Prop where
  | nil : Tells i [] i
  | snoc {cs : List Change} {j : Info} (told : Tells i cs j) (p : PerAxis Pointing) :
      Tells i (cs ++ j.announce p) (j.pointed p)

theorem Tells.append {i j k : Info} {cs ds : List Change} (h : Tells i cs j) (h' : Tells j ds k) :
    Tells i (cs ++ ds) k := by
  induction h' with
  | nil => simpa using h
  | snoc _ p ih =>
    rw [← List.append_assoc]
    exact ih.snoc p

theorem Tells.announce (i : Info) (p : PerAxis Pointing) : Tells i (i.announce p) (i.pointed p) :=
  Tells.nil.snoc p

/-- Announcements say nothing about what never changes. -/
theorem Tells.eq_pointed {i j : Info} {cs : List Change} (h : Tells i cs j) :
    j = i.pointed j.pointing := by
  induction h with
  | nil => rfl
  | snoc _ p ih => rw [ih]; rfl

/-- The last announcement carries the status of the rotator. -/
theorem Tells.getLast {i j : Info} {cs : List Change} (h : Tells i cs j) :
    (cs = [] ∧ i = j) ∨ ∃ c, cs.getLast? = some c ∧ c.status = j.status := by
  induction h with
  | nil => exact .inl ⟨rfl, rfl⟩
  | @snoc cs j _ p ih =>
    by_cases hp : j.announce p = []
    · obtain rfl := Info.announce_eq_nil.mp hp
      rw [hp, List.append_nil]
      exact ih
    · right
      obtain ⟨c, hc⟩ := Option.ne_none_iff_exists'.mp
        (fun h => hp (List.getLast?_eq_none_iff.mp h))
      refine ⟨c, by rw [List.getLast?_append, hc]; rfl, ?_⟩
      have hmem : c.status ∈ (j.announce p).map Change.status :=
        List.mem_map_of_mem (List.mem_of_getLast? hc)
      rw [Info.map_status_announce] at hmem
      exact List.eq_of_mem_replicate hmem

/-! ## Simulators -/

namespace Simulator

@[simp] theorem info_pointing (s : Simulator) : s.info.pointing = s.pointing := rfl

/-- A response that announces each axis that came to point differently, with the status after
the whole of it. -/
structure Announces (s : Simulator) (r : Response Simulator) : Prop where
  changes : r.changes = s.info.announce r.rotator.pointing
  profile : r.rotator.profile = s.profile

/-- A response that accounts for how the simulator came to point differently. -/
def Accounts (s : Simulator) (r : Response Simulator) : Prop :=
  Tells s.info r.changes r.rotator.info

theorem Announces.accounts {s : Simulator} {r : Response Simulator} (h : s.Announces r) :
    s.Accounts r := by
  have hinfo : r.rotator.info = s.info.pointed r.rotator.pointing := by
    rw [info, h.profile]
    rfl
  rw [Accounts, h.changes, hinfo]
  exact Tells.announce ..

theorem announces_unmoved (s : Simulator) (refusal : Option Refusal) :
    s.Announces ⟨refusal, s, []⟩ :=
  ⟨s.info.announce_self.symm, rfl⟩

theorem redirect_announces (s : Simulator) (axis : Axis) (preset : Degrees) :
    s.Announces (s.redirect axis preset) := by
  unfold redirect
  dsimp only
  split
  · exact s.announces_unmoved none
  · rename_i hne
    have hmoved : s.pointing.get axis ≠ { s.pointing.get axis with preset := preset } :=
      fun h => hne (congrArg Pointing.preset h)
    refine ⟨?_, rfl⟩
    rw [Info.announce, info_pointing]
    simp only [Response.accept, Link.changedAxes_set hmoved]
    rfl

theorem steer_announces (s : Simulator) (axis : Axis) (preset : Degrees) :
    s.Announces (s.steer axis preset) := by
  unfold steer
  dsimp only
  split
  · exact s.announces_unmoved _
  split
  · exact s.redirect_announces axis preset
  · exact s.announces_unmoved _

theorem halt_announces (s : Simulator) (axis : Axis) : s.Announces (s.halt axis) := by
  unfold halt
  split
  · exact s.redirect_announces axis _
  · exact s.announces_unmoved _

theorem pointing_ne_iff (p : Pointing) (a : Degrees) :
    p ≠ { p with heading := a } ↔ a ≠ p.heading := by
  constructor
  · rintro h rfl
    exact h rfl
  · intro h hp
    exact h (congrArg Pointing.heading hp).symm

/-- A tick changes headings only, so the axes that moved are those that point differently. -/
theorem tick_announces (s : Simulator) : s.Announces s.tick := by
  refine ⟨?_, rfl⟩
  unfold tick Info.announce Link.changedAxes
  simp only [Response.accept, PerAxis.get_map, info_pointing, pointing_ne_iff]
  rfl

theorem perform_announces (s : Simulator) (m : Move) : s.Announces (s.perform m) := by
  cases m with
  | steer axis preset => exact s.steer_announces axis preset
  | halt axis => exact s.halt_announces axis
  | tick => exact s.tick_announces

theorem perform_accounts (s : Simulator) (m : Move) : s.Accounts (s.perform m) :=
  (s.perform_announces m).accounts

theorem haltIfAvailable_accounts (s : Simulator) (axis : Axis) :
    s.Accounts (s.haltIfAvailable axis) := by
  unfold haltIfAvailable
  split
  · exact (s.halt_announces axis).accounts
  · exact .nil

theorem andThen_accounts {s : Simulator} {first : Response Simulator}
    {f : Simulator → Response Simulator} (h : s.Accounts first)
    (hf : ∀ t : Simulator, t.Accounts (f t)) : s.Accounts (first.andThen f) := by
  unfold Response.andThen
  split
  · exact h
  · exact h.append (hf first.rotator)

theorem execute_accounts (s : Simulator) (r : Request) : s.Accounts (s.execute r) := by
  cases r with
  | setAzimuth a => exact (s.steer_announces .azimuth a).accounts
  | setElevation e => exact (s.steer_announces .elevation e).accounts
  | stopAzimuth => exact (s.halt_announces .azimuth).accounts
  | stopElevation => exact (s.halt_announces .elevation).accounts
  | stop =>
    exact andThen_accounts (haltIfAvailable_accounts s .azimuth)
      fun t => haltIfAvailable_accounts t .elevation

end Simulator

/-! ## Links -/

/-- What a rotator seen at `i` is announced to do when its statuses are these. -/
def Info.echoed : Info → List Status → List Change
  | _, [] => []
  | i, s :: ss => i.announce s.pointing ++ (i.pointed s.pointing).echoed ss

/-- How a rotator seen at `i` is known after these statuses. -/
def Info.heard : Info → List Status → Info
  | i, [] => i
  | i, s :: ss => (i.pointed s.pointing).heard ss

namespace Info

theorem echoed_append (i : Info) (ss ts : List Status) :
    i.echoed (ss ++ ts) = i.echoed ss ++ (i.heard ss).echoed ts := by
  induction ss generalizing i with
  | nil => rfl
  | cons s ss ih => simp [echoed, heard, ih]

theorem heard_append (i : Info) (ss ts : List Status) :
    i.heard (ss ++ ts) = (i.heard ss).heard ts := by
  induction ss generalizing i with
  | nil => rfl
  | cons s ss ih => simp [heard, ih]

theorem heard_pointing (i : Info) (ss : List Status) :
    (i.heard ss).pointing = ((ss.getLast?.map Status.pointing).getD i.pointing) := by
  induction ss generalizing i with
  | nil => rfl
  | cons s ss ih =>
    rw [heard, ih]
    cases ss with
    | nil => rfl
    | cons t ss => simp [List.getLast?_cons]

/-- A status that is known already brings no announcement. -/
theorem echoed_replicate (i : Info) (s : Status) (n : Nat) :
    i.echoed (List.replicate n s) = (if n = 0 then [] else i.announce s.pointing) ∧
      i.heard (List.replicate n s) = (if n = 0 then i else i.pointed s.pointing) := by
  induction n generalizing i with
  | zero => exact ⟨rfl, rfl⟩
  | succ n ih =>
    obtain ⟨hsay, hknow⟩ := ih (i.pointed s.pointing)
    have hself : (i.pointed s.pointing).announce s.pointing = [] :=
      (i.pointed s.pointing).announce_self
    have hagain : (i.pointed s.pointing).pointed s.pointing = i.pointed s.pointing := rfl
    simp [List.replicate_succ, echoed, heard, hsay, hknow, hself, hagain]

/-- What is made of statuses tells the way to where they lead. -/
theorem tells_echoed (i : Info) (ss : List Status) : Tells i (i.echoed ss) (i.heard ss) := by
  induction ss generalizing i with
  | nil => exact .nil
  | cons s ss ih => exact (Tells.announce i s.pointing).append (ih (i.pointed s.pointing))

end Info

/-- Whoever hears the statuses of all announcements announces the same. -/
theorem Tells.echoed {i j : Info} {cs : List Change} (h : Tells i cs j) :
    i.echoed (cs.map Change.status) = cs ∧ i.heard (cs.map Change.status) = j := by
  induction h with
  | nil => exact ⟨rfl, rfl⟩
  | @snoc cs j _ p ih =>
    obtain ⟨hsay, hknow⟩ := ih
    obtain ⟨hsay', hknow'⟩ :=
      Info.echoed_replicate j (j.pointed p).status (j.announce p).length
    rw [List.map_append, Info.map_status_announce, Info.echoed_append, Info.heard_append, hsay,
      hknow, hsay', hknow']
    by_cases hp : j.announce p = []
    · obtain rfl := Info.announce_eq_nil.mp hp
      rw [hp, List.length_nil, if_pos rfl, if_pos rfl]
      exact ⟨rfl, rfl⟩
    · have hlen : (j.announce p).length ≠ 0 := fun h => hp (List.length_eq_zero_iff.mp h)
      rw [if_neg hlen, if_neg hlen]
      exact ⟨rfl, rfl⟩

/-- What is heard so far is announced so far. -/
theorem Info.echoed_prefix (i : Info) {ss ts : List Status} (h : ss <+: ts) :
    i.echoed ss <+: i.echoed ts := by
  obtain ⟨us, rfl⟩ := h
  rw [echoed_append]
  exact List.prefix_append ..

namespace Link

/-- A frame with a heading notice turns a link to its status. -/
theorem receive_headingNotice {l : Link} (h : l.isOpen = true) (s : Status) :
    l.receive (.binary s.headingNotice) =
      ⟨{ l with info := l.info.pointed s.pointing }, [], l.info.announce s.pointing⟩ := by
  rw [receive, if_pos h]
  simp only [receiveNotice, Status.headingNotice, Wire.decodeNotice_writeNotice]
  rfl

end Link

end Aerial
