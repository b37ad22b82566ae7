import Aerial.Proofs.Chain.Mirrors

/-! # The newest status is always on its way

Whatever the ring of a bus gives up and whatever a pump is told it missed, the newest
status of a rotator is not lost: the last of all statuses that were passed on, are due,
wait on the bus or are still unsaid is the one the rotator has now. So a level where
everything has arrived has passed on the present status last, if it passed on any. One
relation carries this: `Advances` says of two levels that either nothing new has come up
between them, or the newest status has become that of the rotator. Everything that can
happen at a level is such an advance, given a ring with room for one item. -/

namespace Aerial

theorem Link.tells_receive (l : Link) (f : Frame) :
    Tells l.info (l.receive f).changes (l.receive f).link.info := by
  have hnotice : ∀ bytes, Tells l.info (l.receiveNotice bytes).changes
      (l.receiveNotice bytes).link.info := by
    intro bytes
    unfold receiveNotice
    split
    · rename_i n _
      unfold follow
      split
      · exact .nil
      · exact .nil
      · exact Tells.announce l.info n.status.pointing
    · exact .nil
  unfold receive
  split
  · split
    · exact hnotice _
    · exact hnotice _
    · exact .nil
    · exact .nil
    · exact .nil
  · exact .nil

theorem Served.Goes.tells {v v' : Served} {cs : List Change} (h : Goes v cs v') :
    Tells v.info cs v'.info := by
  cases h with
  | source accounts => exact accounts
  | mirror info _ =>
    simp only [Served.info, info]
    exact .nil

theorem Served.tells_hear (v : Served) (f : Frame) :
    Tells v.info (v.hear f).changes (v.hear f).rotator.info := by
  cases v with
  | source s => exact .nil
  | mirror m => exact m.tells_receive f

namespace Level

theorem tells_heard (l : Level) (f : Frame) :
    Tells l.info (Effect.changes (l.station.perform (.turn (Served.hear f))).2)
      (l.perform (.turn (Served.hear f))).info := by
  simp only [Station.perform, Station.turn, Effect.changes_map_changed]
  exact l.station.rotator.tells_hear f

theorem tells_push (l : Level) (t : Transport) (s : Status) (failing : ClientId → Option Fault) :
    Tells l.info (Effect.changes (l.station.perform (.push t s failing)).2)
      (l.perform (.push t s failing)).info := by
  obtain ⟨hrotator, hchanges⟩ :=
    l.station.rotator_perform (a := .push t s failing) (by simp) (by simp)
  simp only [hchanges, Level.info, Level.perform, hrotator]
  exact .nil

/-! ## What never changes -/

/-- A level serves this rotator, wherever it points now. -/
def Serving (i : Info) (l : Level) : Prop := l.info = i.pointed l.info.pointing

theorem serving_refl (l : Level) : Serving l.info l := rfl

theorem Serving.perform {i : Info} {l : Level} {a : Station.Action Served} (h : Serving i l)
    (tells : Tells l.info (Effect.changes (l.station.perform a).2) (l.perform a).info) :
    Serving i (l.perform a) := by
  have hpointed := tells.eq_pointed
  rw [h] at hpointed
  exact hpointed

theorem Serving.hear {i : Info} {l : Level} (f : Option Frame) (h : Serving i l) :
    Serving i (l.hear f) := by
  cases f with
  | none => exact h
  | some f => exact Serving.perform (a := .turn (Served.hear f)) h (tells_heard l f)

theorem Serving.handOver {i : Info} {l : Level} (h : Serving i l) : Serving i l.handOver := by
  unfold Level.handOver
  split
  · exact h
  · exact h

theorem own_serving (i : Info) : Own (Serving i) where
  deed {l} d h := h.perform (l.station.goes_deed d).tells
  publish {l} h := by
    unfold Level.publish
    split <;> exact h
  pump {l} h := by
    unfold Level.pump
    split <;> exact h
  pass {l} failing h := by
    unfold Level.pass
    split
    · exact h
    · rename_i t s rest _
      exact Serving.perform (l := { l with due := rest, record := l.record ++ [.passed t s] }) h
        (tells_push l t s failing)
  carry {l} h := by
    unfold Level.carry
    split <;> exact h

/-! ## What is on its way -/

/-- What the bus keeps for the pump. -/
def waiting (l : Level) : List Change := ((l.bus.position? ()).map l.bus.pending).getD []

/-- The statuses on their way to the clients of a transport, oldest first. -/
def trail (t : Transport) (l : Level) : List Status :=
  dueOn t l.due ++ (l.waiting ++ l.unsaid).map Change.status

/-- The statuses passed on to a transport or on their way there. -/
def statuses (t : Transport) (l : Level) : List Status := l.record.passed t ++ l.trail t

def newest (t : Transport) (l : Level) : Option Status := (l.statuses t).getLast?

theorem newest_eq (t : Transport) (l : Level) : l.newest t =
    ((l.unsaid.getLast?.or l.waiting.getLast?).map Change.status).or
      (l.record.passed t ++ dueOn t l.due).getLast? := by
  rw [newest, statuses, trail, ← List.append_assoc, List.getLast?_append, List.getLast?_map,
    List.getLast?_append]

/-- Nothing is on its way to the clients any more. -/
structure Drained (l : Level) : Prop where
  unsaid : l.unsaid = []
  read : l.bus.position? () = some l.bus.tip
  due : l.due = []

theorem Settled.drained {l : Level} (h : l.Settled) : l.Drained := ⟨h.unsaid, h.read, h.due⟩

theorem Drained.trail_eq_nil {l : Level} (h : l.Drained) (t : Transport) : l.trail t = [] := by
  simp [trail, waiting, h.unsaid, h.due, h.read, Bus.pending_tip, dueOn]

/-- When nothing is on its way, the newest status was passed on last. -/
theorem Drained.newest {l : Level} (h : l.Drained) (t : Transport) :
    l.newest t = (l.record.passed t).getLast? := by
  rw [Level.newest, statuses, h.trail_eq_nil, List.append_nil]

/-- The pump reads a ring with room. -/
structure Attended (l : Level) : Prop where
  room : 0 < l.bus.slots
  reader : ∃ p, l.bus.position? () = some p ∧ p ≤ l.bus.tip

/-- From `l` on, the rotator and the newest status have not changed, or the newest status has
become that of the rotator. -/
structure Advances (l m : Level) : Prop where
  attended : m.Attended
  newest : (m.info = l.info ∧ ∀ t, m.newest t = l.newest t) ∨
    ∀ t, m.newest t = some m.info.status

theorem Advances.refl {l : Level} (h : l.Attended) : l.Advances l := ⟨h, .inl ⟨rfl, fun _ => rfl⟩⟩

theorem Advances.trans {l m n : Level} (h : l.Advances m) (h' : m.Advances n) : l.Advances n where
  attended := h'.attended
  newest := by
    rcases h'.newest with ⟨hinfo', hnewest'⟩ | hnew'
    · rcases h.newest with ⟨hinfo, hnewest⟩ | hnew
      · exact .inl ⟨hinfo'.trans hinfo, fun t => (hnewest' t).trans (hnewest t)⟩
      · exact .inr fun t => by rw [hnewest', hnew, hinfo']
    · exact .inr hnew'

theorem Attended.advances_of_eq {l m : Level} (h : l.Attended) (bus : m.bus = l.bus)
    (newest : ∀ t, m.newest t = l.newest t) (info : m.info = l.info) : l.Advances m where
  attended := ⟨bus ▸ h.room, bus ▸ h.reader⟩
  newest := .inl ⟨info, newest⟩

/-- What the rotator announces joins the end of each trail. -/
theorem Attended.perform {l : Level} {a : Station.Action Served} (h : l.Attended)
    (tells : Tells l.info (Effect.changes (l.station.perform a).2) (l.perform a).info) :
    l.Advances (l.perform a) where
  attended := ⟨h.room, h.reader⟩
  newest := by
    have hstatuses : ∀ t, (l.perform a).statuses t =
        l.statuses t ++ (Effect.changes (l.station.perform a).2).map Change.status := by
      intro t
      simp [statuses, trail, waiting, Level.perform]
    rcases tells.getLast with ⟨hnone, hinfo⟩ | ⟨c, hlast, hstatus⟩
    · refine .inl ⟨hinfo.symm, fun t => ?_⟩
      rw [Level.newest, hstatuses, hnone, List.map_nil, List.append_nil, Level.newest]
    · refine .inr fun t => ?_
      rw [Level.newest, hstatuses, List.getLast?_append, List.getLast?_map, hlast, ← hstatus]
      rfl

/-- The newest item stays when the ring gives up others for it. -/
theorem Attended.publish {l : Level} (h : l.Attended) : l.Advances l.publish := by
  unfold Level.publish
  split
  · exact .refl h
  · rename_i c rest hunsaid
    obtain ⟨p, hp, htip⟩ := h.reader
    refine ⟨⟨h.room, p, hp, ?_⟩, .inl ⟨rfl, fun t => ?_⟩⟩
    · rw [Bus.tip_publish]
      exact Nat.le_succ_of_le htip
    · have hkept := Bus.pending_publish_getLast? h.room htip c
      rw [newest_eq, newest_eq, hunsaid, List.getLast?_cons]
      simp only [waiting, Bus.position?_publish, hp, Option.map_some, Option.getD_some, hkept]
      cases rest.getLast? <;> simp

/-- A pump that is told it missed something still finds all that is kept. -/
theorem Attended.pump {l : Level} (h : l.Attended) : l.Advances l.pump := by
  obtain ⟨p, hp, htip⟩ := h.reader
  unfold Level.pump
  split
  · rename_i c bus hdue received
    obtain ⟨-, htip', hkept, rfl⟩ := Bus.received_event hp received
    refine ⟨⟨h.room, p + 1, by simp, htip'⟩, .inl ⟨rfl, fun t => congrArg List.getLast? ?_⟩⟩
    cases t <;> simp [statuses, trail, waiting, hdue, dueOn, hp, hkept]
  · rename_i n bus hdue received
    obtain ⟨hlagged, -, rfl⟩ := Bus.received_lagged hp received
    refine ⟨⟨h.room, l.bus.gone, by simp, Nat.le_add_right ..⟩,
      .inl ⟨rfl, fun t => congrArg List.getLast? ?_⟩⟩
    have hkept := Bus.pending_of_le (Nat.le_of_lt hlagged)
    simp [statuses, trail, waiting, hp, hkept]
  · exact .refl h

/-- A pass takes the first status off the trail of its transport and notes that it was passed
on. -/
theorem Attended.pass {l : Level} (failing : ClientId → Option Fault) (h : l.Attended) :
    l.Advances (l.pass failing) := by
  unfold Level.pass
  split
  · exact .refl h
  · rename_i u s rest hdue
    have hnoted : l.Advances { l with due := rest, record := l.record ++ [.passed u s] } := by
      refine h.advances_of_eq rfl (fun t => congrArg List.getLast? ?_) rfl
      simp only [statuses, trail, waiting, hdue, dueOn, Record.filterMap_cons_toList]
      by_cases hu : u = t <;> simp [hu]
    exact hnoted.trans (hnoted.attended.perform (tells_push _ u s failing))

theorem Attended.handOver {l : Level} (h : l.Attended) : l.Advances l.handOver := by
  unfold Level.handOver
  split
  · exact .refl h
  · exact h.advances_of_eq rfl (fun t => by simp [newest, statuses, trail, waiting]) rfl

theorem Attended.carry {l : Level} (h : l.Attended) : l.Advances l.carry := by
  unfold Level.carry
  split
  · exact .refl h
  · exact h.advances_of_eq rfl (fun _ => rfl) rfl

theorem Attended.hear {l : Level} (f : Option Frame) (h : l.Attended) : l.Advances (l.hear f) := by
  cases f with
  | none => exact .refl h
  | some f => exact Attended.perform (a := .turn (Served.hear f)) h (tells_heard l f)

theorem own_advances (l : Level) : Own (Advances l) where
  deed {m} d h := h.trans (h.attended.perform (m.station.goes_deed d).tells)
  publish h := h.trans h.attended.publish
  pump h := h.trans h.attended.pump
  pass failing h := h.trans (h.attended.pass failing)
  carry h := h.trans h.attended.carry

theorem attended_fresh (v : Served) (capacity : Nat) : (fresh v capacity).Attended where
  room := Bus.slotsFor_pos capacity
  reader := ⟨_, Bus.position?_place .., Nat.le_refl _⟩

theorem newest_fresh (v : Served) (capacity : Nat) (t : Transport) :
    (fresh v capacity).newest t = none := by
  simp [newest, statuses, trail, waiting, fresh, Bus.subscribe, Bus.pending_tip, dueOn]

/-! ## Levels that keep track -/

/-- If there is a newest status, it is that of the rotator. -/
structure Tracks (l : Level) : Prop where
  attended : l.Attended
  newest : ∀ t, ∀ s ∈ l.newest t, s = l.info.status

theorem Tracks.advance {l m : Level} (h : l.Tracks) (advances : l.Advances m) : m.Tracks where
  attended := advances.attended
  newest := by
    intro t s hs
    rcases advances.newest with ⟨hinfo, hnewest⟩ | hnew
    · rw [hnewest] at hs
      rw [hinfo]
      exact h.newest t s hs
    · rw [hnew] at hs
      exact (Option.some.inj hs).symm

/-- A level with nothing on its way has passed on the present status last. -/
theorem Tracks.pointing_of_settled {l : Level} (h : l.Tracks) (settled : l.Settled) {s : Status}
    (hs : s ∈ (l.record.passed .websocket).getLast?) : s.pointing = l.info.pointing := by
  rw [← settled.drained.newest] at hs
  exact congrArg Status.pointing (h.newest _ s hs)

theorem tracks_fresh (v : Served) (capacity : Nat) : (fresh v capacity).Tracks where
  attended := attended_fresh v capacity
  newest := by simp [newest_fresh]

/-- What was passed on before does not matter to what is on its way. -/
theorem Tracks.unrecorded {l m : Level} (h : l.Tracks) (bus : m.bus = l.bus)
    (trail : ∀ t, m.trail t = l.trail t) (info : m.info = l.info) (record : m.record = []) :
    m.Tracks where
  attended := ⟨bus ▸ h.attended.room, bus ▸ h.attended.reader⟩
  newest := by
    intro t s hs
    rw [info]
    refine h.newest t s ?_
    rw [Level.newest, statuses, record, trail, Record.passed_nil, List.nil_append] at hs
    rw [Level.newest, statuses, List.getLast?_append, Option.mem_def.mp hs]
    rfl

end Level

namespace Chain
open Level

variable {k : Nat}

/-- Every step leaves the newest status of a level as it was, or makes it that of the rotator. -/
theorem advances_step {c : Chain k} {i : Fin (k + 1)} (s : Step k) (h : (c i).Attended) :
    (c i).Advances (c.step s i) :=
  own_step (own_advances (c i)) s (.refl h) (fun _ _ _ => h.handOver) fun _ _ _ => h.hear _

theorem tracks_step {c : Chain k} {i : Fin (k + 1)} (s : Step k) (h : (c i).Tracks) :
    (c.step s i).Tracks := h.advance (advances_step s h.attended)

theorem serving_run {c : Chain k} {i : Info} {j : Fin (k + 1)} (steps : List (Step k))
    (h : Serving i (c j)) : Serving i (c.run steps j) := by
  induction steps generalizing c with
  | nil => exact h
  | cons s steps ih =>
    exact ih (own_step (own_serving i) s h (fun _ _ _ => h.handOver) fun _ _ _ => h.hear _)

end Chain

end Aerial
