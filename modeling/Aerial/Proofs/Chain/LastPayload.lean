import Aerial.Proofs.Chain.Trails
import Aerial.Proofs.Station.Deliveries

/-! # The last payload tells the truth

A station by itself, with its bus and its pump: clients come, go and send requests, the
simulator ticks and is commanded, and the changes go their way, in any order. What reaches a
client is decided by the station alone, which sees only some of this; `Does` says which
actions of the station a run comes to. So two results meet here. The newest status that was
passed on is that of the simulator once nothing is on its way, also behind a pump that
lagged. And a client that stays registered is written everything that is passed on to its
transport. What it was written last is therefore how the simulator is. -/

namespace Aerial

namespace Level

/-! ## Runs of a station with its pump -/

/-- What can happen at a station that has no link: something from outside, or a piece of the
way of a change. -/
inductive Doing where
  | deed (d : Deed)
  | publish
  | pump
  | pass (failing : ClientId → Option Fault)

def act (l : Level) : Doing → Level
  | .deed d => l.perform d.action
  | .publish => l.publish
  | .pump => l.pump
  | .pass failing => l.pass failing

def run (l : Level) (doings : List Doing) : Level := doings.foldl act l

theorem Own.run {P : Level → Prop} (hP : Own P) {l : Level} (doings : List Doing) (h : P l) :
    P (l.run doings) := by
  induction doings generalizing l with
  | nil => exact h
  | cons d doings ih =>
    cases d with
    | deed d => exact ih (hP.deed d h)
    | publish => exact ih (hP.publish h)
    | pump => exact ih (hP.pump h)
    | pass failing => exact ih (hP.pass failing h)

/-! ## What the station does -/

/-- What the station does when this happens, if anything. -/
def action? (l : Level) : Doing → Option (Station.Action Served)
  | .deed d => some d.action
  | .publish => none
  | .pump => none
  | .pass failing => l.due.head?.map fun d => .push d.1 d.2 failing

/-- What the station does in a run. -/
def actions : Level → List Doing → List (Station.Action Served)
  | _, [] => []
  | l, d :: doings => (l.action? d).toList ++ actions (l.act d) doings

/-- From `l` to `m` the station does these actions. Their effects are what clients are written,
and their pushes what is passed on. -/
structure Does (l : Level) (actions : List (Station.Action Served)) (m : Level) : Prop where
  station : m.station = l.station.after actions
  got : ∀ x, m.record.got x =
    l.record.got x ++ Effect.payloadsTo x (l.station.run actions).2
  passed : ∀ t, m.record.passed t =
    l.record.passed t ++ ((Station.pushes actions).filter (·.1 = t)).map (·.2)

theorem Does.trans {l m n : Level} {actions more : List (Station.Action Served)}
    (h : Does l actions m) (h' : Does m more n) : Does l (actions ++ more) n where
  station := by rw [h'.station, h.station, Station.after_append]
  got x := by
    rw [h'.got, h.got, h.station, Station.effects_run_append, Effect.payloadsTo_append,
      List.append_assoc]
  passed t := by
    rw [h'.passed, h.passed, Station.pushes, Station.pushes, Station.pushes,
      List.filterMap_append, List.filter_append, List.map_append, List.append_assoc]

theorem Does.of_note {l m : Level} (station : m.station = l.station)
    (got : ∀ x, m.record.got x = l.record.got x)
    (passed : ∀ t, m.record.passed t = l.record.passed t) : Does l [] m where
  station := station
  got x := by
    rw [got]
    exact (List.append_nil _).symm
  passed t := by
    rw [passed]
    exact (List.append_nil _).symm

theorem does_perform (l : Level) {a : Station.Action Served} (plain : a.pushed? = none) :
    Does l [a] (l.perform a) where
  station := rfl
  got x := by simp [perform, Station.run]
  passed t := by simp [perform, Station.pushes, plain]

theorem does_act (l : Level) (d : Doing) : Does l (l.action? d).toList (l.act d) := by
  cases d with
  | deed d => exact l.does_perform (by cases d <;> rfl)
  | publish =>
    simp only [act, publish]
    split
    · exact .of_note rfl (fun _ => rfl) fun _ => rfl
    · exact .of_note rfl (by simp) (by simp)
  | pump =>
    simp only [act, pump]
    split
    · exact .of_note rfl (by simp) (by simp)
    · exact .of_note rfl (by simp [Effect.payloadTo?]) (by simp)
    · exact .of_note rfl (fun _ => rfl) fun _ => rfl
  | pass failing =>
    simp only [act, pass, action?]
    split
    · rename_i hdue
      rw [hdue]
      exact .of_note rfl (fun _ => rfl) fun _ => rfl
    · rename_i t s rest hdue
      rw [hdue]
      refine ⟨rfl, fun x => ?_, fun u => ?_⟩
      · simp [perform, Station.run]
      · by_cases hu : t = u <;> simp [perform, Station.pushes, Station.Action.pushed?, hu]

theorem does_run (l : Level) (doings : List Doing) :
    Does l (l.actions doings) (l.run doings) := by
  induction doings generalizing l with
  | nil => exact .of_note rfl (fun _ => rfl) fun _ => rfl
  | cons d doings ih => exact (l.does_act d).trans (ih (l.act d))

/-- What the station has done by some action is what it does in a part of the run. -/
theorem exists_prefix_of_actions {l : Level} {doings : List Doing}
    {q : List (Station.Action Served)} (hq : q <+: l.actions doings) :
    ∃ p, p <+: doings ∧ l.actions p = q := by
  induction doings generalizing l q with
  | nil => exact ⟨[], List.nil_prefix, (List.prefix_nil.mp hq).symm⟩
  | cons d doings ih =>
    cases hd : l.action? d with
    | none =>
      rw [actions, hd] at hq
      obtain ⟨p, hp, hpq⟩ := ih hq
      refine ⟨d :: p, List.cons_prefix_cons.mpr ⟨rfl, hp⟩, ?_⟩
      rw [actions, hd]
      exact hpq
    | some a =>
      rw [actions, hd, Option.toList_some, List.singleton_append] at hq
      rcases List.prefix_cons_iff.mp hq with rfl | ⟨rest, rfl, hrest⟩
      · exact ⟨[], List.nil_prefix, rfl⟩
      · obtain ⟨p, hp, hpq⟩ := ih hrest
        refine ⟨d :: p, List.cons_prefix_cons.mpr ⟨rfl, hp⟩, ?_⟩
        rw [actions, hd, hpq]
        rfl

/-- What holds of the station throughout a run holds of it after each of its actions. -/
theorem holds_after {P : Station Served → Prop} {l : Level} {doings : List Doing}
    (holds : ∀ p, p <+: doings → P (l.run p).station) :
    ∀ q, q <+: l.actions doings → P (l.station.after q) := by
  intro q hq
  obtain ⟨p, hp, rfl⟩ := exists_prefix_of_actions hq
  rw [← (l.does_run p).station]
  exact holds p hp

/-! ## The last payload -/

theorem run_append (l : Level) (doings more : List Doing) :
    l.run (doings ++ more) = (l.run doings).run more := List.foldl_append ..

theorem kept_run (v : Served) (capacity : Nat) (doings : List Doing) :
    ((fresh v capacity).run doings).station.Kept := by
  rw [(does_run _ doings).station]
  exact (Station.kept_create v).after _

theorem tracks_run (v : Served) (capacity : Nat) (doings : List Doing) :
    ((fresh v capacity).run doings).Tracks := by
  have hadvances : (fresh v capacity).Advances ((fresh v capacity).run doings) :=
    (own_advances _).run doings (.refl (attended_fresh v capacity))
  exact (tracks_fresh v capacity).advance hadvances

/-- When nothing is on its way, the last push on a transport was the present status. -/
theorem Does.getLast?_pushes {l m : Level} {actions : List (Station.Action Served)}
    (h : Does l actions m) (tracks : m.Tracks) (drained : m.Drained) {t : Transport}
    (pushed : m.record.passed t ≠ l.record.passed t) :
    ((Station.pushes actions).filter (·.1 = t)).getLast? = some (t, m.info.status) := by
  have hpassed := h.passed t
  cases hlast : ((Station.pushes actions).filter (·.1 = t)).getLast? with
  | none =>
    rw [List.getLast?_eq_none_iff.mp hlast, List.map_nil, List.append_nil] at hpassed
    exact absurd hpassed pushed
  | some d =>
    have hd : d.1 = t := by
      have hmem := List.mem_of_getLast? hlast
      simpa using (List.mem_filter.mp hmem).2
    have hnewest : m.newest t = some d.2 := by
      rw [drained.newest, hpassed, List.getLast?_append, List.getLast?_map, hlast]
      rfl
    rw [← hd, ← tracks.newest t d.2 hnewest]

/-- The last item of a selection is followed only by items that were not selected. -/
theorem exists_last_of_filter {α : Type} {p : α → Bool} {as : List α} {a : α}
    (h : (as.filter p).getLast? = some a) :
    ∃ older newer, as = older ++ a :: newer ∧ ∀ b ∈ newer, p b = false := by
  obtain ⟨selected, hselected⟩ := List.getLast?_eq_some_iff.mp h
  obtain ⟨front, back, rfl, -, hback⟩ := List.filter_eq_append_iff.mp hselected
  obtain ⟨skipped, newer, rfl, -, -, hnewer⟩ := List.filter_eq_cons_iff.mp hback
  refine ⟨front ++ skipped, newer, by simp, fun b hb => ?_⟩
  simpa using List.filter_eq_nil_iff.mp hnewer b hb

/-- A station serves a simulator, on a bus of any capacity that its pump reads from the start.
At some moment a client is registered on a transport, and it stays registered there through
whatever happens afterwards. If the pump passes on anything to the transport in this time,
then whenever nothing is on its way any more the last payload for the transport that the
client was written is the present status of the simulator, even if the pump lagged. It is the
very last payload, unless the client is registered on another transport as well. -/
theorem last_payload_status (s : Simulator) (capacity : Nat) (before during : List Doing)
    {t : Transport} {x : ClientId} {l m : Level}
    (hl : l = (fresh (.source s) capacity).run before) (hm : m = l.run during)
    (stays : ∀ p, p <+: during → (l.run p).station.Registers t x)
    (pushed : m.record.passed t ≠ l.record.passed t) (drained : m.Drained) :
    ∃ older newer, m.record.got x = older ++ Station.payload t m.info.status :: newer ∧
      (∀ p ∈ newer, ∃ u status, u ≠ t ∧ p = Station.payload u status) ∧
      ((∀ u, u ≠ t → ∀ p, p <+: during → ¬(l.run p).station.Registers u x) → newer = []) := by
  have hkept : l.station.Kept := hl ▸ kept_run _ _ _
  have htracks : m.Tracks := by
    rw [hm, hl, ← run_append]
    exact tracks_run _ _ _
  have hdoes : Does l (l.actions during) m := hm ▸ l.does_run during
  -- the client was sent all pushes on the transport, so the present status last
  have hpushes := hdoes.getLast?_pushes htracks drained pushed
  have hstays := holds_after (P := (·.Registers t x)) stays
  rw [← Station.sent_on hstays] at hpushes
  obtain ⟨older, newer, hsent, hnewer⟩ := exists_last_of_filter hpushes
  have hother : ∀ d ∈ newer, d.1 ≠ t := by
    intro d hd
    simpa using hnewer d hd
  have hgot := hdoes.got x
  rw [(Station.ran_run _ _).payloadsTo hkept, hsent, List.map_append, List.map_cons,
    ← List.append_assoc] at hgot
  refine ⟨_, _, hgot, ?_, ?_⟩
  · intro p hp
    obtain ⟨d, hd, rfl⟩ := List.mem_map.mp hp
    exact ⟨d.1, d.2, hother d hd, rfl⟩
  · intro absent
    rw [List.map_eq_nil_iff, List.eq_nil_iff_forall_not_mem]
    intro d hd
    have habsent := holds_after (P := (¬·.Registers d.1 x)) (absent d.1 (hother d hd))
    have hnone := Station.sent_off habsent
    have hmem : d ∈ l.station.sent x (l.actions during) := by
      rw [hsent]
      exact List.mem_append_right _ (List.mem_cons_of_mem _ hd)
    exact List.filter_eq_nil_iff.mp hnone d hmem (by simp)

/-- A client where a simulator is on a bus with one slot. -/
def visited : Level :=
  (fresh (.source (.create .standard)) 0).run [.deed (.join .websocket 3)]

/-- Two changes are published before the pump reads, so that the ring gives up the first. -/
def burst : List Doing :=
  [.deed (.move (.steer .azimuth 90)), .deed (.move (.steer .elevation 45)), .publish, .publish,
    .pump, .pump, .pass fun _ => none, .pass fun _ => none]

theorem last_payload_status_burst :
    ¬(visited.run burst).record.Lossless ∧ (visited.run burst).info.pointing.elevation.preset = 45 ∧
      ((visited.run burst).record.got 3).getLast? =
        some (Station.payload .websocket (visited.run burst).info.status) := by
  refine ⟨by decide +kernel, by decide +kernel, ?_⟩
  have hstays : ∀ p ∈ burst.inits, (visited.run p).station.Registers .websocket 3 := by
    decide +kernel
  have helsewhere : ∀ p ∈ burst.inits, ¬(visited.run p).station.Registers .tcp 3 := by
    decide +kernel
  obtain ⟨older, newer, hgot, -, hnewer⟩ :=
    last_payload_status (l := visited) (.create .standard) 0 [.deed (.join .websocket 3)] burst rfl
      rfl (fun p hp => hstays p ((List.mem_inits _ _).mpr hp)) (by decide +kernel)
      (Settled.drained (by decide +kernel))
  rw [hgot, hnewer, List.getLast?_concat]
  intro u hu p hp
  cases u with
  | tcp => exact helsewhere p ((List.mem_inits _ _).mpr hp)
  | websocket => exact absurd rfl hu

end Level

end Aerial
