import Aerial.Proofs.Station.Commands
import Aerial.Station.Basic

/-! # Visits

A client comes to a station, says something on its stream, and goes. All that it said was
executed, in order and before it went; then it is closed and forgotten, and its stream has no
effect any more. None of this depends on the transport, so two connections that bring the same
messages do the same. -/

namespace Aerial

/-- What a station does when a client goes. -/
def Effect.isParting : Effect → Bool
  | closed _ => true
  | logged (.readFailed ..) => true
  | logged (.disconnected ..) => true
  | _ => false

/-- The end of a connection, as the station handles it. -/
def Effect.parting (t : Transport) (c : ClientId) (fault : Option Fault) : List Effect :=
  fault.toList.map (fun f => .logged (.readFailed t c f))
    ++ [.closed c, .logged (.disconnected t c)]

namespace Station

variable {ρ : Type}

/-- A client comes, and this is what its stream brings. -/
def visit (s : Station ρ) (t : Transport) (c : ClientId) (stream : List Inbound) :
    List (Action ρ) :=
  .join t c :: stream.map (Inbound.action s.streams)

theorem visit_unturned (s : Station ρ) (t : Transport) (c : ClientId) (stream : List Inbound) :
    ∀ a ∈ s.visit t c stream, ∀ f, a ≠ .turn f := by
  intro a ha f
  rcases List.mem_cons.mp ha with rfl | ha
  · simp
  · obtain ⟨i, -, rfl⟩ := List.mem_map.mp ha
    cases i <;> simp [Inbound.action]

theorem reader?_join (s : Station ρ) (t : Transport) (c : ClientId) :
    ((s.join t c).1.reader? s.streams).isSome := by
  rw [reader?, List.find?_isSome]
  exact ⟨⟨t, c, s.streams⟩, List.mem_append_right _ List.mem_cons_self, by simp⟩

/-! ## Streams that are not read -/

theorem reader?_eq_none {s : Station ρ} {stream : StreamId} :
    s.reader? stream = none ↔ ∀ x ∈ s.reading, x.stream ≠ stream := by
  simp [reader?, List.find?_eq_none]

/-- When a stream has ended, it is not read. -/
theorem Kept.reader?_hangUp {s : Station ρ} (h : s.Kept) (stream : StreamId)
    (fault : Option Fault) : (s.hangUp stream fault).1.reader? stream = none := by
  cases hr : s.reader? stream with
  | none => rwa [hangUp, hr]
  | some r =>
    rw [hangUp, hr, reader?_eq_none]
    intro x hx hstream
    obtain ⟨hmem, hne⟩ := List.mem_filter.mp hx
    obtain ⟨hr, hreader⟩ := mem_reading_of_reader? hr
    simp [h.eq_of_stream hmem hr (hstream.trans hreader.symm)] at hne

variable [Rotator ρ]

theorem run_of_unread {s : Station ρ} {stream : StreamId} (h : s.reader? stream = none)
    (late : List Inbound) : s.run (late.map (Inbound.action stream)) = (s, []) := by
  induction late with
  | nil => rfl
  | cons i late ih =>
    have hfirst : s.perform (Inbound.action stream i) = (s, []) := by
      cases i <;> simp only [Inbound.action, perform, message, hangUp, h]
    simp only [List.map_cons, run, hfirst, ih, List.append_nil]

/-- New streams have new numbers, so one that is not read is never read again. -/
theorem reader?_after {s : Station ρ} {stream : StreamId} (h : s.reader? stream = none)
    (old : stream < s.streams) (since : List (Action ρ)) :
    (s.after since).reader? stream = none := by
  rw [reader?_eq_none] at h ⊢
  rintro x hx rfl
  exact not_mem_reading_after (fun hmem => h x hmem rfl) old since hx

/-! ## While the stream lasts -/

/-- The messages of a client that came amount to the requests among them. -/
theorem requests_visit (s : Station ρ) (t : Transport) (c : ClientId) (payloads : List Octets) :
    Effect.requests (s.run (s.visit t c (payloads.map .message))).2
      = payloads.filterMap command? := by
  obtain ⟨-, -, hrequests⟩ := obeys_run (s.reader?_join t c) payloads
  have hquiet : Effect.requests (s.join t c).2 = [] :=
    requests_perform (a := .join t c) (by simp)
  rw [visit, List.map_map, run, Effect.requests_append]
  exact (congrArg (· ++ _) hquiet).trans hrequests

theorem Kept.reader?_join {s : Station ρ} (h : s.Kept) (t : Transport) (c : ClientId) :
    (s.join t c).1.reader? s.streams = some ⟨t, c, s.streams⟩ := by
  have hfresh : (⟨t, c, s.streams⟩ : Registration) ∈ (s.join t c).1.reading :=
    List.mem_append_right _ List.mem_cons_self
  obtain ⟨r, hr⟩ := Option.isSome_iff_exists.mp (s.reader?_join t c)
  obtain ⟨hmem, hstream⟩ := mem_reading_of_reader? hr
  rw [hr, (h.perform (.join t c)).eq_of_stream hmem hfresh hstream]

theorem not_parting_message (s : Station ρ) (stream : StreamId) (payload : Octets) :
    ∀ e ∈ (s.message stream payload).2, e.isParting = false := by
  unfold message
  split
  · simp
  unfold dispatch
  split
  · simp
  split
  · simp [Effect.isParting]
  · intro e he
    simp only [List.cons_append, List.mem_cons, List.mem_append, List.mem_map] at he
    rcases he with rfl | ⟨_, _, rfl⟩ | ⟨_, _, rfl⟩ <;> rfl

theorem not_parting_run (s : Station ρ) (stream : StreamId) (payloads : List Octets) :
    ∀ e ∈ (s.run (payloads.map (.message stream))).2, e.isParting = false := by
  induction payloads generalizing s with
  | nil => simp [run]
  | cons payload payloads ih =>
    intro e he
    rcases List.mem_append.mp he with he | he
    · exact s.not_parting_message stream payload e he
    · exact ih _ e he

/-- The rotator did what these payloads command, and nothing besides. -/
structure Heeded (s : Station ρ) (payloads : List Octets) (out : Station ρ × List Effect) :
    Prop where
  requests : Effect.requests out.2 = payloads.filterMap command?
  obeyed : (out.1.rotator, Effect.changes out.2)
    = Rotator.obey s.rotator (payloads.filterMap command?)

theorem heeded_visit {s : Station ρ} {t : Transport} {c : ClientId} {stream : List Inbound}
    {payloads : List Octets}
    (h : Effect.requests (s.run (s.visit t c stream)).2 = payloads.filterMap command?) :
    s.Heeded payloads (s.run (s.visit t c stream)) :=
  ⟨h, h ▸ run_obeys (s.visit_unturned t c stream)⟩

/-- A station with a client that came and sent these payloads. -/
structure Heard (s : Station ρ) (t : Transport) (c : ClientId) (payloads : List Octets)
    (out : Station ρ × List Effect) : Prop extends s.Heeded payloads out where
  registered : ⟨t, c, s.streams⟩ ∈ out.1.registered
  read : out.1.reader? s.streams = some ⟨t, c, s.streams⟩
  stays : ∀ e ∈ out.2, e.isParting = false

theorem Kept.heard {s : Station ρ} (h : s.Kept) (t : Transport) (c : ClientId)
    (payloads : List Octets) :
    s.Heard t c payloads (s.run (s.visit t c (payloads.map .message))) := by
  obtain ⟨hstation, -, -⟩ := obeys_run (s.reader?_join t c) payloads
  have hrun : s.run (s.visit t c (payloads.map .message))
      = (((s.join t c).1.run (payloads.map (.message s.streams))).1,
        (s.join t c).2 ++ ((s.join t c).1.run (payloads.map (.message s.streams))).2) := by
    rw [visit, List.map_map]
    rfl
  have hjoin : ∀ e ∈ (s.join t c).2, e.isParting = false := by
    intro e he
    simp only [join, List.mem_append, List.mem_map, List.mem_singleton] at he
    rcases he with ⟨_, _, rfl⟩ | rfl <;> rfl
  refine ⟨heeded_visit (s.requests_visit t c payloads), ?_, ?_, ?_⟩
  · rw [hrun, hstation]
    exact List.mem_append_right _ List.mem_cons_self
  · rw [hrun, hstation]
    exact h.reader?_join t c
  · rw [hrun]
    intro e he
    rcases List.mem_append.mp he with he | he
    · exact hjoin e he
    · exact not_parting_run _ _ _ e he

/-! ## When it is over -/

/-- A station that a client came to, sent these payloads, and left. -/
structure Parted (s : Station ρ) (t : Transport) (c : ClientId) (payloads : List Octets)
    (fault : Option Fault) (out : Station ρ × List Effect) : Prop extends s.Heeded payloads out where
  unregistered : ¬out.1.Registers t c
  /-- The client goes once, after all else. -/
  farewell : ∃ earlier, out.2 = earlier ++ Effect.parting t c fault ∧
    ∀ e ∈ earlier, e.isParting = false
  /-- What comes on the stream later has no effect, whatever is done in between. -/
  deaf : ∀ since payload, (out.1.after since).message s.streams payload = (out.1.after since, [])

/-- The end of its stream is the end of a client that was there. -/
theorem Kept.hangUp_reader {s : Station ρ} (h : s.Kept) {stream : StreamId} {t : Transport}
    {c : ClientId} (registered : ⟨t, c, stream⟩ ∈ s.registered)
    (read : s.reader? stream = some ⟨t, c, stream⟩) (fault : Option Fault) :
    (s.hangUp stream fault).2 = Effect.parting t c fault ∧
      ¬(s.hangUp stream fault).1.Registers t c := by
  have hgone : s.Registers t c ∧ ¬(s.hangUp stream fault).1.Registers t c :=
    h.unregisters_hangUp.mpr ⟨⟨_, registered, rfl, rfl⟩, (mem_reading_of_reader? read).1⟩
  have hany : s.registered.any (holds t c) = true :=
    List.any_eq_true.mpr ⟨_, registered, by simp [holds]⟩
  refine ⟨?_, hgone.2⟩
  simp only [hangUp, read, leave, hany, if_true]
  rfl

/-- A client sends some payloads, and its stream ends. What may come later counts for nothing. -/
theorem Kept.parted {s : Station ρ} (h : s.Kept) (t : Transport) (c : ClientId)
    (payloads : List Octets) (fault : Option Fault) (late : List Inbound) :
    s.Parted t c payloads fault
      (s.run (s.visit t c (payloads.map .message ++ .ended fault :: late))) := by
  have hheard := h.heard t c payloads
  have hactions : s.visit t c (payloads.map .message ++ .ended fault :: late)
      = s.visit t c (payloads.map .message)
        ++ (.hangUp s.streams fault :: late.map (Inbound.action s.streams)) := by
    simp [visit, Inbound.action]
  have hkept : (s.after (s.visit t c (payloads.map .message))).Kept := h.after _
  generalize hs : s.visit t c (payloads.map .message) = actions at *
  have hunread := hkept.reader?_hangUp s.streams fault
  obtain ⟨hparting, hgone⟩ := hkept.hangUp_reader hheard.registered hheard.read fault
  have hend : (s.after actions).run (.hangUp s.streams fault :: late.map (Inbound.action s.streams))
      = (((s.after actions).hangUp s.streams fault).1, Effect.parting t c fault) := by
    simp only [run, Station.perform, run_of_unread hunread, hparting, List.append_nil]
  have heffects : (s.run (actions ++ (.hangUp s.streams fault ::
      late.map (Inbound.action s.streams)))).2 = (s.run actions).2 ++ Effect.parting t c fault := by
    rw [effects_run_append, hend]
  have hstation : (s.run (actions ++ (.hangUp s.streams fault ::
      late.map (Inbound.action s.streams)))).1 = ((s.after actions).hangUp s.streams fault).1 :=
    (s.after_append actions _).trans (congrArg (·.1) hend)
  have hquiet : Effect.requests (Effect.parting t c fault) = [] := by
    cases fault <;> rfl
  refine ⟨heeded_visit ?_, ?_, ⟨_, ?_, hheard.stays⟩, ?_⟩
  · rw [hactions, heffects, Effect.requests_append, hquiet, List.append_nil]
    exact hheard.requests
  · rwa [hactions, hstation]
  · rw [hactions, heffects]
  · intro since payload
    have hold : s.streams < ((s.after actions).hangUp s.streams fault).1.streams :=
      Nat.lt_of_lt_of_le (hkept.numbered _ (mem_reading_of_reader? hheard.read).1)
        ((s.after actions).booked_hangUp s.streams fault).streams_le
    rw [hactions, hstation, message, reader?_after hunread hold]

end Station

end Aerial
