import Aerial.Proofs.Chain.LastPayload
import Aerial.Proofs.Simulator.Refusals

/-! # Messages that leave no trace

A station disregards a payload that is blank, one that is no request, and a request that its
rotator refuses. The protected quantity is everything but the record of a level: such a message
changes none of it, and what it adds to the record is reports about messages. So a run in which
disregarded messages are put in, on any stream and anywhere, goes on as if they had not been. The
rotator is the same after every step that the two runs share, the same events are published, the
same frames reach every client, and the same clients are registered. -/

namespace Aerial

/-! ## What is disregarded -/

/-- Why a station with this rotator pays no attention to a payload. -/
inductive Disregards (v : Served) (payload : Octets) : Prop where
  | blank (blank : payload.all Octets.isBlank = true)
  | unreadable (why : Json.ReadError) (unreadable : Wire.decodeRequest payload = .error why)
  | refused (r : Request) (why : Refusal) (reads : Wire.decodeRequest payload = .ok r)
      (refuses : (Rotator.execute v r).refusal = some why)

theorem Link.declines_send {l : Link} {r : Request} {why : Refusal}
    (h : (l.send r).refusal = some why) : (l.send r).Declines l := by
  unfold send at *
  split at h
  · cases h
  · rename_i hshut
    rw [if_neg hshut]
    exact ⟨rfl, rfl⟩

theorem Served.declines_execute {v : Served} {r : Request} {why : Refusal}
    (h : (Rotator.execute v r).refusal = some why) : (Rotator.execute v r).Declines v := by
  cases v with
  | source s =>
    obtain ⟨hrotator, hchanges⟩ := Simulator.declines_execute (s := s) h
    exact ⟨congrArg source hrotator, hchanges⟩
  | mirror l =>
    obtain ⟨hrotator, hchanges⟩ := Link.declines_send (l := l) h
    exact ⟨congrArg mirror hrotator, hchanges⟩

/-! ## Reports -/

/-- What is logged about a message. -/
def Effect.isReport : Effect → Bool
  | logged (.executing ..) => true
  | logged (.dropping _) => true
  | logged (.refused ..) => true
  | _ => false

theorem Effect.logged_of_isReport {e : Effect} (h : e.isReport = true) :
    ∃ event, e = logged event := by
  cases e with
  | logged event => exact ⟨event, rfl⟩
  | _ => cases h

/-- Whether a sign is no report about a message. -/
def Sign.shows : Sign → Bool
  | effect e => !e.isReport
  | _ => true

/-- A message that is disregarded is reported at most, and changes nothing. -/
theorem Station.message_of_disregards {s : Station Served} {payload : Octets}
    (h : Disregards s.rotator payload) (stream : StreamId) :
    (s.message stream payload).1 = s ∧ ∀ e ∈ (s.message stream payload).2, e.isReport = true := by
  unfold message
  split
  · exact ⟨rfl, by simp⟩
  unfold dispatch
  split
  · exact ⟨rfl, by simp⟩
  rename_i hblank
  cases h with
  | blank blank => exact absurd blank hblank
  | unreadable why unreadable =>
    rw [unreadable]
    exact ⟨rfl, by simp [Effect.isReport]⟩
  | refused r why reads refuses =>
    obtain ⟨hrotator, hchanges⟩ := Served.declines_execute refuses
    rw [reads]
    dsimp only
    rw [hrotator, hchanges, refuses]
    exact ⟨rfl, by simp [Effect.isReport]⟩

namespace Level

/-! ## Levels that differ in reports only -/

/-- The levels are the same but for their records, and these but for reports about messages. -/
structure Alike (l m : Level) : Prop where
  level : m = { l with record := m.record }
  shown : m.record.filter Sign.shows = l.record.filter Sign.shows

theorem Alike.refl (l : Level) : Alike l l := ⟨rfl, rfl⟩

/-- What is done and what is recorded of it does not depend on the record so far. -/
theorem act_record (l : Level) (d : Doing) :
    ∃ signs, ∀ record, act { l with record := record } d
      = { l.act d with record := record ++ signs } := by
  cases d with
  | deed d => exact ⟨(l.station.perform d.action).2.map .effect, fun _ => rfl⟩
  | publish =>
    simp only [act, publish]
    split
    · exact ⟨[], fun record => by rw [List.append_nil]⟩
    · exact ⟨[_], fun _ => rfl⟩
  | pump =>
    simp only [act, pump]
    split
    · exact ⟨[_], fun _ => rfl⟩
    · exact ⟨[_], fun _ => rfl⟩
    · exact ⟨[], fun record => by rw [List.append_nil]⟩
  | pass failing =>
    simp only [act, pass]
    split
    · exact ⟨[], fun record => by rw [List.append_nil]⟩
    · rename_i t s rest _
      exact ⟨.passed t s :: (l.station.perform (.push t s failing)).2.map .effect,
        fun record => by simp [perform, framesToGuest]⟩

theorem Alike.act {l m : Level} (h : Alike l m) (d : Doing) : Alike (l.act d) (m.act d) := by
  obtain ⟨signs, hsigns⟩ := l.act_record d
  have hl : l.act d = { l.act d with record := l.record ++ signs } := hsigns l.record
  have hm : m.act d = { l.act d with record := m.record ++ signs } := by
    rw [h.level]
    exact hsigns m.record
  have hlrecord : (l.act d).record = l.record ++ signs := congrArg Level.record hl
  refine ⟨?_, ?_⟩
  · rw [hm]
  · rw [hm, hlrecord, List.filter_append, List.filter_append, h.shown]

/-- A message that is disregarded is not noticed. -/
theorem Alike.message {l m : Level} (h : Alike l m) {payload : Octets}
    (disregards : Disregards m.station.rotator payload) (stream : StreamId) :
    Alike l (m.act (.deed (.message stream payload))) := by
  obtain ⟨hstation, hreports⟩ := Station.message_of_disregards disregards stream
  have hsame : m.act (.deed (.message stream payload)) = { m with
      unsaid := m.unsaid ++ Effect.changes (m.station.message stream payload).2
      wire := m.wire ++ m.framesToGuest (m.station.message stream payload).2
      record := m.record ++ (m.station.message stream payload).2.map .effect } := by
    simp only [Level.act, Level.perform, Deed.action, Station.perform, hstation]
  have hchanges : Effect.changes (m.station.message stream payload).2 = [] := by
    refine Effect.changes_eq_nil fun e he => ?_
    obtain ⟨event, rfl⟩ := Effect.logged_of_isReport (hreports e he)
    rfl
  have hframes : m.framesToGuest (m.station.message stream payload).2 = [] := by
    unfold framesToGuest
    split
    · rfl
    · refine List.filterMap_eq_nil_iff.mpr fun e he => ?_
      obtain ⟨event, rfl⟩ := Effect.logged_of_isReport (hreports e he)
      rfl
  have hhidden : ((m.station.message stream payload).2.map Sign.effect).filter Sign.shows = [] := by
    refine List.filter_eq_nil_iff.mpr fun s hs => ?_
    obtain ⟨e, he, rfl⟩ := List.mem_map.mp hs
    simp [Sign.shows, hreports e he]
  rw [hchanges, hframes, List.append_nil, List.append_nil] at hsame
  refine ⟨?_, ?_⟩
  · rw [hsame]
    exact h.level ▸ rfl
  · rw [hsame, List.filter_append, hhidden, List.append_nil]
    exact h.shown

/-! ## What others see -/

/-- Two levels that cannot be told apart by what their rotators, buses and clients show. -/
structure Indistinct (l m : Level) : Prop where
  rotator : m.station.rotator = l.station.rotator
  registered : m.station.registered = l.station.registered
  announced : m.record.told = l.record.told
  published : m.record.said = l.record.said
  received : ∀ x, m.record.effects.filterMap (Effect.frameTo? x)
    = l.record.effects.filterMap (Effect.frameTo? x)

/-- What is selected from a record, but never from a report, is selected from what it shows. -/
theorem filterMap_shown {α : Type} {f : Sign → Option α}
    (hf : ∀ e : Effect, e.isReport = true → f (.effect e) = none) (r : Record) :
    (r.filter Sign.shows).filterMap f = r.filterMap f := by
  rw [List.filterMap_filter]
  refine List.filterMap_congr fun s _ => ?_
  cases s with
  | effect e =>
    cases he : e.isReport with
    | false => simp [Sign.shows, he]
    | true => simp [Sign.shows, he, hf e he]
  | _ => rfl

theorem Alike.select {l m : Level} (h : Alike l m) {α : Type} {f : Sign → Option α}
    (hf : ∀ e : Effect, e.isReport = true → f (.effect e) = none) :
    m.record.filterMap f = l.record.filterMap f := by
  rw [← filterMap_shown hf, h.shown, filterMap_shown hf]

theorem Alike.selectEffects {l m : Level} (h : Alike l m) {α : Type} {f : Effect → Option α}
    (hf : ∀ event, f (.logged event) = none) :
    m.record.effects.filterMap f = l.record.effects.filterMap f := by
  simp only [Record.effects, List.filterMap_filterMap]
  refine h.select fun e he => ?_
  obtain ⟨event, rfl⟩ := Effect.logged_of_isReport he
  exact hf event

theorem Alike.indistinct {l m : Level} (h : Alike l m) : Indistinct l m where
  rotator := by rw [h.level]
  registered := by rw [h.level]
  announced := h.selectEffects fun _ => rfl
  published := h.select fun _ _ => rfl
  received _ := h.selectEffects fun _ => rfl

/-! ## Runs with more messages -/

/-- From `l` the second run does what the first does, with messages put in that are disregarded
when they arrive. -/
inductive Padded : Level → List Doing → List Doing → Prop where
  | nil (l : Level) : Padded l [] []
  | keep {l : Level} {doings padded : List Doing} (d : Doing)
      (rest : Padded (l.act d) doings padded) : Padded l (d :: doings) (d :: padded)
  | insert {l : Level} {doings padded : List Doing} (stream : StreamId) {payload : Octets}
      (disregards : Disregards l.station.rotator payload)
      (rest : Padded (l.act (.deed (.message stream payload))) doings padded) :
      Padded l doings (.deed (.message stream payload) :: padded)

theorem Padded.alike {l m : Level} {doings padded : List Doing} (h : Padded m doings padded)
    (hl : Alike l m) : Alike (l.run doings) (m.run padded) := by
  induction h generalizing l with
  | nil m => exact hl
  | keep d _ ih => exact ih (hl.act d)
  | insert stream disregards _ ih => exact ih (hl.message disregards stream)

/-- Every step of the first run has its place in the second. -/
theorem Padded.split {l : Level} {before after padded : List Doing} {d : Doing}
    (h : Padded l (before ++ d :: after) padded) :
    ∃ before' after', padded = before' ++ d :: after' ∧ Padded l before before' := by
  generalize hdoings : before ++ d :: after = doings at h
  induction h generalizing before with
  | nil l =>
    rw [List.append_eq_nil_iff] at hdoings
    cases hdoings.2
  | @keep l doings padded b rest ih =>
    cases before with
    | nil =>
      obtain ⟨rfl, rfl⟩ := List.cons.inj hdoings
      exact ⟨[], padded, rfl, .nil l⟩
    | cons a before =>
      obtain ⟨rfl, hrest⟩ := List.cons.inj hdoings
      obtain ⟨before', after', rfl, hbefore⟩ := ih hrest
      exact ⟨a :: before', after', rfl, .keep a hbefore⟩
  | @insert l doings padded stream payload disregards rest ih =>
    obtain ⟨before', after', rfl, hbefore⟩ := ih hdoings
    exact ⟨_ :: before', after', rfl, .insert stream disregards hbefore⟩

theorem run_concat (l : Level) (doings : List Doing) (d : Doing) :
    l.run (doings ++ [d]) = (l.run doings).act d := run_append l doings [d]

/-- Messages that are blank, are no requests or are refused when they arrive may be put into a run
of a station with its bus and its pump, on any streams and in any places. It ends as it did
without them, and every step of the old run has its place in the new one, after which both are as
they were: the rotator, the events announced and published, the frames of every client and the
registrations. -/
theorem disregarded_leave_no_trace (v : Served) (capacity : Nat) {doings padded : List Doing}
    (h : Padded (fresh v capacity) doings padded) :
    let start := fresh v capacity
    Indistinct (start.run doings) (start.run padded) ∧
      ∀ before d after, doings = before ++ d :: after →
        ∃ before' after', padded = before' ++ d :: after' ∧ Padded start before before' ∧
          Indistinct (start.run before) (start.run before') ∧
          Indistinct (start.run (before ++ [d])) (start.run (before' ++ [d])) := by
  intro start
  refine ⟨(h.alike (.refl start)).indistinct, ?_⟩
  rintro before d after rfl
  obtain ⟨before', after', rfl, hbefore⟩ := h.split
  have halike := hbefore.alike (.refl start)
  refine ⟨before', after', rfl, hbefore, halike.indistinct, ?_⟩
  rw [run_concat, run_concat]
  exact (halike.act d).indistinct

/-- A client hears how a simulator is told to turn to 90 degrees. -/
def calm : List Doing :=
  [.deed (.join .tcp 0), .deed (.request (.setAzimuth 90)), .publish, .pump, .pass fun _ => none]

/-- The same with an empty line and half an object put in, and at last a heading out of range. -/
def noisy : List Doing :=
  [.deed (.join .tcp 0), .deed (.message 0 [13]), .deed (.request (.setAzimuth 90)), .publish,
    .deed (.message 0 [123]), .pump, .pass fun _ => none,
    .deed (.message 0 (Wire.writeRequest (.setAzimuth 900)))]

theorem noisy_padded : Padded (fresh (.source (.create .standard)) 1) calm noisy := by
  refine .keep _ (.insert 0 (.blank rfl) (.keep _ (.keep _ (.insert 0 (.unreadable .incomplete rfl)
    (.keep _ (.keep _ (.insert 0 ?_ (.nil _))))))))
  exact .refused (.setAzimuth 900) (.outOfRange .azimuth 900 0 450)
    (Wire.decodeRequest_writeRequest _) (by decide +kernel)

theorem disregarded_leave_no_trace_noisy :
    let start := fresh (.source (.create .standard)) 1
    (start.run noisy).info.pointing.azimuth.preset = 90 ∧
      (start.run noisy).record.effects.filterMap (Effect.frameTo? 0)
        = [.binary (start.run calm).info.status.pushLine] := by
  intro start
  have hsame := (disregarded_leave_no_trace (.source (.create .standard)) 1 noisy_padded).1
  constructor
  · rw [info, hsame.rotator]
    decide +kernel
  · rw [hsame.received 0]
    decide +kernel

end Level

end Aerial
