import Aerial.Proofs.Station.Registry
import Aerial.Simulator
import Mathlib.Data.List.Induction
import Mathlib.Data.List.Nodup

/-! # Streams without a registration

A stream is current while the registration it came with is there. Adding the client
again ends the old stream, but only if the client is still registered then: a stream
whose registration lapsed first, by a removal, a failed write or the end of yet another
stream, is read on. `Lapses` speaks of this, and `Kept.adrift_iff` shows that it is the
only way to a stream that is read without being current. Such a stream still steers the
rotator, and when it ends it takes away whatever registration its client has by then. -/

namespace Aerial.Station

variable {ρ : Type}

/-! ## One action -/

theorem Kept.eq_of_stream {s : Station ρ} (h : s.Kept) {x y : Registration} (hx : x ∈ s.reading)
    (hy : y ∈ s.reading) (hxy : x.stream = y.stream) : x = y :=
  List.inj_on_of_nodup_map h.distinct hx hy hxy

theorem Kept.eq_of_client {s : Station ρ} (h : s.Kept) {x y : Registration} (hx : x ∈ s.registered)
    (hy : y ∈ s.registered) (ht : x.transport = y.transport) (hc : x.client = y.client) : x = y :=
  List.inj_on_of_nodup_map h.once hx hy (Prod.ext ht hc)

theorem mem_reading_of_reader? {s : Station ρ} {stream : StreamId} {r : Registration}
    (h : s.reader? stream = some r) : r ∈ s.reading ∧ r.stream = stream :=
  ⟨List.mem_of_find?_eq_some h, by simpa using List.find?_some h⟩

theorem not_mem_reading_of_reader? {s : Station ρ} {x : Registration}
    (h : s.reader? x.stream = none) : x ∉ s.reading := by
  intro hx
  have := List.find?_eq_none.mp h x hx
  simp at this

namespace Booked

variable {s s' : Station ρ} {a : Action ρ}

/-- A stream is read on unless it ends, or its client is added again while it is current. -/
theorem mem_reading_iff (booked : Booked s s' a) (h : s.Kept) {x : Registration}
    (hx : x ∈ s.reading) :
    x ∈ s'.reading ↔
      (∀ fault, a ≠ .hangUp x.stream fault) ∧
        ¬(a = .join x.transport x.client ∧ x ∈ s.registered) := by
  cases booked with
  | join t c _ reading _ =>
    have hold : x ≠ ⟨t, c, s.streams⟩ := fun h' =>
      Nat.lt_irrefl _ (congrArg Registration.stream h' ▸ h.numbered x hx)
    have hstale : (Action.join t c : Action ρ) = .join x.transport x.client ↔
        x.transport = t ∧ x.client = c := by
      rw [Action.join.injEq, eq_comm, @eq_comm _ c]
    by_cases hclient : x.transport = t ∧ x.client = c
    · simp [reading, hx, hold, holds, hclient]
    · have hkept : x ∈ s'.reading := by
        rw [reading]
        refine List.mem_append_left _ (List.mem_filter.mpr ⟨hx, ?_⟩)
        simp [holds, hclient]
      exact iff_of_true hkept ⟨by simp, fun h' => hclient (hstale.mp h'.1)⟩
  | hangUp r fault reader _ reading _ =>
    have hsame : x = r ↔ r.stream = x.stream :=
      ⟨fun h' => h' ▸ rfl, fun h' => h.eq_of_stream hx (mem_reading_of_reader? reader).1 h'.symm⟩
    simp [reading, hx, hsame]
  | drop a _ _ reading _ unjoined unread =>
    rw [reading]
    refine ⟨fun _ => ⟨fun fault ha => ?_, fun ha => unjoined _ _ ha.1⟩, fun _ => hx⟩
    exact not_mem_reading_of_reader? (unread _ _ ha) hx

theorem streams_le (booked : Booked s s' a) : s.streams ≤ s'.streams := by
  cases booked with
  | join _ _ _ _ streams => exact streams ▸ Nat.le_succ _
  | hangUp _ _ _ _ _ streams => exact Nat.le_of_eq streams.symm
  | drop _ _ _ _ streams _ _ => exact Nat.le_of_eq streams.symm

/-- What is new on the list came with the addition of its client. -/
theorem mem_registered (booked : Booked s s' a) {x : Registration} (hx : x ∈ s'.registered) :
    x ∈ s.registered ∨ (a = .join x.transport x.client ∧ x.stream = s.streams) := by
  cases booked with
  | join t c registered _ _ =>
    rw [registered] at hx
    rcases List.mem_append.mp hx with hx | hx
    · exact .inl (List.mem_filter.mp hx).1
    · obtain rfl := List.mem_singleton.mp hx
      exact .inr ⟨rfl, rfl⟩
  | hangUp _ _ _ registered _ _ =>
    rw [registered] at hx
    exact .inl (List.mem_filter.mp hx).1
  | drop _ _ registered _ _ _ _ =>
    rw [registered] at hx
    exact .inl (List.mem_filter.mp hx).1

theorem mem_reading (booked : Booked s s' a) {x : Registration} (hx : x ∈ s'.reading) :
    x ∈ s.reading ∨ (a = .join x.transport x.client ∧ x.stream = s.streams) := by
  cases booked with
  | join t c _ reading _ =>
    rw [reading] at hx
    rcases List.mem_append.mp hx with hx | hx
    · exact .inl (List.mem_filter.mp hx).1
    · obtain rfl := List.mem_singleton.mp hx
      exact .inr ⟨rfl, rfl⟩
  | hangUp _ _ _ _ reading _ =>
    rw [reading] at hx
    exact .inl (List.mem_filter.mp hx).1
  | drop _ _ _ reading _ _ _ => exact .inl (reading ▸ hx)

/-- A registration that is gone does not come back, since new streams have new numbers. -/
theorem not_mem_registered (booked : Booked s s' a) {x : Registration} (hx : x ∉ s.registered)
    (hold : x.stream < s.streams) : x ∉ s'.registered := by
  intro hx'
  rcases booked.mem_registered hx' with hmem | ⟨-, hstream⟩
  · exact hx hmem
  · exact Nat.ne_of_lt hold hstream

theorem not_mem_reading (booked : Booked s s' a) {x : Registration} (hx : x ∉ s.reading)
    (hold : x.stream < s.streams) : x ∉ s'.reading := by
  intro hx'
  rcases booked.mem_reading hx' with hmem | ⟨-, hstream⟩
  · exact hx hmem
  · exact Nat.ne_of_lt hold hstream

/-- Only being added registers a client. -/
theorem registers (booked : Booked s s' a) {t : Transport} {c : ClientId}
    (h : s'.Registers t c) (hjoin : a ≠ .join t c) :
    ∃ r ∈ s.registered, r ∈ s'.registered ∧ r.transport = t ∧ r.client = c := by
  obtain ⟨r, hr, rfl, rfl⟩ := h
  rcases booked.mem_registered hr with hmem | ⟨hadded, -⟩
  · exact ⟨r, hmem, hr, rfl, rfl⟩
  · exact absurd hadded hjoin

end Booked

variable [Rotator ρ]

/-! ## Runs -/

/-- After `s`, a client was at some time not registered before it was added again. -/
def Lapses (s : Station ρ) (t : Transport) (c : ClientId) (since : List (Action ρ)) : Prop :=
  ∃ p q, since = p ++ q ∧ .join t c ∉ p ∧ ¬(s.after p).Registers t c

theorem not_mem_reading_after {s : Station ρ} {x : Registration} (hx : x ∉ s.reading)
    (hold : x.stream < s.streams) (since : List (Action ρ)) : x ∉ (s.after since).reading := by
  induction since generalizing s with
  | nil => exact hx
  | cons a since ih =>
    exact ih ((s.booked_perform a).not_mem_reading hx hold)
      (Nat.lt_of_lt_of_le hold (s.booked_perform a).streams_le)

theorem not_mem_registered_after {s : Station ρ} {x : Registration} (hx : x ∉ s.registered)
    (hold : x.stream < s.streams) (since : List (Action ρ)) : x ∉ (s.after since).registered := by
  induction since generalizing s with
  | nil => exact hx
  | cons a since ih =>
    exact ih ((s.booked_perform a).not_mem_registered hx hold)
      (Nat.lt_of_lt_of_le hold (s.booked_perform a).streams_le)

/-- A stream that is not current any more is read until it ends. -/
theorem Kept.mem_reading_after {s : Station ρ} (h : s.Kept) {x : Registration} (hx : x ∈ s.reading)
    (adrift : x ∉ s.registered) (since : List (Action ρ)) :
    x ∈ (s.after since).reading ↔ ∀ fault, .hangUp x.stream fault ∉ since := by
  induction since generalizing s with
  | nil => simp [hx]
  | cons a since ih =>
    have hold := h.numbered x hx
    have hread := (s.booked_perform a).mem_reading_iff h hx
    by_cases ha : ∀ fault, a ≠ .hangUp x.stream fault
    · have hx' := hread.mpr ⟨ha, fun h' => adrift h'.2⟩
      rw [after_cons, ih (h.perform a) hx' ((s.booked_perform a).not_mem_registered adrift hold)]
      simp only [List.mem_cons, not_or, forall_and]
      exact ⟨fun h' => ⟨fun fault h'' => ha fault h''.symm, h'⟩, And.right⟩
    · have hx' : x ∉ (s.perform a).1.reading := fun h' => ha (hread.mp h').1
      have hlt := Nat.lt_of_lt_of_le hold (s.booked_perform a).streams_le
      refine iff_of_false (not_mem_reading_after hx' hlt since) fun h' => ha fun fault h'' => ?_
      exact h' fault (h'' ▸ List.mem_cons_self)

theorem not_registers_after {s : Station ρ} {t : Transport} {c : ClientId} {since : List (Action ρ)}
    (h : ¬s.Registers t c) (hjoin : .join t c ∉ since) : ¬(s.after since).Registers t c := by
  induction since generalizing s with
  | nil => exact h
  | cons a since ih =>
    simp only [List.mem_cons, not_or] at hjoin
    refine ih (fun h' => h ?_) hjoin.2
    obtain ⟨r, hr, -, ht, hc⟩ := (s.booked_perform a).registers h' (Ne.symm hjoin.1)
    exact ⟨r, hr, ht, hc⟩

theorem lapses_nil {s : Station ρ} {t : Transport} {c : ClientId} :
    s.Lapses t c [] ↔ ¬s.Registers t c := by
  constructor
  · rintro ⟨p, q, hpq, -, hlapsed⟩
    obtain ⟨rfl, -⟩ := List.nil_eq_append_iff.mp hpq
    exact hlapsed
  · exact fun h => ⟨[], [], rfl, by simp, h⟩

theorem lapses_cons {s : Station ρ} {t : Transport} {c : ClientId} {a : Action ρ}
    {since : List (Action ρ)} (h : s.Registers t c) :
    s.Lapses t c (a :: since) ↔ a ≠ .join t c ∧ (s.perform a).1.Lapses t c since := by
  constructor
  · rintro ⟨p, q, hpq, hjoin, hlapsed⟩
    cases p with
    | nil => exact absurd h hlapsed
    | cons b p =>
      obtain ⟨rfl, rfl⟩ := List.cons_eq_cons.mp hpq
      simp only [List.mem_cons, not_or] at hjoin
      exact ⟨Ne.symm hjoin.1, p, q, rfl, hjoin.2, hlapsed⟩
  · rintro ⟨ha, p, q, rfl, hjoin, hlapsed⟩
    exact ⟨a :: p, q, rfl, by simp [hjoin, Ne.symm ha], hlapsed⟩

/-- A stream comes to be read without being current exactly by the lapse of its registration. -/
theorem Kept.adrift_iff {s : Station ρ} (h : s.Kept) {x : Registration} (hx : x ∈ s.registered)
    (since : List (Action ρ)) :
    (x ∈ (s.after since).reading ∧ x ∉ (s.after since).registered) ↔
      (∀ fault, .hangUp x.stream fault ∉ since) ∧ s.Lapses x.transport x.client since := by
  induction since generalizing s with
  | nil =>
    rw [lapses_nil]
    exact iff_of_false (fun h' => h'.2 hx) fun h' => h'.2 ⟨x, hx, rfl, rfl⟩
  | cons a since ih =>
    have hreading := h.reads x hx
    have hlt := Nat.lt_of_lt_of_le (h.numbered x hreading) (s.booked_perform a).streams_le
    have hread := (s.booked_perform a).mem_reading_iff h hreading
    rw [lapses_cons ⟨x, hx, rfl, rfl⟩, after_cons]
    by_cases hx' : x ∈ (s.perform a).1.reading
    · obtain ⟨hends, hjoin⟩ := hread.mp hx'
      have hjoin : a ≠ .join x.transport x.client := fun h' => hjoin ⟨h', hx⟩
      have hrest : (∀ fault, .hangUp x.stream fault ∉ a :: since) ↔
          ∀ fault, .hangUp x.stream fault ∉ since := by
        simp only [List.mem_cons, not_or, forall_and]
        exact ⟨And.right, fun h' => ⟨fun fault h'' => hends fault h''.symm, h'⟩⟩
      by_cases hcurrent : x ∈ (s.perform a).1.registered
      · rw [ih (h.perform a) hcurrent, hrest]
        exact ⟨fun h' => ⟨h'.1, hjoin, h'.2⟩, fun h' => ⟨h'.1, h'.2.2⟩⟩
      · -- the only registration of the client is gone, so the client is
        have hlapsed : ¬(s.perform a).1.Registers x.transport x.client := by
          intro h'
          obtain ⟨r, hr, hr', ht, hc⟩ := (s.booked_perform a).registers h' hjoin
          exact hcurrent (h.eq_of_client hx hr ht.symm hc.symm ▸ hr')
        rw [(h.perform a).mem_reading_after hx' hcurrent, hrest]
        have hgone := not_mem_registered_after hcurrent hlt since
        exact ⟨fun h' => ⟨h'.1, hjoin, [], since, rfl, by simp, hlapsed⟩, fun h' => ⟨h'.1, hgone⟩⟩
    · refine iff_of_false (fun h' => not_mem_reading_after hx' hlt since h'.1) ?_
      rintro ⟨hends, hjoin, -⟩
      refine hx' (hread.mpr ⟨fun fault ha => ?_, fun h' => hjoin h'.1⟩)
      exact hends fault (ha ▸ List.mem_cons_self)

/-! ## Where a stream comes from -/

/-- Every stream that is read came with the addition of its client. -/
theorem mem_reading_create {r : ρ} {actions : List (Action ρ)} {x : Registration}
    (hx : x ∈ ((create r).after actions).reading) :
    ∃ before since, actions = before ++ .join x.transport x.client :: since ∧
      x.stream = ((create r).after before).streams := by
  induction actions using List.reverseRecOn with
  | nil => simp [create] at hx
  | append_singleton actions a ih =>
    rw [after_append] at hx
    rcases (booked_perform _ a).mem_reading hx with hx | ⟨rfl, hstream⟩
    · obtain ⟨before, since, rfl, hstream⟩ := ih hx
      exact ⟨before, since ++ [a], by simp, hstream⟩
    · exact ⟨actions, [], rfl, hstream⟩

/-- The station right after the addition of a client. -/
def joined (r : ρ) (before : List (Action ρ)) (t : Transport) (c : ClientId) : Station ρ :=
  (create r).after (before ++ [.join t c])

theorem joined_after (r : ρ) (before : List (Action ρ)) (t : Transport) (c : ClientId)
    (since : List (Action ρ)) :
    (create r).after (before ++ .join t c :: since) = (joined r before t c).after since := by
  rw [joined, ← after_append, List.append_assoc]
  rfl

theorem kept_joined (r : ρ) (before : List (Action ρ)) (t : Transport) (c : ClientId) :
    (joined r before t c).Kept := (kept_create r).after _

theorem mem_joined (r : ρ) (before : List (Action ρ)) (t : Transport) (c : ClientId) :
    ⟨t, c, ((create r).after before).streams⟩ ∈ (joined r before t c).registered := by
  rw [joined, after_append]
  exact List.mem_append_right _ (List.mem_singleton.mpr rfl)

/-! ## Ends of streams -/

/-- A client that was registered is not any more. -/
def Unregisters (s : Station ρ) (a : Action ρ) (t : Transport) (c : ClientId) : Prop :=
  s.Registers t c ∧ ¬(s.perform a).1.Registers t c

theorem Kept.unregisters_hangUp {s : Station ρ} (h : s.Kept) {stream : StreamId}
    {fault : Option Fault} {t : Transport} {c : ClientId} :
    s.Unregisters (.hangUp stream fault) t c ↔ s.Registers t c ∧ ⟨t, c, stream⟩ ∈ s.reading := by
  refine and_congr_right fun hregisters => ?_
  rw [Station.perform, hangUp]
  cases hr : s.reader? stream with
  | none =>
    have hgone : ⟨t, c, stream⟩ ∉ s.reading := not_mem_reading_of_reader? hr
    exact iff_of_false (fun h' => h' hregisters) hgone
  | some r =>
    obtain ⟨hmem, hstream⟩ := mem_reading_of_reader? hr
    have hsame : ⟨t, c, stream⟩ ∈ s.reading ↔ r.transport = t ∧ r.client = c := by
      constructor
      · intro h'
        rw [h.eq_of_stream hmem h' hstream]
        exact ⟨rfl, rfl⟩
      · rintro ⟨rfl, rfl⟩
        exact hstream ▸ hmem
    rw [hsame]
    constructor
    · intro hnone
      by_contra hother
      obtain ⟨y, hy, rfl, rfl⟩ := hregisters
      exact hnone ⟨y, mem_filter_holds.mpr ⟨hy, fun h' => hother ⟨h'.1.symm, h'.2.symm⟩⟩, rfl, rfl⟩
    · rintro ⟨rfl, rfl⟩ ⟨y, hy, hclient⟩
      exact (mem_filter_holds.mp hy).2 hclient

/-- Where a stream is still current, its client was not added again. -/
theorem Kept.not_joined {s : Station ρ} (h : s.Kept) {x : Registration} {since : List (Action ρ)}
    (hx : x ∈ s.registered) (current : x ∈ (s.after since).registered) :
    .join x.transport x.client ∉ since := by
  induction since generalizing s with
  | nil => simp
  | cons a since ih =>
    have hreading := h.reads x hx
    have hlt := Nat.lt_of_lt_of_le (h.numbered x hreading) (s.booked_perform a).streams_le
    have hx' : x ∈ (s.perform a).1.registered := by
      by_contra hgone
      exact not_mem_registered_after hgone hlt since current
    have ha := (((s.booked_perform a).mem_reading_iff h hreading).mp ((h.perform a).reads x hx')).2
    simp only [List.mem_cons, not_or]
    exact ⟨fun h' => ha ⟨h'.symm, hx⟩, ih (h.perform a) hx' current⟩

theorem Kept.unregisters_iff {s : Station ρ} (h : s.Kept) {x : Registration} (hx : x ∈ s.registered)
    (since : List (Action ρ)) (fault : Option Fault) :
    ((s.after since).Unregisters (.hangUp x.stream fault) x.transport x.client ∧
        .join x.transport x.client ∈ since) ↔
      (s.after since).Registers x.transport x.client ∧ (∀ fault, .hangUp x.stream fault ∉ since) ∧
        s.Lapses x.transport x.client since := by
  rw [(h.after since).unregisters_hangUp, and_assoc, ← h.adrift_iff hx]
  refine and_congr_right fun hregisters => and_congr_right fun hreading => ?_
  constructor
  · exact fun hjoin hcurrent => h.not_joined hx hcurrent hjoin
  · intro hgone
    obtain ⟨-, p, q, rfl, -, hlapsed⟩ := (h.adrift_iff hx since).mp ⟨hreading, hgone⟩
    by_contra hjoin
    rw [after_append] at hregisters
    exact not_registers_after hlapsed (fun h' => hjoin (List.mem_append_right _ h')) hregisters

/-- The end of a stream unregisters a client only if the stream came with some addition of it
there. It is an older one than the last addition exactly if it was let go on when its
registration lapsed, and its client is registered again. -/
theorem hangUp_unregisters_iff (r : ρ) :
    (∀ actions stream fault t c,
      ((create r).after actions).Unregisters (.hangUp stream fault) t c →
      ∃ before since, actions = before ++ .join t c :: since ∧
        stream = ((create r).after before).streams) ∧
    ∀ before since t c fault stream, stream = ((create r).after before).streams →
      ((((create r).after (before ++ .join t c :: since)).Unregisters (.hangUp stream fault) t c ∧
          .join t c ∈ since) ↔
        ((create r).after (before ++ .join t c :: since)).Registers t c ∧
          (∀ fault, .hangUp stream fault ∉ since) ∧ (joined r before t c).Lapses t c since) := by
  constructor
  · intro actions stream fault t c h
    exact mem_reading_create (((kept_create r).after actions).unregisters_hangUp.mp h).2
  · rintro before since t c fault _ rfl
    rw [joined_after]
    exact (kept_joined r before t c).unregisters_iff (mem_joined r before t c) since fault

/-- A client is added, removed and added again. The end of its first stream, number 0, takes
away the registration that came with its second, number 1. -/
theorem older_stream_unregisters :
    let before : List (Action Simulator) := [.join .tcp 0, .leave .tcp 0]
    let start := create (Simulator.create .standard)
    (start.after (before ++ [.join .tcp 0])).Unregisters (.hangUp 0 none) .tcp 0 ∧
      (start.after before).streams = 1 := by
  refine ⟨⟨?_, ?_⟩, rfl⟩
  · decide
  · decide

/-! ## Commands -/

/-- An action logs that it executes a request of a client, and the rotator has executed it. -/
def Executes (s : Station ρ) (a : Action ρ) (c : ClientId) (request : Request) : Prop :=
  .logged (.executing c request) ∈ (s.perform a).2 ∧
    (s.perform a).1.rotator = (Rotator.execute s.rotator request).rotator

/-- A payload that is not blank and decodes as this request. -/
def Commands (payload : Octets) (request : Request) : Prop :=
  payload.all Octets.isBlank = false ∧ Wire.decodeRequest payload = .ok request

theorem dispatch_executes (s : Station ρ) (c d : ClientId) (payload : Octets) (request : Request) :
    (.logged (.executing d request) ∈ (s.dispatch c payload).2 ∧
        (s.dispatch c payload).1.rotator = (Rotator.execute s.rotator request).rotator) ↔
      c = d ∧ Commands payload request := by
  unfold dispatch Commands
  split
  · rename_i hblank
    simp [hblank]
  rename_i hblank
  split
  · rename_i hdecode
    simp [hdecode]
  · rename_i own hdecode
    have hlog : .logged (.executing d request) ∈ Effect.logged (.executing c own) ::
        (Rotator.execute s.rotator own).changes.map .changed ++
          (Rotator.execute s.rotator own).refusal.toList.map
            (fun why => .logged (.refused c own why)) ↔ d = c ∧ request = own := by
      simp
    rw [hlog, hdecode]
    constructor
    · rintro ⟨⟨rfl, rfl⟩, -⟩
      exact ⟨rfl, by simpa using hblank, rfl⟩
    · rintro ⟨rfl, -, hown⟩
      injection hown with hown
      exact ⟨⟨rfl, hown.symm⟩, by rw [hown]⟩

/-- A message is executed exactly if it is a request, on a stream that is read. -/
theorem Kept.message_executes {s : Station ρ} (h : s.Kept) {stream : StreamId} {payload : Octets}
    {c : ClientId} {request : Request} :
    s.Executes (.message stream payload) c request ↔
      (∃ t, ⟨t, c, stream⟩ ∈ s.reading) ∧ Commands payload request := by
  rw [Executes, Station.perform, message]
  cases hr : s.reader? stream with
  | none =>
    refine iff_of_false (fun h' => by simp at h') ?_
    rintro ⟨⟨t, hmem⟩, -⟩
    exact not_mem_reading_of_reader? hr hmem
  | some r =>
    obtain ⟨hmem, hstream⟩ := mem_reading_of_reader? hr
    rw [dispatch_executes]
    refine and_congr_left fun _ => ⟨?_, ?_⟩
    · rintro rfl
      exact ⟨r.transport, hstream ▸ hmem⟩
    · rintro ⟨t, hmem'⟩
      rw [h.eq_of_stream hmem hmem' hstream]

/-- Nothing but a message makes a station execute a request. -/
theorem message_of_executing {s : Station ρ} {a : Action ρ} {c : ClientId} {request : Request}
    (hlog : .logged (.executing c request) ∈ (s.perform a).2) :
    ∃ stream payload, a = .message stream payload := by
  cases a with
  | message stream payload => exact ⟨stream, payload, rfl⟩
  | join t c => simp [Station.perform, join] at hlog
  | leave t c => simp [Station.perform, leave] at hlog
  | hangUp stream fault =>
    rw [Station.perform, hangUp] at hlog
    split at hlog
    · simp at hlog
    · simp [leave] at hlog
  | push t status failing =>
    simp only [Station.perform, pass, List.mem_append, List.mem_map] at hlog
    rcases hlog with ⟨r, -, hr⟩ | ⟨r, -, hr⟩
    · split at hr <;> simp at hr
    · simp at hr
  | turn f => simp [Station.perform, turn] at hlog

/-- Whatever a station executes was a request on a stream that came with an addition of its
client. Requests of a stream that is not current are executed exactly if the stream was let
go on when its registration lapsed. -/
theorem message_executes_iff (r : ρ) :
    (∀ actions a c request, ((create r).after actions).Executes a c request →
      ∃ payload before t since, actions = before ++ .join t c :: since ∧
        a = .message ((create r).after before).streams payload ∧ Commands payload request) ∧
    ∀ before since t c payload request stream, stream = ((create r).after before).streams →
      ((((create r).after (before ++ .join t c :: since)).Executes
            (.message stream payload) c request ∧
          ⟨t, c, stream⟩ ∉ ((create r).after (before ++ .join t c :: since)).registered) ↔
        Commands payload request ∧ (∀ fault, .hangUp stream fault ∉ since) ∧
          (joined r before t c).Lapses t c since) := by
  constructor
  · intro actions a c request h
    obtain ⟨stream, payload, rfl⟩ := message_of_executing h.1
    obtain ⟨⟨t, hmem⟩, hcommands⟩ := ((kept_create r).after actions).message_executes.mp h
    obtain ⟨before, since, rfl, hstream⟩ := mem_reading_create hmem
    exact ⟨payload, before, t, since, rfl, by rw [← hstream], hcommands⟩
  · rintro before since t c payload request _ rfl
    have hkept := kept_joined r before t c
    have hadrift := hkept.adrift_iff (mem_joined r before t c) since
    rw [joined_after, (hkept.after since).message_executes, ← hadrift]
    constructor
    · rintro ⟨⟨⟨u, hmem⟩, hcommands⟩, hgone⟩
      have hx := hkept.reads _ (mem_joined r before t c)
      have hold : ((create r).after before).streams < (joined r before t c).streams :=
        hkept.numbered _ hx
      have hu : ⟨u, c, ((create r).after before).streams⟩ ∈ (joined r before t c).reading := by
        by_contra hnew
        exact not_mem_reading_after hnew hold since hmem
      rw [hkept.eq_of_stream hu hx rfl] at hmem
      exact ⟨hcommands, hmem, hgone⟩
    · rintro ⟨hcommands, hmem, hgone⟩
      exact ⟨⟨⟨t, hmem⟩, hcommands⟩, hgone⟩

/-- A client is added and removed, and nobody is registered. Its stream still turns the
rotator. -/
theorem unregistered_client_commands :
    let s := (create (Simulator.create .standard)).after [.join .tcp 0, .leave .tcp 0]
    s.Executes (.message 0 (Wire.writeRequest (.setAzimuth 90))) 0 (.setAzimuth 90) ∧
      s.registered = [] := by
  refine ⟨⟨?_, ?_⟩, rfl⟩
  · decide +kernel
  · decide +kernel

end Aerial.Station
