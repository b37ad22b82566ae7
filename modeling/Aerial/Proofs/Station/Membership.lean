import Aerial.Proofs.Station.Deliveries
import Mathlib.Data.Finset.Card

/-! # Who is registered, told from what was done

A client is on the list of a transport if it was added there and nothing undid that since. Three
things undo it: its removal, a push on the transport that cannot be written to it, and the end
of a stream of its own that is still live. A stream is live from the addition it came with until
it ends, or until another addition finds the client registered with it and ends it silently.
Everything else, be it messages of any kind, the failures of other clients or whatever is done
on the other transport, leaves the registration as it was. -/

namespace Aerial.Station

variable {ρ : Type}

/-- What takes a client off the list of a transport, given which of its streams are live. -/
inductive Undoes (live : StreamId → Prop) (t : Transport) (c : ClientId) : Action ρ → Prop where
  | leave : Undoes live t c (.leave t c)
  | failed (status : Status) (failing : ClientId → Option Fault) (fails : failing c ≠ none) :
      Undoes live t c (.push t status failing)
  | ended (stream : StreamId) (fault : Option Fault) (own : live stream) :
      Undoes live t c (.hangUp stream fault)

/-- How many clients these actions add, and so how many streams there have been. -/
def additions (actions : List (Action ρ)) : Nat :=
  actions.countP fun
    | .join .. => true
    | _ => false

/-! ## The list of a transport -/

theorem registers_iff_filter {s : Station ρ} {t : Transport} {c : ClientId} :
    s.Registers t c ↔ s.registered.filter (holds t c) ≠ [] := by
  simp [Registers, holds, List.filter_eq_nil_iff]

theorem filter_holds_other {t u : Transport} {c d : ClientId} (h : ¬(u = t ∧ d = c))
    (rs : List Registration) :
    (rs.filter (!holds u d ·)).filter (holds t c) = rs.filter (holds t c) := by
  rw [List.filter_filter]
  refine List.filter_congr fun r _ => ?_
  by_cases hr : r.transport = t ∧ r.client = c
  · obtain ⟨rfl, rfl⟩ := hr
    have hne : ¬(r.transport = u ∧ r.client = d) := fun h' => h ⟨h'.1.symm, h'.2.symm⟩
    simp [holds, hne]
  · simp [holds, hr]

theorem Kept.length_filter_holds {s : Station ρ} (h : s.Kept) (t : Transport) (c : ClientId) :
    (s.registered.filter (holds t c)).length ≤ 1 := by
  have hnodup : (s.registered.filter (holds t c)).Nodup := h.once.of_map.filter _
  have hsame : ∀ x ∈ s.registered.filter (holds t c), ∀ y ∈ s.registered.filter (holds t c),
      x = y := by
    intro x hx y hy
    simp only [List.mem_filter, holds, decide_eq_true_eq] at hx hy
    exact h.eq_of_client hx.1 hy.1 (hx.2.1.trans hy.2.1.symm) (hx.2.2.trans hy.2.2.symm)
  cases hlist : s.registered.filter (holds t c) with
  | nil => exact Nat.zero_le _
  | cons x rest =>
    cases rest with
    | nil => exact Nat.le_refl _
    | cons y rest =>
      rw [hlist] at hnodup hsame
      have hxy := hsame x (by simp) y (by simp)
      simp [hxy] at hnodup

/-- The count of a transport is the number of clients registered there. -/
theorem Kept.clientCount_eq {s : Station ρ} (h : s.Kept) (t : Transport) :
    ∃ ids : Finset ClientId, (∀ c, c ∈ ids ↔ s.Registers t c) ∧ s.clientCount t = ids.card := by
  let clients := (s.registered.filter (·.transport = t)).map Registration.client
  have hpairs : clients.map (fun c => (t, c))
      = (s.registered.filter (·.transport = t)).map fun r => (r.transport, r.client) := by
    rw [List.map_map]
    refine List.map_congr_left fun r hr => ?_
    simp only [List.mem_filter, decide_eq_true_eq] at hr
    simp [hr.2]
  have hnodup : clients.Nodup := by
    have honce : (clients.map fun c => (t, c)).Nodup :=
      hpairs ▸ h.once.sublist (List.filter_sublist.map _)
    exact honce.of_map
  refine ⟨clients.toFinset, fun c => ?_, ?_⟩
  · simp [clients, Registers, and_assoc]
  · rw [List.toFinset_card_of_nodup hnodup, List.length_map]
    rfl

/-- To remove a client twice is to remove it once, and close it once more. -/
theorem leave_leave (s : Station ρ) (t : Transport) (c : ClientId) :
    (s.leave t c).1.leave t c = ((s.leave t c).1, [.closed c]) := by
  have hgone : (s.registered.filter (!holds t c ·)).any (holds t c) = false := by
    simp
  simp only [leave, List.filter_filter, Bool.and_self, hgone]
  simp

/-- What holds at every step of a run and one more. -/
theorem forall_step_append {P : List (Action ρ) → Action ρ → Prop} {since : List (Action ρ)}
    {a : Action ρ} :
    (∀ p b q, since ++ [a] = p ++ b :: q → P p b) ↔
      (∀ p b q, since = p ++ b :: q → P p b) ∧ P since a := by
  constructor
  · intro h
    refine ⟨fun p b q hsince => h p b (q ++ [a]) ?_, h since a [] rfl⟩
    rw [hsince, List.append_assoc, List.cons_append]
  · rintro ⟨hsince, hlast⟩ p b q hp
    rcases List.eq_nil_or_concat q with rfl | ⟨q, b', rfl⟩
    · obtain ⟨rfl, hb⟩ := List.append_inj' hp rfl
      cases hb
      exact hlast
    · rw [List.concat_eq_append, ← List.cons_append, ← List.append_assoc] at hp
      exact hsince p b q (List.append_inj' hp rfl).1

variable [Rotator ρ]

/-! ## One action -/

/-- Unless it is added or taken off, a client keeps its registration. -/
theorem filter_holds_perform {s : Station ρ} {a : Action ρ} {t : Transport} {c : ClientId}
    (unjoined : a ≠ .join t c)
    (keeps : ¬Undoes (fun stream => ⟨t, c, stream⟩ ∈ s.reading) t c a) :
    (s.perform a).1.registered.filter (holds t c) = s.registered.filter (holds t c) := by
  cases a with
  | join u d =>
    have hother : ¬(u = t ∧ d = c) := by
      rintro ⟨rfl, rfl⟩
      exact unjoined rfl
    have hfresh : [(⟨u, d, s.streams⟩ : Registration)].filter (holds t c) = [] := by
      simp [holds, hother]
    simp only [Station.perform, join, List.filter_append, filter_holds_other hother, hfresh,
      List.append_nil]
  | leave u d =>
    refine filter_holds_other ?_ s.registered
    rintro ⟨rfl, rfl⟩
    exact keeps .leave
  | message stream payload =>
    obtain ⟨v, hv⟩ := s.message_station stream payload
    rw [Station.perform, hv]
  | hangUp stream fault =>
    rw [Station.perform, hangUp]
    cases hr : s.reader? stream with
    | none => rfl
    | some r =>
      obtain ⟨hmem, hstream⟩ := mem_reading_of_reader? hr
      refine filter_holds_other ?_ s.registered
      rintro ⟨rfl, rfl⟩
      exact keeps (.ended stream fault (hstream ▸ hmem))
  | push u status failing =>
    have hwrites : u = t → failing c = none := by
      rintro rfl
      by_contra hfails
      exact keeps (.failed status failing hfails)
    simp only [Station.perform, pass, List.filter_filter]
    refine List.filter_congr fun r _ => ?_
    by_cases hr : r.transport = t ∧ r.client = c
    · obtain ⟨rfl, rfl⟩ := hr
      by_cases hu : r.transport = u
      · simp [hwrites hu.symm]
      · simp [hu]
    · simp [holds, hr]
  | turn f => rfl

theorem Kept.not_registers_of_undoes {s : Station ρ} (h : s.Kept) {a : Action ρ} {t : Transport}
    {c : ClientId} (undoes : Undoes (fun stream => ⟨t, c, stream⟩ ∈ s.reading) t c a) :
    ¬(s.perform a).1.Registers t c := by
  cases undoes with
  | leave =>
    rintro ⟨r, hr, hclient⟩
    exact (mem_filter_holds.mp hr).2 hclient
  | failed status failing fails => exact fun h' => (registers_pass.mp h').2 ⟨rfl, fails⟩
  | ended stream fault own =>
    intro h'
    obtain ⟨r, hr, -, ht, hc⟩ := (s.booked_perform (.hangUp stream fault)).registers h' (by simp)
    exact (h.unregisters_hangUp.mpr ⟨⟨r, hr, ht, hc⟩, own⟩).2 h'

/-- Who is registered after one action. -/
theorem Kept.registers_perform {s : Station ρ} (h : s.Kept) (a : Action ρ) (t : Transport)
    (c : ClientId) :
    (s.perform a).1.Registers t c ↔ a = .join t c ∨
      s.Registers t c ∧ ¬Undoes (fun stream => ⟨t, c, stream⟩ ∈ s.reading) t c a := by
  by_cases hjoin : a = .join t c
  · subst hjoin
    exact iff_of_true ⟨⟨t, c, s.streams⟩, List.mem_append_right _ List.mem_cons_self, rfl, rfl⟩
      (.inl rfl)
  · by_cases hundoes : Undoes (fun stream => ⟨t, c, stream⟩ ∈ s.reading) t c a
    · exact iff_of_false (h.not_registers_of_undoes hundoes) (by simp [hjoin, hundoes])
    · simp [registers_iff_filter, filter_holds_perform hjoin hundoes, hjoin, hundoes]

/-! ## Live streams -/

theorem streams_after (r : ρ) (actions : List (Action ρ)) :
    ((create r).after actions).streams = additions actions := by
  induction actions using List.reverseRecOn with
  | nil => rfl
  | append_singleton actions a ih =>
    rw [after_append, additions, List.countP_append, ← additions, ← ih]
    have hbooked := ((create r).after actions).booked_perform a
    cases hbooked with
    | join _ _ _ _ streams => exact streams
    | hangUp _ _ _ _ _ streams => exact streams
    | drop _ _ _ _ streams unjoined _ =>
      cases a with
      | join t c => exact absurd rfl (unjoined t c)
      | _ => exact streams

theorem streams_le_after (s : Station ρ) (since : List (Action ρ)) :
    s.streams ≤ (s.after since).streams := by
  induction since generalizing s with
  | nil => exact Nat.le_refl _
  | cons a since ih => exact Nat.le_trans (s.booked_perform a).streams_le (ih (s.perform a).1)

/-- A stream of a client that can still end: it came with an addition of the client, has not
ended since, and was not aborted by another addition that found the client registered with it. -/
def Live (r : ρ) (past : List (Action ρ)) (t : Transport) (c : ClientId) (stream : StreamId) :
    Prop :=
  ∃ before since, past = before ++ .join t c :: since ∧ stream = additions before ∧
    ∀ p a q, since = p ++ a :: q → (∀ fault, a ≠ .hangUp stream fault) ∧
      ¬(a = .join t c ∧
        ⟨t, c, stream⟩ ∈ ((create r).after (before ++ .join t c :: p)).registered)

theorem Kept.mem_reading_after_iff {s : Station ρ} (h : s.Kept) {x : Registration}
    (hx : x ∈ s.reading) (since : List (Action ρ)) :
    x ∈ (s.after since).reading ↔ ∀ p a q, since = p ++ a :: q →
      (∀ fault, a ≠ .hangUp x.stream fault) ∧
        ¬(a = .join x.transport x.client ∧ x ∈ (s.after p).registered) := by
  induction since using List.reverseRecOn with
  | nil => simp [hx]
  | append_singleton since a ih =>
    have hbooked := (s.after since).booked_perform a
    rw [forall_step_append, ← ih, after_append]
    by_cases hread : x ∈ (s.after since).reading
    · simp only [hread, true_and]
      exact hbooked.mem_reading_iff (h.after since) hread
    · have hold := Nat.lt_of_lt_of_le (h.numbered x hx) (s.streams_le_after since)
      exact iff_of_false (hbooked.not_mem_reading hread hold) fun h' => hread h'.1

/-- The streams that are read are the live ones. -/
theorem mem_reading_iff_live {r : ρ} {past : List (Action ρ)} {t : Transport} {c : ClientId}
    {stream : StreamId} :
    ⟨t, c, stream⟩ ∈ ((create r).after past).reading ↔ Live r past t c stream := by
  have hafter : ∀ before since, stream = additions before →
      (⟨t, c, stream⟩ ∈ ((create r).after (before ++ .join t c :: since)).reading ↔
        ∀ p a q, since = p ++ a :: q → (∀ fault, a ≠ .hangUp stream fault) ∧
          ¬(a = .join t c ∧
            ⟨t, c, stream⟩ ∈ ((create r).after (before ++ .join t c :: p)).registered)) := by
    rintro before since rfl
    have hkept := kept_joined r before t c
    have hjoined := hkept.reads _ (mem_joined r before t c)
    rw [streams_after] at hjoined
    simp only [joined_after]
    exact hkept.mem_reading_after_iff hjoined since
  constructor
  · intro hread
    obtain ⟨before, since, rfl, hstream⟩ := mem_reading_create hread
    rw [streams_after] at hstream
    exact ⟨before, since, rfl, hstream, (hafter before since hstream).mp hread⟩
  · rintro ⟨before, since, rfl, hstream, hlive⟩
    exact (hafter before since hstream).mpr hlive

/-! ## Whole runs -/

/-- A client is registered if it was added and nothing undid that since. -/
theorem registers_iff_added (r : ρ) (actions : List (Action ρ)) (t : Transport) (c : ClientId) :
    ((create r).after actions).Registers t c ↔
      ∃ before since, actions = before ++ .join t c :: since ∧ ∀ p a q, since = p ++ a :: q →
        ¬Undoes (Live r (before ++ .join t c :: p) t c) t c a := by
  induction actions using List.reverseRecOn with
  | nil => simp [create, Registers]
  | append_singleton actions a ih =>
    have hstep := ((kept_create r).after actions).registers_perform a t c
    simp only [mem_reading_iff_live] at hstep
    rw [after_append]
    refine hstep.trans ?_
    rw [ih]
    constructor
    · rintro (rfl | ⟨⟨before, since, rfl, hsince⟩, hlast⟩)
      · exact ⟨actions, [], rfl, by simp⟩
      · exact ⟨before, since ++ [a], by simp, forall_step_append.mpr ⟨hsince, hlast⟩⟩
    · rintro ⟨before, since, hactions, hsince⟩
      rcases List.eq_nil_or_concat since with rfl | ⟨since, b, rfl⟩
      · obtain ⟨-, ha⟩ := List.append_inj' hactions rfl
        cases ha
        exact .inl rfl
      · rw [List.concat_eq_append] at hactions hsince
        rw [← List.cons_append, ← List.append_assoc] at hactions
        obtain ⟨rfl, hab⟩ := List.append_inj' hactions rfl
        cases hab
        obtain ⟨hsince, hlast⟩ := forall_step_append.mp hsince
        exact .inr ⟨⟨before, since, rfl, hsince⟩, hlast⟩

/-- In every run a client is registered on a transport exactly if it was added there and has
since neither been removed, nor missed a push there, nor had a live stream end. It is registered
once, so the count is the number of such clients. Whatever is not one of these actions leaves
its registration as it was, a message even all registrations; and to remove it twice is to
remove it once. -/
theorem registration_law (r : ρ) (actions : List (Action ρ)) (t : Transport) (c : ClientId) :
    let s := (create r).after actions
    (s.Registers t c ↔
      ∃ before since, actions = before ++ .join t c :: since ∧ ∀ p a q, since = p ++ a :: q →
        ¬Undoes (Live r (before ++ .join t c :: p) t c) t c a) ∧
    (s.registered.filter (holds t c)).length ≤ 1 ∧
    (∃ ids : Finset ClientId, (∀ d, d ∈ ids ↔ s.Registers t d) ∧ s.clientCount t = ids.card) ∧
    (∀ a, a ≠ .join t c → ¬Undoes (Live r actions t c) t c a →
      (s.perform a).1.registered.filter (holds t c) = s.registered.filter (holds t c)) ∧
    (∀ stream payload, (s.message stream payload).1.registered = s.registered) ∧
    (s.leave t c).1.leave t c = ((s.leave t c).1, [.closed c]) := by
  intro s
  have hkept : s.Kept := (kept_create r).after actions
  refine ⟨registers_iff_added r actions t c, hkept.length_filter_holds t c,
    hkept.clientCount_eq t, ?_, ?_, s.leave_leave t c⟩
  · intro a unjoined keeps
    refine filter_holds_perform unjoined ?_
    simpa only [s, mem_reading_iff_live] using keeps
  · intro stream payload
    obtain ⟨v, hv⟩ := s.message_station stream payload
    rw [hv]

end Aerial.Station
