import Aerial.Proofs.Station.Effects

/-! # Registrations and streams

Who is registered and whose stream is read are kept in two lists, and only some actions
change both. `Booked` says once what any action does to them: an added client enters
both lists, and its stale registration leaves both; the end of a stream takes the stream
out of one list and its client out of the other; whatever else unregisters a client
leaves its stream being read. From this follow the laws of every reachable station,
`Kept`: registered streams are read, streams are numbered without gaps or repeats, and
a client has at most one registration on a transport. -/

namespace Aerial.Station

variable {ρ : Type}

/-- Whether a client is registered on a transport. -/
def Registers (s : Station ρ) (t : Transport) (c : ClientId) : Prop :=
  ∃ r ∈ s.registered, r.transport = t ∧ r.client = c

instance (s : Station ρ) (t : Transport) (c : ClientId) : Decidable (s.Registers t c) :=
  inferInstanceAs (Decidable (∃ r ∈ s.registered, r.transport = t ∧ r.client = c))

/-- What an action does to registrations and streams. -/
inductive Booked (s s' : Station ρ) : Action ρ → Prop where
  | join (t : Transport) (c : ClientId)
      (registered : s'.registered = s.registered.filter (!holds t c ·) ++ [⟨t, c, s.streams⟩])
      (reading : s'.reading =
        s.reading.filter (!(s.registered.filter (holds t c)).contains ·) ++ [⟨t, c, s.streams⟩])
      (streams : s'.streams = s.streams + 1) : Booked s s' (.join t c)
  | hangUp (r : Registration) (fault : Option Fault) (reader : s.reader? r.stream = some r)
      (registered : s'.registered = s.registered.filter (!holds r.transport r.client ·))
      (reading : s'.reading = s.reading.filter (· ≠ r)) (streams : s'.streams = s.streams) :
      Booked s s' (.hangUp r.stream fault)
  | drop (a : Action ρ) (keep : Registration → Bool)
      (registered : s'.registered = s.registered.filter keep)
      (reading : s'.reading = s.reading) (streams : s'.streams = s.streams)
      (unjoined : ∀ t c, a ≠ .join t c)
      (unread : ∀ stream fault, a = .hangUp stream fault → s.reader? stream = none) : Booked s s' a

theorem registered_unchanged (s : Station ρ) : s.registered = s.registered.filter fun _ => true :=
  (List.filter_eq_self.mpr fun _ _ => rfl).symm

theorem booked_hangUp (s : Station ρ) (stream : StreamId) (fault : Option Fault) :
    Booked s (s.hangUp stream fault).1 (.hangUp stream fault) := by
  cases hr : s.reader? stream with
  | none =>
    rw [hangUp, hr]
    exact .drop _ _ s.registered_unchanged rfl rfl (by simp) (by simp [hr])
  | some r =>
    obtain rfl : r.stream = stream := by simpa using List.find?_some hr
    rw [hangUp, hr]
    exact .hangUp r fault hr rfl rfl rfl

theorem booked_perform [Rotator ρ] (s : Station ρ) (a : Action ρ) : Booked s (s.perform a).1 a := by
  cases a with
  | join t c => exact .join t c rfl rfl rfl
  | leave t c => exact .drop _ (!holds t c ·) rfl rfl rfl (by simp) (by simp)
  | message stream payload =>
    obtain ⟨v, hv⟩ := s.message_station stream payload
    rw [perform, hv]
    exact .drop _ _ s.registered_unchanged rfl rfl (by simp) (by simp)
  | hangUp stream fault => exact s.booked_hangUp stream fault
  | push t status failing => exact .drop _ _ rfl rfl rfl (by simp) (by simp)
  | turn f => exact .drop _ _ s.registered_unchanged rfl rfl (by simp) (by simp)

/-! ## Laws of the lists -/

structure Kept (s : Station ρ) : Prop where
  reads : ∀ r ∈ s.registered, r ∈ s.reading
  numbered : ∀ r ∈ s.reading, r.stream < s.streams
  distinct : (s.reading.map Registration.stream).Nodup
  once : (s.registered.map fun r => (r.transport, r.client)).Nodup

theorem kept_create (r : ρ) : (create r).Kept := ⟨by simp [create], by simp [create], .nil, .nil⟩

theorem mem_filter_holds {t : Transport} {c : ClientId} {r : Registration}
    {rs : List Registration} :
    r ∈ rs.filter (!holds t c ·) ↔ r ∈ rs ∧ ¬(r.transport = t ∧ r.client = c) := by
  simp only [List.mem_filter, holds, Bool.not_eq_true', decide_eq_false_iff_not]

theorem Booked.kept {s s' : Station ρ} {a : Action ρ} (booked : Booked s s' a) (h : s.Kept) :
    s'.Kept := by
  cases booked with
  | join t c registered reading streams =>
    refine ⟨?_, ?_, ?_, ?_⟩
    · intro r hr
      rw [registered] at hr
      rw [reading]
      rcases List.mem_append.mp hr with hr | hr
      · obtain ⟨hmem, hne⟩ := mem_filter_holds.mp hr
        refine List.mem_append_left _ (List.mem_filter.mpr ⟨h.reads r hmem, ?_⟩)
        simp [holds, hne]
      · exact List.mem_append_right _ hr
    · intro r hr
      rw [reading] at hr
      rcases List.mem_append.mp hr with hr | hr
      · rw [streams]
        exact Nat.lt_succ_of_lt (h.numbered r (List.mem_filter.mp hr).1)
      · obtain rfl := List.mem_singleton.mp hr
        simp [streams]
    · rw [reading, List.map_append, List.nodup_append]
      refine ⟨h.distinct.sublist (List.filter_sublist.map _), by simp, ?_⟩
      intro stream hstream _ hnew
      obtain ⟨r, hr, rfl⟩ := List.mem_map.mp hstream
      obtain rfl := List.mem_singleton.mp hnew
      exact Nat.ne_of_lt (h.numbered r (List.mem_filter.mp hr).1)
    · rw [registered, List.map_append, List.nodup_append]
      refine ⟨h.once.sublist (List.filter_sublist.map _), by simp, ?_⟩
      intro client hclient _ hnew
      obtain ⟨r, hr, rfl⟩ := List.mem_map.mp hclient
      obtain rfl := List.mem_singleton.mp hnew
      simpa using (mem_filter_holds.mp hr).2
  | hangUp r fault reader registered reading streams =>
    refine ⟨?_, ?_, ?_, ?_⟩
    · intro r' hr'
      rw [registered] at hr'
      obtain ⟨hmem, hne⟩ := mem_filter_holds.mp hr'
      rw [reading]
      refine List.mem_filter.mpr ⟨h.reads r' hmem, ?_⟩
      rw [decide_eq_true_eq]
      rintro rfl
      exact hne ⟨rfl, rfl⟩
    · intro r' hr'
      rw [reading] at hr'
      rw [streams]
      exact h.numbered r' (List.mem_filter.mp hr').1
    · rw [reading]
      exact h.distinct.sublist (List.filter_sublist.map _)
    · rw [registered]
      exact h.once.sublist (List.filter_sublist.map _)
  | drop a keep registered reading streams _ _ =>
    refine ⟨?_, ?_, ?_, ?_⟩
    · intro r hr
      rw [registered] at hr
      rw [reading]
      exact h.reads r (List.mem_filter.mp hr).1
    · rw [reading, streams]
      exact h.numbered
    · rw [reading]
      exact h.distinct
    · rw [registered]
      exact h.once.sublist (List.filter_sublist.map _)

variable [Rotator ρ]

theorem Kept.perform {s : Station ρ} (h : s.Kept) (a : Action ρ) : (s.perform a).1.Kept :=
  (s.booked_perform a).kept h

/-- The station after a run. -/
def after (s : Station ρ) (actions : List (Action ρ)) : Station ρ := (s.run actions).1

@[simp] theorem after_nil (s : Station ρ) : s.after [] = s := rfl

@[simp] theorem after_cons (s : Station ρ) (a : Action ρ) (actions : List (Action ρ)) :
    s.after (a :: actions) = (s.perform a).1.after actions := rfl

theorem after_append (s : Station ρ) (actions more : List (Action ρ)) :
    s.after (actions ++ more) = (s.after actions).after more := by
  induction actions generalizing s with
  | nil => rfl
  | cons a actions ih => exact ih (s.perform a).1

theorem effects_run_append (s : Station ρ) (actions more : List (Action ρ)) :
    (s.run (actions ++ more)).2 = (s.run actions).2 ++ ((s.after actions).run more).2 := by
  induction actions generalizing s with
  | nil => rfl
  | cons a actions ih =>
    simp only [List.cons_append, run, after_cons, ih, List.append_assoc]

theorem Kept.after {s : Station ρ} (h : s.Kept) (actions : List (Action ρ)) :
    (s.after actions).Kept := by
  induction actions generalizing s with
  | nil => exact h
  | cons a actions ih => exact ih (h.perform a)

end Aerial.Station
