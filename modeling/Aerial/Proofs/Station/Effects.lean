import Aerial.Station.Basic

/-! # What the effects of a station are

The protected quantity is what a station holds and writes for one client, whatever else
it does. A list of effects spares a client when its connection is neither made anew nor
closed in it. Then its registrations are as before, and it was written exactly what a
push on its transport sends: the writes and failures of other clients do not show. The
rotator moves only where a message or a turn moves it, and announces what that move
announces. -/

namespace Aerial

namespace Effect

def change? : Effect → Option Change
  | changed c => some c
  | _ => none

/-- What this client is written. -/
def payloadTo? (x : ClientId) : Effect → Option Octets
  | wrote c payload => if c = x then some payload else none
  | _ => none

/-- The changes that a list of effects announces. -/
def changes (es : List Effect) : List Change := es.filterMap change?

def payloadsTo (x : ClientId) (es : List Effect) : List Octets := es.filterMap (payloadTo? x)

/-- The connection of a client is neither made anew nor closed. -/
def Spares (x : ClientId) (es : List Effect) : Prop :=
  (∀ t, logged (.connected t x) ∉ es) ∧ closed x ∉ es

theorem changes_append (es fs : List Effect) : changes (es ++ fs) = changes es ++ changes fs :=
  List.filterMap_append ..

theorem payloadsTo_append (x : ClientId) (es fs : List Effect) :
    payloadsTo x (es ++ fs) = payloadsTo x es ++ payloadsTo x fs := List.filterMap_append ..

theorem changes_map_changed (cs : List Change) : changes (cs.map changed) = cs := by
  simp [changes, List.filterMap_map, Function.comp_def, change?]

theorem changes_eq_nil {es : List Effect} (h : ∀ e ∈ es, e.change? = none) : changes es = [] :=
  List.filterMap_eq_nil_iff.mpr h

theorem payloadsTo_eq_nil {x : ClientId} {es : List Effect}
    (h : ∀ e ∈ es, ∀ c payload, e ≠ wrote c payload) : payloadsTo x es = [] := by
  refine List.filterMap_eq_nil_iff.mpr fun e he => ?_
  cases e with
  | wrote c payload => exact absurd rfl (h _ he c payload)
  | logged _ => rfl
  | closed _ => rfl
  | changed _ => rfl

theorem spares_append {x : ClientId} {es fs : List Effect} :
    Spares x (es ++ fs) ↔ Spares x es ∧ Spares x fs := by
  simp only [Spares, List.mem_append, not_or, forall_and]
  exact and_and_and_comm

end Effect

namespace Station

variable {ρ : Type}

/-- The registrations of a client. -/
def held (s : Station ρ) (x : ClientId) : List Registration := s.registered.filter (·.client = x)

/-! ## Coming and going -/

theorem filter_holds_of_ne {t : Transport} {c x : ClientId} (h : c ≠ x) (rs : List Registration) :
    (rs.filter (!holds t c ·)).filter (·.client = x) = rs.filter (·.client = x) := by
  rw [List.filter_filter]
  refine List.filter_congr fun r _ => ?_
  by_cases hr : r.client = x
  · have hne : x ≠ c := h.symm
    simp [holds, hr, hne]
  · simp [hr]

theorem held_join {s : Station ρ} {t : Transport} {c x : ClientId} (h : c ≠ x) :
    (s.join t c).1.held x = s.held x := by
  simp only [held, join, List.filter_append, filter_holds_of_ne h]
  simp [h]

/-- A client that had no registration has the new one. -/
theorem held_join_self {s : Station ρ} {t : Transport} {x : ClientId} (new : s.held x = []) :
    (s.join t x).1.held x = [⟨t, x, s.streams⟩] := by
  have hgone : (s.registered.filter (!holds t x ·)).filter (·.client = x) = [] := by
    rw [List.filter_filter, List.filter_eq_nil_iff]
    intro r hr hclient
    exact List.filter_eq_nil_iff.mp new r hr (Bool.and_eq_true _ _ ▸ hclient).1
  unfold held join
  dsimp only
  rw [List.filter_append, hgone]
  simp

theorem held_leave {s : Station ρ} {t : Transport} {c x : ClientId} (h : c ≠ x) :
    (s.leave t c).1.held x = s.held x := filter_holds_of_ne h s.registered

theorem spares_join {s : Station ρ} {t : Transport} {c x : ClientId}
    (h : Effect.Spares x (s.join t c).2) : c ≠ x := by
  rintro rfl
  exact h.1 t (by simp [join])

theorem spares_leave {s : Station ρ} {t : Transport} {c x : ClientId}
    (h : Effect.Spares x (s.leave t c).2) : c ≠ x := by
  rintro rfl
  exact h.2 (by simp [leave])

theorem changes_leave (s : Station ρ) (t : Transport) (c : ClientId) :
    Effect.changes (s.leave t c).2 = [] := by
  unfold leave
  split <;> rfl

/-! ## Pushes -/

theorem held_pass (s : Station ρ) (t : Transport) (payload : Octets)
    (failing : ClientId → Option Fault) (x : ClientId) :
    (s.pass t payload failing).1.held x =
      (s.held x).filter fun r => !(decide (r.transport = t) && (failing x).isSome) := by
  simp only [held, pass, List.filter_filter]
  refine List.filter_congr fun r _ => ?_
  by_cases hr : r.client = x <;> simp [hr]

theorem payloadsTo_pass (s : Station ρ) (t : Transport) (payload : Octets)
    (failing : ClientId → Option Fault) (x : ClientId) :
    Effect.payloadsTo x (s.pass t payload failing).2 =
      if (failing x).isSome then []
      else ((s.held x).filter (·.transport = t)).map fun _ => payload := by
  have hclosed : ∀ rs : List Registration,
      Effect.payloadsTo x (rs.map fun r => Effect.closed r.client) = [] := by
    intro rs
    refine Effect.payloadsTo_eq_nil fun e he c payload => ?_
    obtain ⟨r, -, rfl⟩ := List.mem_map.mp he
    simp
  simp only [pass, Effect.payloadsTo_append, hclosed, List.append_nil, held]
  induction s.registered with
  | nil => simp [Effect.payloadsTo]
  | cons r rs ih =>
    by_cases ht : r.transport = t
    · by_cases hr : r.client = x
      · cases hx : failing x <;>
          simp_all [Effect.payloadsTo, Effect.payloadTo?, List.filterMap_cons]
      · cases hf : failing r.client <;>
          simp_all [Effect.payloadsTo, Effect.payloadTo?, List.filterMap_cons]
    · by_cases hr : r.client = x <;> simp_all [Effect.payloadsTo]

theorem closed_mem_pass {s : Station ρ} {t : Transport} {payload : Octets}
    {failing : ClientId → Option Fault} {x : ClientId} {r : Registration} (hr : r ∈ s.held x)
    (ht : r.transport = t) (hfail : (failing x).isSome) :
    Effect.closed x ∈ (s.pass t payload failing).2 := by
  obtain ⟨hreg, hx⟩ := List.mem_filter.mp hr
  rw [decide_eq_true_eq] at hx
  refine List.mem_append_right _ (List.mem_map.mpr ⟨r, ?_, by rw [hx]⟩)
  simp [List.mem_filter, hreg, ht, hx, hfail]

/-- A client that is not closed was written what its transport is sent. -/
theorem pass_of_spares {s : Station ρ} {t : Transport} {payload : Octets}
    {failing : ClientId → Option Fault} {x : ClientId}
    (h : Effect.Spares x (s.pass t payload failing).2) :
    (s.pass t payload failing).1.held x = s.held x ∧
      Effect.payloadsTo x (s.pass t payload failing).2 =
        ((s.held x).filter (·.transport = t)).map fun _ => payload := by
  rw [held_pass, payloadsTo_pass]
  cases hfail : (failing x).isSome with
  | false => simp
  | true =>
    have hother : ∀ r ∈ s.held x, r.transport ≠ t :=
      fun r hr ht => h.2 (closed_mem_pass hr ht hfail)
    constructor
    · rw [List.filter_eq_self]
      intro r hr
      simp [hother r hr]
    · rw [if_pos rfl, List.filter_eq_nil_iff.mpr (by simpa using hother)]
      rfl

/-! ## Any action -/

theorem spares_hangUp {s : Station ρ} {stream : StreamId} {fault : Option Fault} {x : ClientId}
    (h : Effect.Spares x (s.hangUp stream fault).2) :
    (s.hangUp stream fault).1.held x = s.held x := by
  unfold hangUp at *
  split at h
  · rfl
  · exact held_leave (spares_leave (Effect.spares_append.mp h).2)

variable [Rotator ρ]

theorem dispatch_station (s : Station ρ) (c : ClientId) (payload : Octets) :
    ∃ v, (s.dispatch c payload).1 = { s with rotator := v } := by
  unfold dispatch
  split
  · exact ⟨s.rotator, rfl⟩
  split
  · exact ⟨s.rotator, rfl⟩
  · exact ⟨_, rfl⟩

/-- A message changes nothing but the rotator. -/
theorem message_station (s : Station ρ) (stream : StreamId) (payload : Octets) :
    ∃ v, (s.message stream payload).1 = { s with rotator := v } := by
  unfold message
  split
  · exact ⟨s.rotator, rfl⟩
  · exact dispatch_station ..

/-- A spared client keeps its registrations. -/
theorem held_perform {s : Station ρ} {a : Action ρ} {x : ClientId}
    (h : Effect.Spares x (s.perform a).2) : (s.perform a).1.held x = s.held x := by
  cases a with
  | join t c => exact held_join (spares_join h)
  | leave t c => exact held_leave (spares_leave h)
  | message stream payload =>
    obtain ⟨v, hv⟩ := s.message_station stream payload
    rw [perform, hv]
    rfl
  | hangUp stream fault => exact spares_hangUp h
  | push t status failing => exact (pass_of_spares h).1
  | turn f => rfl

/-- Only a push writes. -/
theorem payloadsTo_perform {s : Station ρ} {a : Action ρ} {x : ClientId}
    (h : ∀ t status failing, a ≠ .push t status failing) :
    Effect.payloadsTo x (s.perform a).2 = [] := by
  refine Effect.payloadsTo_eq_nil fun e he c payload => ?_
  rintro rfl
  cases a with
  | join t c => simp [perform, join] at he
  | leave t c => simp [perform, leave] at he
  | message stream payload =>
    simp only [perform, message] at he
    split at he
    · simp at he
    unfold dispatch at he
    split at he
    · simp at he
    split at he <;> simp at he
  | hangUp stream fault =>
    simp only [perform, hangUp] at he
    split at he <;> simp [leave] at he
  | push t status failing => exact h t status failing rfl
  | turn f => simp [perform, turn] at he

/-! ## The rotator -/

/-- Apart from messages and turns nothing touches the rotator. -/
theorem rotator_perform {s : Station ρ} {a : Action ρ}
    (hmessage : ∀ stream payload, a ≠ .message stream payload) (hturn : ∀ f, a ≠ .turn f) :
    (s.perform a).1.rotator = s.rotator ∧ Effect.changes (s.perform a).2 = [] := by
  cases a with
  | join t c =>
    refine ⟨rfl, Effect.changes_eq_nil fun e he => ?_⟩
    simp only [perform, join, List.mem_append, List.mem_map, List.mem_singleton] at he
    rcases he with ⟨_, _, rfl⟩ | rfl <;> rfl
  | leave t c => exact ⟨rfl, changes_leave s t c⟩
  | message stream payload => exact absurd rfl (hmessage stream payload)
  | hangUp stream fault =>
    simp only [perform, hangUp]
    split
    · exact ⟨rfl, rfl⟩
    · refine ⟨rfl, ?_⟩
      rw [Effect.changes_append, changes_leave, List.append_nil]
      exact Effect.changes_eq_nil (by simp [Effect.change?])
  | push t status failing =>
    refine ⟨rfl, Effect.changes_eq_nil fun e he => ?_⟩
    simp only [perform, pass, List.mem_append, List.mem_map] at he
    rcases he with ⟨r, _, rfl⟩ | ⟨_, _, rfl⟩
    · cases hf : failing r.client <;> rfl
    · rfl
  | turn f => exact absurd rfl (hturn f)

end Station

end Aerial
