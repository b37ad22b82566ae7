import Aerial.Proofs.Station.Streams
import Aerial.Proofs.Tasks
import Aerial.Proofs.Wire.Requests

/-! # What clients make a rotator do

A payload commands at most one request, and what a message does to the rotator of a station
is that request and nothing else. So the messages of a stream amount to the requests among
them, executed one after the other, and a station whose rotator refuses or whose clients
send nonsense goes on to the next message as if nothing had been sent. -/

namespace Aerial

/-! ## Requests in turn -/

/-- A rotator executes some requests. -/
def Rotator.obey {ρ : Type} [Rotator ρ] (v : ρ) (requests : List Request) : ρ × List Change :=
  Response.inTurn Rotator.execute v requests

theorem Rotator.obey_append {ρ : Type} [Rotator ρ] (v : ρ) (requests more : List Request) :
    obey v (requests ++ more) = ((obey (obey v requests).1 more).1,
      (obey v requests).2 ++ (obey (obey v requests).1 more).2) := Response.inTurn_append ..

namespace Effect

/-- The request that a client has made the rotator execute. -/
def request? : Effect → Option Request
  | logged (.executing _ r) => some r
  | _ => none

def requests (es : List Effect) : List Request := es.filterMap request?

theorem requests_append (es fs : List Effect) :
    requests (es ++ fs) = requests es ++ requests fs := List.filterMap_append ..

theorem eq_of_request? {e : Effect} {r : Request} (h : e.request? = some r) :
    ∃ c, e = logged (.executing c r) := by
  unfold request? at h
  split at h
  · rename_i c _
    cases h
    exact ⟨c, rfl⟩
  · cases h

theorem requests_eq_nil {es : List Effect} (h : ∀ e ∈ es, e.request? = none) : requests es = [] :=
  List.filterMap_eq_nil_iff.mpr h

end Effect

namespace Station

/-! ## One message -/

/-- The request that a payload commands, if it is neither blank nor unreadable. -/
def command? (payload : Octets) : Option Request :=
  if payload.all Octets.isBlank then none else (Wire.decodeRequest payload).toOption

theorem command?_eq_some_iff {payload : Octets} {r : Request} :
    command? payload = some r ↔ Commands payload r := by
  unfold command? Commands
  cases hblank : payload.all Octets.isBlank with
  | true => simp
  | false => cases hdecode : Wire.decodeRequest payload <;> simp [Except.toOption]

/-- Whatever is read as a request commands it. -/
theorem command?_of_decodes {payload : Octets} {r : Request}
    (h : Wire.decodeRequest payload = .ok r) : command? payload = some r :=
  command?_eq_some_iff.mpr ⟨Wire.not_blank_of_decodes h, h⟩

theorem command?_writeRequest (r : Request) : command? (Wire.writeRequest r) = some r :=
  command?_of_decodes (Wire.decodeRequest_writeRequest r)

variable {ρ : Type}

/-- The request that a message makes a station execute. -/
def heeds (s : Station ρ) (stream : StreamId) (payload : Octets) : Option Request :=
  (s.reader? stream).bind fun _ => command? payload

/-- A station, and what it does to get there, as the rotator executes these requests. -/
def Obeys [Rotator ρ] (s : Station ρ) (requests : List Request) (next : Station ρ × List Effect) :
    Prop :=
  next.1 = { s with rotator := (Rotator.obey s.rotator requests).1 } ∧
    Effect.changes next.2 = (Rotator.obey s.rotator requests).2 ∧
    Effect.requests next.2 = requests

variable [Rotator ρ]

theorem obeys_nil (s : Station ρ) : s.Obeys [] (s, []) := ⟨rfl, rfl, rfl⟩

theorem Obeys.append {s : Station ρ} {rs qs : List Request} {now next : Station ρ × List Effect}
    (h : s.Obeys rs now) (hnext : now.1.Obeys qs next) :
    s.Obeys (rs ++ qs) (next.1, now.2 ++ next.2) := by
  obtain ⟨hstation, hchanges, hrequests⟩ := h
  obtain ⟨hstation', hchanges', hrequests'⟩ := hnext
  rw [hstation] at hstation' hchanges'
  rw [Obeys, Rotator.obey_append, Effect.changes_append, Effect.requests_append, hchanges, hchanges',
    hrequests, hrequests']
  exact ⟨hstation', rfl, rfl⟩

theorem dispatch_obeys (s : Station ρ) (c : ClientId) (payload : Octets) :
    s.Obeys (command? payload).toList (s.dispatch c payload) := by
  unfold dispatch command?
  split
  · exact s.obeys_nil
  cases Wire.decodeRequest payload with
  | error _ => exact ⟨rfl, rfl, rfl⟩
  | ok request =>
    have hrefusal : ∀ e ∈ (Rotator.execute s.rotator request).refusal.toList.map fun why =>
        Effect.logged (.refused c request why), e.change? = none ∧ e.request? = none := by
      intro e he
      obtain ⟨why, -, rfl⟩ := List.mem_map.mp he
      exact ⟨rfl, rfl⟩
    have hchanged : ∀ e ∈ (Rotator.execute s.rotator request).changes.map Effect.changed,
        e.request? = none := by
      intro e he
      obtain ⟨change, -, rfl⟩ := List.mem_map.mp he
      rfl
    rw [Except.toOption, Option.toList_some, Obeys, Rotator.obey, Response.inTurn_singleton]
    refine ⟨rfl, ?_, ?_⟩
    · dsimp only
      rw [Effect.changes_append, Effect.changes_eq_nil fun e he => (hrefusal e he).1,
        List.append_nil]
      exact Effect.changes_map_changed _
    · dsimp only
      rw [Effect.requests_append, Effect.requests_eq_nil fun e he => (hrefusal e he).2,
        List.append_nil]
      exact congrArg (request :: ·) (Effect.requests_eq_nil hchanged)

/-- A message makes the rotator execute the request it commands, and nothing else. -/
theorem message_obeys (s : Station ρ) (stream : StreamId) (payload : Octets) :
    s.Obeys (s.heeds stream payload).toList (s.message stream payload) := by
  unfold message heeds
  cases s.reader? stream with
  | none => exact s.obeys_nil
  | some r => exact s.dispatch_obeys r.client payload

/-! ## Runs -/

theorem requests_perform {s : Station ρ} {a : Action ρ}
    (h : ∀ stream payload, a ≠ .message stream payload) : Effect.requests (s.perform a).2 = [] := by
  refine Effect.requests_eq_nil fun e he => ?_
  cases hr : e.request? with
  | none => rfl
  | some r =>
    obtain ⟨c, rfl⟩ := Effect.eq_of_request? hr
    obtain ⟨stream, payload, rfl⟩ := message_of_executing he
    exact absurd rfl (h stream payload)

/-- In a run the rotator executes the requests that are logged, and has no other part in it. -/
theorem run_obeys {s : Station ρ} {actions : List (Action ρ)}
    (h : ∀ a ∈ actions, ∀ f, a ≠ .turn f) :
    ((s.run actions).1.rotator, Effect.changes (s.run actions).2) =
      Rotator.obey s.rotator (Effect.requests (s.run actions).2) := by
  induction actions generalizing s with
  | nil => rfl
  | cons a actions ih =>
    have hrun := ih (s := (s.perform a).1) fun b hb => h b (List.mem_cons_of_mem a hb)
    have hfirst : ((s.perform a).1.rotator, Effect.changes (s.perform a).2) =
        Rotator.obey s.rotator (Effect.requests (s.perform a).2) := by
      by_cases hmessage : ∀ stream payload, a ≠ .message stream payload
      · obtain ⟨hrotator, hchanges⟩ := rotator_perform hmessage (h a List.mem_cons_self)
        rw [requests_perform hmessage, hrotator, hchanges]
        rfl
      · simp only [ne_eq, not_forall, not_not] at hmessage
        obtain ⟨stream, payload, rfl⟩ := hmessage
        obtain ⟨hstation, hchanges, hrequests⟩ := s.message_obeys stream payload
        rw [perform, hstation, hchanges, hrequests]
    have hcons : s.run (a :: actions) = (((s.perform a).1.run actions).1,
        (s.perform a).2 ++ ((s.perform a).1.run actions).2) := rfl
    rw [hcons, Effect.changes_append, Effect.requests_append, Rotator.obey_append, ← hfirst,
      ← hrun]

/-! ## The messages of a stream -/

/-- The messages of a stream that is read amount to the requests among them. -/
theorem obeys_run {s : Station ρ} {stream : StreamId} (read : (s.reader? stream).isSome)
    (payloads : List Octets) :
    s.Obeys (payloads.filterMap command?) (s.run (payloads.map (.message stream))) := by
  induction payloads generalizing s with
  | nil => exact s.obeys_nil
  | cons payload payloads ih =>
    have hheeds : s.heeds stream payload = command? payload := by
      obtain ⟨r, hr⟩ := Option.isSome_iff_exists.mp read
      rw [heeds, hr, Option.bind_some]
    have hmessage := s.message_obeys stream payload
    rw [hheeds] at hmessage
    have hread : ((s.message stream payload).1.reader? stream).isSome := by
      rw [hmessage.1]
      exact read
    have hsplit : (payload :: payloads).filterMap command?
        = (command? payload).toList ++ payloads.filterMap command? := by
      rw [List.filterMap_cons]
      cases command? payload <;> rfl
    rw [hsplit]
    exact hmessage.append (ih hread)

end Station

end Aerial
