import Aerial.Proofs.Station.Streams
import Mathlib.Data.List.Infix

/-! # Every push reaches its clients once

A pass visits the clients of a transport one after the other, and the order means nothing:
`passIn` is a pass in an order of one's choice, `Ran` a run in which every pass has its own.
Whatever the order, a client that is registered on the transport is written the payload
once if its write succeeds, and is closed once and unregistered there if it fails; nothing
is written to anybody else. So the payloads of a client over a whole run can be told from
`sent`, the statuses that were pushed where it was registered and could be written to, and
while it stays registered on a transport these are all statuses pushed there. No other
client occurs in that list. -/

namespace Aerial.Station

variable {ρ : Type}

/-- The registrations that a pass on a transport visits. -/
def audience (s : Station ρ) (t : Transport) : List Registration :=
  s.registered.filter (·.transport = t)

/-- A pass that visits its clients in this order. -/
def passIn (s : Station ρ) (order : List Registration) (t : Transport) (payload : Octets)
    (failing : ClientId → Option Fault) : Station ρ × List Effect :=
  let write (r : Registration) : Effect :=
    match failing r.client with
    | none => .wrote r.client payload
    | some f => .logged (.writeFailed t r.client f)
  let failed := order.filter fun r => (failing r.client).isSome
  ({ s with registered := s.registered.filter (!failed.contains ·) },
    order.map write ++ failed.map fun r => .closed r.client)

/-! ## The order of a pass -/

theorem mem_audience {s : Station ρ} {t : Transport} {r : Registration} :
    r ∈ s.audience t ↔ r ∈ s.registered ∧ r.transport = t := by
  simp [audience]

section

variable {s : Station ρ} {order : List Registration} {t : Transport}

/-- In any order a pass leaves the same clients. -/
theorem passIn_station (perm : order.Perm (s.audience t)) (payload : Octets)
    (failing : ClientId → Option Fault) :
    (s.passIn order t payload failing).1 = (s.pass t payload failing).1 := by
  have hkeep : ∀ r ∈ s.registered,
      (!(order.filter fun r => (failing r.client).isSome).contains r)
        = !(decide (r.transport = t) && (failing r.client).isSome) := by
    intro r hr
    have hmem : r ∈ order ↔ r.transport = t := by
      rw [perm.mem_iff, mem_audience]
      exact and_iff_right hr
    by_cases ht : r.transport = t
    · cases hf : (failing r.client).isSome <;> simp [hmem, ht, hf]
    · simp [hmem, ht]
  simp only [passIn, pass, List.filter_congr hkeep]

/-- A pass as the station does it goes in order of registration. -/
theorem passIn_audience (s : Station ρ) (t : Transport) (payload : Octets)
    (failing : ClientId → Option Fault) :
    s.passIn (s.audience t) t payload failing = s.pass t payload failing := by
  have hfailed :
      (s.audience t).filter (fun r => decide (r.transport = t) && (failing r.client).isSome)
        = (s.audience t).filter fun r => (failing r.client).isSome := by
    refine List.filter_congr fun r hr => ?_
    simp [(mem_audience.mp hr).2]
  refine Prod.ext (passIn_station (.refl _) payload failing) ?_
  simp only [pass]
  rw [← audience, hfailed]
  rfl

/-- In any order a pass has the same effects. -/
theorem passIn_effects (perm : order.Perm (s.audience t)) (payload : Octets)
    (failing : ClientId → Option Fault) :
    (s.passIn order t payload failing).2.Perm (s.pass t payload failing).2 := by
  rw [← passIn_audience]
  exact (perm.map _).append ((perm.filter _).map _)

end

/-! ## What one pass does -/

/-- A client has at most one registration on a transport. -/
theorem Kept.map_held {s : Station ρ} (h : s.Kept) {α : Type} (t : Transport) (x : ClientId)
    (a : α) : (((s.held x).filter (·.transport = t)).map fun _ => a)
      = if s.Registers t x then [a] else [] := by
  have hsame : ∀ r ∈ (s.held x).filter (·.transport = t), (r.transport, r.client) = (t, x) := by
    intro r hr
    simp only [held, List.mem_filter, decide_eq_true_eq] at hr
    rw [hr.2, hr.1.2]
  have honce : (((s.held x).filter (·.transport = t)).map fun r => (r.transport, r.client)).Nodup :=
    h.once.sublist ((List.filter_sublist.trans List.filter_sublist).map _)
  have hregisters : s.Registers t x ↔ ∃ r, r ∈ (s.held x).filter (·.transport = t) := by
    simp only [Registers, held, List.mem_filter, decide_eq_true_eq]
    exact exists_congr fun r => by rw [and_assoc, and_comm (a := r.client = x)]
  cases hheld : (s.held x).filter (·.transport = t) with
  | nil => rw [if_neg (by simp [hregisters, hheld]), List.map_nil]
  | cons r rest =>
    rw [if_pos (by simp [hregisters, hheld])]
    cases rest with
    | nil => rfl
    | cons r' rest =>
      rw [hheld] at hsame honce
      rw [List.map_cons, List.map_cons, hsame r (by simp), hsame r' (by simp)] at honce
      simp at honce

theorem count_closed_pass (s : Station ρ) (t : Transport) (payload : Octets)
    (failing : ClientId → Option Fault) (x : ClientId) :
    (s.pass t payload failing).2.count (.closed x) =
      if (failing x).isSome then ((s.held x).filter (·.transport = t)).length else 0 := by
  unfold pass
  dsimp only
  rw [List.count_append, List.count_eq_zero.mpr, Nat.zero_add]
  · rw [held]
    induction s.registered with
    | nil => simp
    | cons r rs ih =>
      by_cases ht : r.transport = t
      · by_cases hr : r.client = x
        · cases hf : failing x <;> simp_all
        · cases hf : failing r.client <;> simp_all
      · by_cases hr : r.client = x <;> simp_all
  · intro hmem
    obtain ⟨r, -, hr⟩ := List.mem_map.mp hmem
    cases hf : failing r.client <;> simp [hf] at hr

theorem registers_pass {s : Station ρ} {t : Transport} {payload : Octets}
    {failing : ClientId → Option Fault} {u : Transport} {x : ClientId} :
    (s.pass t payload failing).1.Registers u x ↔
      s.Registers u x ∧ ¬(u = t ∧ failing x ≠ none) := by
  simp only [Registers, pass, List.mem_filter]
  constructor
  · rintro ⟨r, ⟨hr, hkept⟩, rfl, rfl⟩
    refine ⟨⟨r, hr, rfl, rfl⟩, ?_⟩
    rintro ⟨ht, hfail⟩
    simp [ht, Option.isSome_iff_ne_none.mpr hfail] at hkept
  · rintro ⟨⟨r, hr, rfl, rfl⟩, hkept⟩
    refine ⟨r, ⟨hr, ?_⟩, rfl, rfl⟩
    by_cases ht : r.transport = t
    · have hnone : failing r.client = none := by
        by_contra hfail
        exact hkept ⟨ht, hfail⟩
      simp [hnone]
    · simp [ht]

/-- What a pass in any order does to a client. -/
theorem Kept.passIn {s : Station ρ} (h : s.Kept) {order : List Registration} {t : Transport}
    (perm : order.Perm (s.audience t)) (payload : Octets) (failing : ClientId → Option Fault)
    (x : ClientId) :
    Effect.payloadsTo x (s.passIn order t payload failing).2
        = (if s.Registers t x ∧ failing x = none then [payload] else []) ∧
      (s.passIn order t payload failing).2.count (.closed x)
        = (if s.Registers t x ∧ failing x ≠ none then 1 else 0) ∧
      ∀ u, (s.passIn order t payload failing).1.Registers u x ↔
        s.Registers u x ∧ ¬(u = t ∧ failing x ≠ none) := by
  have heffects := passIn_effects perm payload failing
  refine ⟨?_, ?_, fun u => ?_⟩
  · have hpayloads : (Effect.payloadsTo x (s.passIn order t payload failing).2).Perm
        (Effect.payloadsTo x (s.pass t payload failing).2) := heffects.filterMap _
    rw [payloadsTo_pass, h.map_held] at hpayloads
    cases hf : failing x with
    | none => by_cases hr : s.Registers t x <;> simpa [hf, hr] using hpayloads
    | some f => simpa [hf] using hpayloads
  · rw [heffects.count_eq, count_closed_pass]
    have hlength := congrArg List.length (h.map_held t x ())
    rw [List.length_map] at hlength
    cases hf : failing x with
    | none => simp
    | some f => by_cases hr : s.Registers t x <;> simpa [hr] using hlength
  · rw [passIn_station perm]
    exact registers_pass

/-! ## What actions push -/

/-- The status that an action pushes, with its transport. -/
def Action.pushed? : Action ρ → Option (Transport × Status)
  | .push t status _ => some (t, status)
  | _ => none

/-- The statuses pushed in a run. -/
def pushes (actions : List (Action ρ)) : List (Transport × Status) :=
  actions.filterMap Action.pushed?

/-- What an action pushes to a client: nothing, unless it is registered on the transport and
its write succeeds. -/
def sentBy (s : Station ρ) (x : ClientId) : Action ρ → List (Transport × Status)
  | .push t status failing => if s.Registers t x ∧ failing x = none then [(t, status)] else []
  | _ => []

theorem sentBy_of_plain {s : Station ρ} {a : Action ρ} (x : ClientId)
    (plain : ∀ t status failing, a ≠ .push t status failing) : s.sentBy x a = [] := by
  cases a with
  | push t status failing => exact absurd rfl (plain t status failing)
  | _ => rfl

variable [Rotator ρ]

/-! ## Runs -/

/-- A run of actions with these effects, in which every pass visits its clients in an order
of its own. -/
inductive Ran : Station ρ → List (Action ρ) → List Effect → Station ρ → Prop
  | nil (s : Station ρ) : Ran s [] [] s
  | push {s s' : Station ρ} {actions : List (Action ρ)} {es : List Effect} (t : Transport)
      (status : Status) (failing : ClientId → Option Fault) (order : List Registration)
      (perm : order.Perm (s.audience t))
      (rest : Ran (s.passIn order t (payload t status) failing).1 actions es s') :
      Ran s (.push t status failing :: actions)
        ((s.passIn order t (payload t status) failing).2 ++ es) s'
  | other {s s' : Station ρ} {actions : List (Action ρ)} {es : List Effect} (a : Action ρ)
      (plain : ∀ t status failing, a ≠ .push t status failing)
      (rest : Ran (s.perform a).1 actions es s') : Ran s (a :: actions) ((s.perform a).2 ++ es) s'

/-- The orders of passes do not matter to the station. -/
theorem Ran.station {s s' : Station ρ} {actions : List (Action ρ)} {es : List Effect}
    (ran : Ran s actions es s') : s' = s.after actions := by
  induction ran with
  | nil s => rfl
  | push t status failing order perm rest ih => rw [ih, passIn_station perm]; rfl
  | other a plain rest ih => rw [ih]; rfl

/-- The statuses pushed to a client in a run. -/
def sent (x : ClientId) : Station ρ → List (Action ρ) → List (Transport × Status)
  | _, [] => []
  | s, a :: actions => s.sentBy x a ++ sent x (s.perform a).1 actions

/-- Whatever the order of its passes, a run writes to a client what was sent to it. -/
theorem Ran.payloadsTo {s s' : Station ρ} {actions : List (Action ρ)} {es : List Effect}
    (ran : Ran s actions es s') (h : s.Kept) (x : ClientId) :
    Effect.payloadsTo x es = (s.sent x actions).map fun d => payload d.1 d.2 := by
  induction ran with
  | nil s => rfl
  | @push s s' actions es t status failing order perm rest ih =>
    have hkept : (s.passIn order t (payload t status) failing).1.Kept := by
      rw [passIn_station perm]
      exact h.perform (.push t status failing)
    have hrest := ih hkept
    rw [passIn_station perm] at hrest
    rw [Effect.payloadsTo_append, (h.passIn perm _ failing x).1, hrest, sent, sentBy,
      List.map_append]
    split <;> rfl
  | other a plain rest ih =>
    rw [Effect.payloadsTo_append, payloadsTo_perform plain, ih (h.perform a), sent,
      sentBy_of_plain x plain]
    rfl

/-- A client that stays on a transport is sent everything pushed there. -/
theorem sent_on {s : Station ρ} {t : Transport} {x : ClientId} {actions : List (Action ρ)}
    (stays : ∀ p, p <+: actions → (s.after p).Registers t x) :
    (s.sent x actions).filter (·.1 = t) = (pushes actions).filter (·.1 = t) := by
  induction actions generalizing s with
  | nil => rfl
  | cons a actions ih =>
    have hrest : ∀ p, p <+: actions → ((s.perform a).1.after p).Registers t x := by
      intro p hp
      exact stays (a :: p) (List.cons_prefix_cons.mpr ⟨rfl, hp⟩)
    have hhere : s.Registers t x := stays [] List.nil_prefix
    have hthere : (s.perform a).1.Registers t x := hrest [] List.nil_prefix
    have hnow : (s.sentBy x a).filter (·.1 = t) = a.pushed?.toList.filter (·.1 = t) := by
      cases a with
      | push u status failing =>
        by_cases hu : u = t
        · subst hu
          have hwrites : failing x = none := by
            by_contra hfail
            exact (registers_pass.mp hthere).2 ⟨rfl, hfail⟩
          simp [sentBy, Action.pushed?, hhere, hwrites]
        · rw [sentBy]
          split <;> simp [Action.pushed?, hu]
      | _ => rfl
    rw [sent, List.filter_append, hnow, ih hrest, pushes, pushes, List.filterMap_cons]
    cases a.pushed? with
    | none => rfl
    | some d => rw [← List.filter_append]; rfl

/-- A client that is not registered on a transport is sent nothing that is pushed there. -/
theorem sent_off {s : Station ρ} {t : Transport} {x : ClientId} {actions : List (Action ρ)}
    (absent : ∀ p, p <+: actions → ¬(s.after p).Registers t x) :
    (s.sent x actions).filter (·.1 = t) = [] := by
  induction actions generalizing s with
  | nil => rfl
  | cons a actions ih =>
    have hrest : ∀ p, p <+: actions → ¬((s.perform a).1.after p).Registers t x := by
      intro p hp
      exact absent (a :: p) (List.cons_prefix_cons.mpr ⟨rfl, hp⟩)
    have hhere : ¬s.Registers t x := absent [] List.nil_prefix
    rw [sent, List.filter_append, ih hrest, List.append_nil]
    cases a with
    | push u status failing =>
      rw [sentBy]
      split
      · rename_i hsent
        have hu : u ≠ t := fun h => hhere (h ▸ hsent.1)
        simp [hu]
      · rfl
    | _ => rfl

/-- The runs of a station are among them. -/
theorem ran_run (s : Station ρ) (actions : List (Action ρ)) :
    Ran s actions (s.run actions).2 (s.after actions) := by
  induction actions generalizing s with
  | nil => exact .nil s
  | cons a actions ih =>
    have hrest := ih (s.perform a).1
    by_cases hpush : ∃ t status failing, a = .push t status failing
    · obtain ⟨t, status, failing, rfl⟩ := hpush
      rw [perform, ← passIn_audience] at hrest
      have hran := Ran.push t status failing (s.audience t) (.refl _) hrest
      rw [passIn_audience] at hran
      exact hran
    · exact .other a (fun t status failing h => hpush ⟨t, status, failing, h⟩) hrest

/-- In every run, with passes in any order, a push writes its payload once to each client
that is registered on the transport and can be written to, and to nobody else. It closes
each client once whose write fails, and unregisters it on that transport; other
registrations stay. So a client that stays registered on a transport is written, of what is
pushed there, everything in order, and nothing besides if it is registered nowhere else. -/
theorem push_exactly_once (r : ρ) {before : List (Action ρ)} {past : List Effect} {s : Station ρ}
    (ran : Ran (create r) before past s) :
    (∀ t status failing order, order.Perm (s.audience t) → ∀ x,
      let out := s.passIn order t (payload t status) failing
      Effect.payloadsTo x out.2
          = (if s.Registers t x ∧ failing x = none then [payload t status] else []) ∧
        out.2.count (.closed x) = (if s.Registers t x ∧ failing x ≠ none then 1 else 0) ∧
        ∀ u, out.1.Registers u x ↔ s.Registers u x ∧ ¬(u = t ∧ failing x ≠ none)) ∧
    ∀ during es s', Ran s during es s' → ∀ x,
      Effect.payloadsTo x es = (s.sent x during).map (fun d => payload d.1 d.2) ∧
      ∀ t, (∀ p, p <+: during → (s.after p).Registers t x) →
        (s.sent x during).filter (·.1 = t) = (pushes during).filter (·.1 = t) ∧
        ((∀ u, u ≠ t → ∀ p, p <+: during → ¬(s.after p).Registers u x) →
          s.sent x during = (pushes during).filter (·.1 = t)) := by
  have hkept : s.Kept := by
    rw [ran.station]
    exact (kept_create r).after before
  refine ⟨fun t status failing order perm x => hkept.passIn perm _ failing x, ?_⟩
  intro during es s' ran' x
  refine ⟨ran'.payloadsTo hkept x, fun t stays => ⟨sent_on stays, fun absent => ?_⟩⟩
  rw [← sent_on stays, eq_comm, List.filter_eq_self]
  intro d hd
  rw [decide_eq_true_eq]
  by_contra hother
  have hnone := sent_off (absent d.1 hother)
  exact List.filter_eq_nil_iff.mp hnone d hd (by simp)

/-- Clients 0 and 2 on one transport, client 1 on the other. -/
def gathering : List (Action Simulator) := [.join .tcp 0, .join .websocket 1, .join .tcp 2]

/-- The connection of client 2 is gone. -/
def gone (c : ClientId) : Option Fault := if c = 2 then some (.io "peer gone") else none

/-- Client 2 fails in the first push, client 0 is added again before the second. -/
def gatheringPushes (status : Status) : List (Action Simulator) :=
  [.push .tcp status gone, .leave .websocket 1, .join .tcp 0, .push .tcp status fun _ => none]

/-- The first pass goes from client 2 to client 0. Client 0 gets both lines, client 2 none. -/
theorem push_exactly_once_gathering :
    let status := (Simulator.create .standard).status
    let start := create (Simulator.create .standard)
    ∃ past es s s', Ran start gathering past s ∧ Ran s (gatheringPushes status) es s' ∧
      Effect.payloadsTo 0 es = [payload .tcp status, payload .tcp status] ∧
      Effect.payloadsTo 2 es = [] ∧ s'.registered = [⟨.tcp, 0, 3⟩] := by
  intro status start
  have past := ran_run start gathering
  let order : List Registration := [⟨.tcp, 2, 2⟩, ⟨.tcp, 0, 0⟩]
  have hrest := ran_run ((start.after gathering).passIn order .tcp (payload .tcp status) gone).1
    [.leave .websocket 1, .join .tcp 0, .push .tcp status fun _ => none]
  have hran := Ran.push .tcp status gone order (by decide) hrest
  obtain ⟨-, hruns⟩ := push_exactly_once (Simulator.create .standard) past
  have hstays : ∀ p ∈ (gatheringPushes status).inits,
      ((start.after gathering).after p).Registers .tcp 0 := by decide
  have helsewhere : ∀ p ∈ (gatheringPushes status).inits,
      ¬((start.after gathering).after p).Registers .websocket 0 := by decide
  refine ⟨_, _, _, _, past, hran, ?_, ?_, by decide⟩
  · obtain ⟨hpayloads, hon⟩ := hruns _ _ _ hran 0
    obtain ⟨-, hall⟩ := hon .tcp fun p hp => hstays p ((List.mem_inits _ _).mpr hp)
    rw [hpayloads]
    refine congrArg _ (hall fun u hu p hp => ?_)
    cases u with
    | tcp => exact absurd rfl hu
    | websocket => exact helsewhere p ((List.mem_inits _ _).mpr hp)
  · rw [(hruns _ _ _ hran 2).1]
    decide

end Aerial.Station
