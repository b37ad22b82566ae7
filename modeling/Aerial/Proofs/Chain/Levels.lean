import Aerial.Proofs.Announcements
import Aerial.Proofs.Bus.Readers
import Aerial.Proofs.Chain.Basic
import Mathlib.Data.List.Basic

/-! # What a level keeps in balance

Between two queues nothing is made up and nothing disappears. The changes announced are
those published and those still unsaid; the statuses read by the pump are those passed
on to a transport and those still due on it; what a client got is what was passed on to
its transport; what the guest got was handed over or is on the wire. Each of these laws
is shown for what a single level can do, and `Level.Stable` takes it to whole runs of a
chain. Only one law depends on the pump not lagging, `Level.Reads`. -/

namespace Aerial

/-- A property that no doing of the station itself breaks. -/
structure Level.Own (P : Level → Prop) : Prop where
  deed : ∀ {l : Level} (d : Deed), P l → P (l.perform d.action)
  publish : ∀ {l : Level}, P l → P l.publish
  pump : ∀ {l : Level}, P l → P l.pump
  pass : ∀ {l : Level} (failing : ClientId → Option Fault), P l → P (l.pass failing)
  carry : ∀ {l : Level}, P l → P l.carry

/-- A property that nothing which can happen at a level breaks. -/
structure Level.Stable (P : Level → Prop) : Prop where
  perform : ∀ {l : Level} {a : Station.Action Served},
    (∀ t s failing, a ≠ .push t s failing) → P l → P (l.perform a)
  publish : ∀ {l : Level}, P l → P l.publish
  pump : ∀ {l : Level}, P l → P l.pump
  pass : ∀ {l : Level} (failing : ClientId → Option Fault), P l → P (l.pass failing)
  handOver : ∀ {l : Level}, P l → P l.handOver
  carry : ∀ {l : Level}, P l → P l.carry

namespace Level

theorem Own.obey {P : Level → Prop} (hP : Own P) {l : Level} (payload : Option Octets)
    (h : P l) : P (l.obey payload) := by
  unfold Level.obey
  split
  · rename_i g payload _
    exact hP.deed (.message g.stream payload) h
  · exact h

theorem Stable.own {P : Level → Prop} (hP : Stable P) : Own P where
  deed d h := hP.perform (by cases d <;> simp [Deed.action]) h
  publish := hP.publish
  pump := hP.pump
  pass := hP.pass
  carry := hP.carry

theorem Stable.hear {P : Level → Prop} (hP : Stable P) {l : Level} (f : Option Frame) (h : P l) :
    P (l.hear f) := by
  cases f with
  | none => exact h
  | some f => exact hP.perform (a := .turn (Served.hear f)) (by simp) h

end Level

namespace Chain

variable {k : Nat}

theorem update_of {P : Level → Prop} {c : Chain k} {i a : Fin (k + 1)} {l : Level}
    (h : P (c i)) (hl : i = a → P l) : P (Function.update c a l i) := by
  by_cases ha : i = a
  · subst ha
    rw [Function.update_self]
    exact hl rfl
  · rwa [Function.update_of_ne ha]

/-- Apart from its own doings a level only hands a frame over or hears one. -/
theorem own_step {P : Level → Prop} (hP : Level.Own P) {c : Chain k} {i : Fin (k + 1)}
    (s : Step k) (h : P (c i))
    (hands : ∀ j, s = .deliver j → i = j.castSucc → P (c i).handOver)
    (hears : ∀ j, s = .deliver j → i = j.succ → P ((c i).hear (c j.castSucc).wire.head?)) :
    P (c.step s i) := by
  cases s with
  | deed j d => exact update_of h fun hj => hP.deed d (hj ▸ h)
  | publish j => exact update_of h fun hj => hP.publish (hj ▸ h)
  | pump j => exact update_of h fun hj => hP.pump (hj ▸ h)
  | pass j failing => exact update_of h fun hj => hP.pass failing (hj ▸ h)
  | deliver j =>
    exact update_of (update_of h fun hj => hj ▸ hands j rfl hj) fun hj => hj ▸ hears j rfl hj
  | forward j =>
    exact update_of (update_of h fun hj => hP.obey _ (hj ▸ h)) fun hj => hP.carry (hj ▸ h)

theorem stable_step {P : Level → Prop} (hP : Level.Stable P) {c : Chain k} {i : Fin (k + 1)}
    (s : Step k) (h : P (c i)) : P (c.step s i) :=
  own_step hP.own s h (fun _ _ _ => hP.handOver h) fun _ _ _ => hP.hear _ h

/-- What holds at a level and is stable holds there after every run of the chain. -/
theorem stable_run {P : Level → Prop} (hP : Level.Stable P) {c : Chain k} {i : Fin (k + 1)}
    (steps : List (Step k)) (h : P (c i)) : P (c.run steps i) := by
  induction steps generalizing c with
  | nil => exact h
  | cons s steps ih => exact ih (stable_step hP s h)

end Chain

namespace Level

/-! ## The way of a change -/

/-- What is due on one transport. -/
def dueOn (t : Transport) (due : List (Transport × Status)) : List Status :=
  due.filterMap fun d => if d.1 = t then some d.2 else none

/-- What has been announced is published or unsaid. -/
def Publishes (l : Level) : Prop := l.record.told = l.record.said ++ l.unsaid

theorem stable_publishes : Stable Publishes where
  perform {l a} _ h := by
    simp only [Publishes] at h
    simp [Publishes, perform, h]
  publish {l} h := by
    simp only [Publishes] at h
    unfold publish
    split <;> simp_all [Publishes]
  pump {l} h := by
    simp only [Publishes] at h
    unfold pump
    split <;> simp_all [Publishes, Effect.change?]
  pass {l} failing h := by
    simp only [Publishes] at h
    unfold pass
    split
    · exact h
    · simp [Publishes, perform, h]
  handOver {l} h := by
    simp only [Publishes] at h
    unfold handOver
    split <;> simp_all [Publishes]
  carry {l} h := by
    unfold carry
    split <;> exact h

/-- What the pump has read is passed on to each transport, or due on it. -/
def Passes (t : Transport) (l : Level) : Prop :=
  l.record.pumped.map Change.status = l.record.passed t ++ dueOn t l.due

theorem stable_passes (t : Transport) : Stable (Passes t) where
  perform {l a} _ h := by
    simp only [Passes] at h
    simpa [Passes, perform] using h
  publish {l} h := by
    simp only [Passes] at h
    unfold publish
    split <;> simp_all [Passes, dueOn]
  pump {l} h := by
    simp only [Passes] at h
    unfold pump
    split
    · rename_i hdue _
      cases t <;> simp_all [Passes, dueOn]
    · simpa [Passes] using h
    · exact h
  pass {l} failing h := by
    simp only [Passes] at h
    unfold pass
    split
    · exact h
    · rename_i u s rest hdue
      rw [dueOn, hdue, Record.filterMap_cons_toList] at h
      simp [Passes, perform, dueOn, h]
  handOver {l} h := by
    simp only [Passes] at h
    unfold handOver
    split
    · exact h
    · simpa [Passes] using h
  carry {l} h := by
    unfold carry
    split <;> exact h

/-- Without a lag the pump has read what was published, but for what the bus keeps for it. -/
def Reads (l : Level) : Prop :=
  l.record.Lossless → l.bus.Reads () l.record.said l.record.pumped

theorem stable_reads : Stable Reads where
  perform {l a} _ h lossless := by
    have h := h (Record.lossless_append.mp lossless).1
    simpa [perform] using h
  publish {l} h := by
    unfold publish
    split
    · exact h
    · rename_i c rest _
      intro lossless
      have h := h (Record.lossless_append.mp lossless).1
      simpa using h.publish c
  pump {l} h := by
    unfold pump
    split
    · rename_i c bus _ received
      intro lossless
      have h := h (Record.lossless_append.mp lossless).1
      simpa using h.event received
    · rename_i n _ _ _
      intro lossless
      exact absurd (by simp) ((Record.lossless_append.mp lossless).2 n)
    · exact h
  pass {l} failing h := by
    unfold pass
    split
    · exact h
    · intro lossless
      have h := h (Record.lossless_append.mp (Record.lossless_append.mp lossless).1).1
      simpa [perform] using h
  handOver {l} h := by
    unfold handOver
    split
    · exact h
    · intro lossless
      have h := h (Record.lossless_append.mp lossless).1
      simpa using h
  carry {l} h := by
    unfold carry
    split <;> exact h

/-- Everything on its way has arrived. -/
structure Settled (l : Level) : Prop where
  unsaid : l.unsaid = []
  read : l.bus.position? () = some l.bus.tip
  due : l.due = []
  wire : l.wire = []

theorem settled_iff {l : Level} : l.Settled ↔
    l.unsaid = [] ∧ l.bus.position? () = some l.bus.tip ∧ l.due = [] ∧ l.wire = [] :=
  ⟨fun h => ⟨h.unsaid, h.read, h.due, h.wire⟩,
    fun ⟨unsaid, read, due, wire⟩ => ⟨unsaid, read, due, wire⟩⟩

instance (l : Level) : Decidable l.Settled := decidable_of_iff _ settled_iff.symm

/-- The laws that lead from what a level announced to what it passed on. -/
structure Flows (l : Level) : Prop where
  publishes : Publishes l
  passes : ∀ t, Passes t l
  reads : Reads l

theorem stable_flows : Stable Flows where
  perform plain h := ⟨stable_publishes.perform plain h.publishes,
    fun t => (stable_passes t).perform plain (h.passes t), stable_reads.perform plain h.reads⟩
  publish h := ⟨stable_publishes.publish h.publishes,
    fun t => (stable_passes t).publish (h.passes t), stable_reads.publish h.reads⟩
  pump h := ⟨stable_publishes.pump h.publishes,
    fun t => (stable_passes t).pump (h.passes t), stable_reads.pump h.reads⟩
  pass failing h := ⟨stable_publishes.pass failing h.publishes,
    fun t => (stable_passes t).pass failing (h.passes t), stable_reads.pass failing h.reads⟩
  handOver h := ⟨stable_publishes.handOver h.publishes,
    fun t => (stable_passes t).handOver (h.passes t), stable_reads.handOver h.reads⟩
  carry h := ⟨stable_publishes.carry h.publishes,
    fun t => (stable_passes t).carry (h.passes t), stable_reads.carry h.reads⟩

theorem Settled.flows {l : Level} (h : l.Settled) (record : l.record = []) : Flows l where
  publishes := by simp [Publishes, record, h.unsaid]
  passes t := by simp [Passes, record, h.due, dueOn]
  reads _ := by
    rw [record]
    exact Bus.reads_at_tip h.read

namespace Flows

variable {l : Level}

theorem said_isPrefix (h : l.Flows) : l.record.said <+: l.record.told :=
  ⟨l.unsaid, h.publishes.symm⟩

theorem said_eq (h : l.Flows) (settled : l.Settled) : l.record.said = l.record.told := by
  rw [h.publishes, settled.unsaid, List.append_nil]

theorem passed_isPrefix (h : l.Flows) (lossless : l.record.Lossless) (t : Transport) :
    l.record.passed t <+: l.record.told.map Change.status := by
  have hpassed : l.record.passed t <+: l.record.pumped.map Change.status := ⟨_, (h.passes t).symm⟩
  have hpumped : l.record.pumped <+: l.record.told :=
    (h.reads lossless).isPrefix.trans h.said_isPrefix
  exact hpassed.trans (hpumped.map _)

theorem passed_eq (h : l.Flows) (lossless : l.record.Lossless) (settled : l.Settled)
    (t : Transport) : l.record.passed t = l.record.told.map Change.status :=
  calc
    l.record.passed t = l.record.passed t ++ dueOn t l.due := by simp [settled.due, dueOn]
    _ = l.record.pumped.map Change.status := (h.passes t).symm
    _ = l.record.told.map Change.status := by
      rw [(h.reads lossless).eq settled.read, h.said_eq settled]

end Flows

/-! ## The way of a payload -/

/-- A client that is left alone gets what is passed on to its transport. -/
def Serves (r : Registration) (l : Level) : Prop :=
  l.record.Undisturbed r.client → l.station.held r.client = [r] ∧
    l.record.got r.client = (l.record.passed r.transport).map (Station.payload r.transport)

/-- Nothing but effects and passes concerns what a client gets. -/
theorem Serves.note {r : Registration} {l m : Level} {s : Sign} (h : Serves r l)
    (station : m.station = l.station) (record : m.record = l.record ++ [s])
    (hs : s.effect? = none ∨ ∃ n, s = .effect (.logged (.pumpLagged n)))
    (passed : s.passed? r.transport = none) : Serves r m := by
  intro undisturbed
  rw [record, Record.undisturbed_append] at undisturbed
  obtain ⟨hheld, hgot⟩ := h undisturbed.1
  have hnone : s.effect?.bind (Effect.payloadTo? r.client) = none := by
    rcases hs with hs | ⟨n, rfl⟩
    · rw [hs]
      rfl
    · rfl
  refine ⟨by rw [station, hheld], ?_⟩
  simp only [record, Record.got_append, Record.got_cons, Record.got_nil, Record.passed_append,
    Record.passed_cons, Record.passed_nil, hnone, passed, hgot, Option.toList_none, List.append_nil]

theorem stable_serves (r : Registration) : Stable (Serves r) where
  perform {l a} plain h := by
    intro undisturbed
    rw [perform, Record.undisturbed_append, Record.undisturbed_map_effect] at undisturbed
    obtain ⟨hheld, hgot⟩ := h undisturbed.1
    refine ⟨(Station.held_perform undisturbed.2).trans hheld, ?_⟩
    simp [perform, hgot, Station.payloadsTo_perform plain]
  publish {l} h := by
    unfold publish
    split
    · exact h
    · exact h.note rfl rfl (.inl rfl) rfl
  pump {l} h := by
    unfold pump
    split
    · exact h.note rfl rfl (.inl rfl) rfl
    · exact h.note rfl rfl (.inr ⟨_, rfl⟩) rfl
    · exact h
  pass {l} failing h := by
    unfold pass
    split
    · exact h
    · rename_i t s rest _
      intro undisturbed
      rw [perform, Record.undisturbed_append, Record.undisturbed_map_effect,
        Record.undisturbed_append] at undisturbed
      obtain ⟨⟨undisturbed, -⟩, spared⟩ := undisturbed
      obtain ⟨hheld, hgot⟩ := h undisturbed
      obtain ⟨hkeeps, hwrites⟩ := Station.pass_of_spares spared
      refine ⟨hkeeps.trans hheld, ?_⟩
      simp only [perform, Station.perform, Record.got_append, Record.got_map_effect,
        Record.passed_append, Record.passed_map_effect, Record.got_cons, Record.passed_cons,
        hwrites, hheld, hgot]
      by_cases ht : t = r.transport
      · simp [ht]
      · simp [ht, Ne.symm ht]
  handOver {l} h := by
    unfold handOver
    split
    · exact h
    · exact h.note rfl rfl (.inl rfl) rfl
  carry {l} h := by
    unfold carry
    split <;> exact h

/-- The guest of a level got what has been handed over and what is on the wire. -/
def Hands (g : Registration) (l : Level) : Prop :=
  l.guest = some g ∧ (l.record.Undisturbed g.client →
    (l.record.got g.client).map .binary = l.record.handed ++ l.wire)

theorem framesToGuest_of_spares {l : Level} {g : Registration} {es : List Effect}
    (guest : l.guest = some g) (h : Effect.Spares g.client es) :
    l.framesToGuest es = (Effect.payloadsTo g.client es).map .binary := by
  rw [framesToGuest, guest, Effect.payloadsTo, List.map_filterMap]
  refine List.filterMap_congr fun e he => ?_
  cases e with
  | wrote c payload => by_cases hc : c = g.client <;> simp [Effect.frameTo?, Effect.payloadTo?, hc]
  | closed c =>
    have hc : c ≠ g.client := fun hc => h.2 (hc ▸ he)
    simp [Effect.frameTo?, Effect.payloadTo?, hc]
  | logged _ => rfl
  | changed _ => rfl

theorem Hands.perform {g : Registration} {l : Level} (a : Station.Action Served)
    (h : Hands g l) : Hands g (l.perform a) := by
  refine ⟨h.1, fun undisturbed => ?_⟩
  rw [Level.perform, Record.undisturbed_append, Record.undisturbed_map_effect] at undisturbed
  simp [Level.perform, framesToGuest_of_spares h.1 undisturbed.2, h.2 undisturbed.1]

theorem stable_hands (g : Registration) : Stable (Hands g) where
  perform {l a} _ h := h.perform a
  publish {l} h := by
    unfold publish
    split
    · exact h
    · refine ⟨h.1, fun undisturbed => ?_⟩
      simpa using h.2 (Record.undisturbed_append.mp undisturbed).1
  pump {l} h := by
    unfold pump
    split
    · refine ⟨h.1, fun undisturbed => ?_⟩
      simpa using h.2 (Record.undisturbed_append.mp undisturbed).1
    · refine ⟨h.1, fun undisturbed => ?_⟩
      simpa [Effect.payloadTo?] using h.2 (Record.undisturbed_append.mp undisturbed).1
    · exact h
  pass {l} failing h := by
    unfold pass
    split
    · exact h
    · refine Hands.perform _ ⟨h.1, fun undisturbed => ?_⟩
      simpa using h.2 (Record.undisturbed_append.mp undisturbed).1
  handOver {l} h := by
    unfold handOver
    split
    · exact h
    · rename_i f rest hwire
      refine ⟨h.1, fun undisturbed => ?_⟩
      simpa [hwire] using h.2 (Record.undisturbed_append.mp undisturbed).1
  carry {l} h := by
    unfold carry
    split <;> exact h

end Level

end Aerial
