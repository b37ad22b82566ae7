import Aerial.Proofs.Chain.Mirrors

/-! # A chain is transparent

Every level of a chain publishes what the simulator at its beginning announces. At any
moment each list of published events is a prefix of the simulator's, and when everything
has arrived all lists are equal; so clients get the same payloads wherever in the chain
they are registered. This rests on two assumptions about a run, both read off the
records: no pump reported a lag, and no link was made anew or closed.

The induction is on the level. A link hears a prefix of the statuses announced before
it, and echoing them gives a prefix of those announcements, since they tell how the
simulator came to where it is. -/

namespace Aerial

theorem Status.headingNotice_injective : Function.Injective Status.headingNotice := by
  intro s t h
  have hs := Wire.decodeNotice_writeNotice ⟨.heading, s⟩
  rw [show Wire.writeNotice ⟨.heading, s⟩ = Wire.writeNotice ⟨.heading, t⟩ from h,
    Wire.decodeNotice_writeNotice] at hs
  injection hs with hs
  injection hs with _ hs
  exact hs.symm

namespace Chain
open Level

variable {k : Nat}

/-- A simulator, and links that know its state and are registered one at the other, with
nothing under way. -/
structure Idle (c : Chain k) : Prop where
  source : ∃ s, (c 0).station.rotator = .source s
  mirror : ∀ i : Fin k, ∃ m, (c i.succ).station.rotator = .mirror m ∧ m.isOpen = true ∧
    m.info = (c i.castSucc).info
  guest : ∀ i : Fin k, ∃ g, (c i.castSucc).guest = some g ∧ g.transport = .websocket ∧
    (c i.castSucc).station.held g.client = [g]
  settled : ∀ i, (c i).Settled
  record : ∀ i, (c i).record = []

def Lossless (c : Chain k) : Prop := ∀ i, (c i).record.Lossless

instance (c : Chain k) : Decidable c.Lossless :=
  inferInstanceAs (Decidable (∀ i, (c i).record.Lossless))

/-- No link was made anew or closed at the station before it. -/
def KeepsGuests (c : Chain k) : Prop :=
  ∀ i : Fin k, ∀ g ∈ (c i.castSucc).guest, (c i.castSucc).record.Undisturbed g.client

instance (c : Chain k) : Decidable c.KeepsGuests :=
  inferInstanceAs (Decidable (∀ i : Fin k, ∀ g ∈ (c i.castSucc).guest,
    (c i.castSucc).record.Undisturbed g.client))

/-- What a link has heard was passed on to it, and all of it when everything has arrived. -/
theorem handed_isPrefix {l : Level} {g : Registration} {ss : List Status}
    (websocket : g.transport = .websocket) (serves : Serves g l) (hands : Hands g l)
    (undisturbed : l.record.Undisturbed g.client)
    (handed : l.record.handed = ss.map (.binary ·.headingNotice)) :
    ss <+: l.record.passed .websocket ∧ (l.wire = [] → ss = l.record.passed .websocket) := by
  have hnotice : Function.Injective fun s : Status => Frame.binary s.headingNotice :=
    fun s t h => Status.headingNotice_injective (Frame.binary.inj h)
  have hgot : (l.record.passed .websocket).map (fun s => Frame.binary s.headingNotice) =
      ss.map (.binary ·.headingNotice) ++ l.wire := by
    rw [← handed, ← hands.2 undisturbed, (serves undisturbed).2, websocket, List.map_map]
    rfl
  constructor
  · obtain ⟨p, q, hpassed, hp, -⟩ := List.map_eq_append_iff.mp hgot
    rw [hpassed, hnotice.list_map hp]
    exact List.prefix_append ..
  · intro hwire
    rw [hwire, List.append_nil] at hgot
    exact (hnotice.list_map hgot).symm

/-- All that a run from an idle chain keeps, when no pump lags and no link is disturbed. -/
structure Transparent (start : Info) (c : Chain k) : Prop where
  flows : ∀ i, (c i).Flows
  source : Originates start (c 0)
  guest : ∀ i : Fin k, ∃ g, g.transport = .websocket ∧ Serves g (c i.castSucc) ∧
    Hands g (c i.castSucc) ∧ c.Mirrors i g start

theorem Idle.info_eq {c : Chain k} (idle : c.Idle) (i : Fin (k + 1)) : (c i).info = (c 0).info := by
  induction i using Fin.induction with
  | zero => rfl
  | succ i ih =>
    obtain ⟨m, hm, -, hinfo⟩ := idle.mirror i
    rw [← ih, ← hinfo, Level.info, hm]
    rfl

theorem serves_of_held {l : Level} {r : Registration} (record : l.record = [])
    (held : l.station.held r.client = [r]) : Serves r l := fun _ => ⟨held, by simp [record]⟩

theorem Idle.transparent {c : Chain k} (idle : c.Idle) : c.Transparent (c 0).info where
  flows i := (idle.settled i).flows (idle.record i)
  source := by
    obtain ⟨s, hs⟩ := idle.source
    refine ⟨s, hs, ?_⟩
    rw [idle.record 0, Level.info, hs]
    exact .nil
  guest i := by
    obtain ⟨g, hg, websocket, held⟩ := idle.guest i
    refine ⟨g, websocket, serves_of_held (idle.record _) held, ⟨hg, fun _ => ?_⟩, fun _ => ?_⟩
    · simp [idle.record, (idle.settled _).wire]
    · obtain ⟨m, hm, hopen, hinfo⟩ := idle.mirror i
      refine ⟨[], by simp [idle.record], m, hm, hopen, ?_, ?_⟩
      · rw [hinfo, idle.info_eq]
        rfl
      · simp [idle.record, Info.echoed]

theorem originates_step {c : Chain k} {start : Info} (s : Step k) (h : Originates start (c 0)) :
    Originates start (c.step s 0) :=
  own_step (own_originates start) s h (fun _ _ _ => h.handOver) fun _ _ _ => h.hear _

theorem Transparent.step {c : Chain k} {start : Info} (h : c.Transparent start) (s : Step k) :
    (c.step s).Transparent start where
  flows i := stable_step stable_flows s (h.flows i)
  source := originates_step s h.source
  guest i := by
    obtain ⟨g, websocket, serves, hands, mirrors⟩ := h.guest i
    exact ⟨g, websocket, stable_step (stable_serves g) s serves,
      stable_step (stable_hands g) s hands, mirrors_step websocket serves hands s mirrors⟩

theorem Transparent.run {c : Chain k} {start : Info} (h : c.Transparent start)
    (steps : List (Step k)) : (c.run steps).Transparent start := by
  induction steps generalizing c with
  | nil => exact h
  | cons s steps ih => exact ih (h.step s)

/-- Every level has announced a prefix of what the simulator announced, and the announcements
tell a way from the state at the start. -/
theorem Transparent.told_isPrefix {c : Chain k} {start : Info} (h : c.Transparent start)
    (lossless : c.Lossless) (keeps : c.KeepsGuests) (i : Fin (k + 1)) :
    (c i).record.told <+: (c 0).record.told ∧ (∃ now, Tells start (c i).record.told now) ∧
      ((∀ j, (c j).Settled) → (c i).record.told = (c 0).record.told) := by
  induction i using Fin.induction with
  | zero =>
    obtain ⟨s, -, tells⟩ := h.source
    exact ⟨List.prefix_refl _, ⟨s.info, tells⟩, fun _ => rfl⟩
  | succ i ih =>
    obtain ⟨hpre, ⟨now, tells⟩, hequal⟩ := ih
    obtain ⟨g, websocket, serves, hands, mirrors⟩ := h.guest i
    have undisturbed := keeps i g hands.1
    obtain ⟨ss, handed, m, -, -, -, told⟩ := mirrors undisturbed
    obtain ⟨hheard, hall⟩ := handed_isPrefix websocket serves hands undisturbed handed
    have flows := h.flows i.castSucc
    have hss := hheard.trans (flows.passed_isPrefix (lossless _) .websocket)
    rw [told]
    refine ⟨?_, ⟨_, Info.tells_echoed start ss⟩, fun settled => ?_⟩
    · have hecho := Info.echoed_prefix start hss
      rw [tells.echoed.1] at hecho
      exact hecho.trans hpre
    · rw [hall (settled _).wire, flows.passed_eq (lossless _) (settled _), tells.echoed.1]
      exact hequal settled

/-- Transparent chaining. After any run from an idle chain, in which no pump lags and no link
loses its connection, every level has published a prefix of what the simulator announced, and
a client that was left alone got the payloads for a prefix. When everything has arrived, the
prefixes are the whole list, so all clients of one transport got the same. -/
theorem publish_alike {c : Chain k} (idle : c.Idle) (steps : List (Step k))
    (lossless : (c.run steps).Lossless) (keeps : (c.run steps).KeepsGuests) :
    (∀ i, (c.run steps i).record.said <+: (c.run steps 0).record.told) ∧
    (∀ i r, (c i).station.held r.client = [r] → (c.run steps i).record.Undisturbed r.client →
      (c.run steps i).record.got r.client <+:
        (c.run steps 0).record.told.map fun e => Station.payload r.transport e.status) ∧
    ((∀ i, (c.run steps i).Settled) →
      (∀ i, (c.run steps i).record.said = (c.run steps 0).record.said) ∧
      (c.run steps 0).record.said = (c.run steps 0).record.told ∧
      ∀ i r, (c i).station.held r.client = [r] → (c.run steps i).record.Undisturbed r.client →
        (c.run steps i).record.got r.client =
          (c.run steps 0).record.said.map fun e => Station.payload r.transport e.status) := by
  have h := idle.transparent.run steps
  have htold := h.told_isPrefix lossless keeps
  have hgot : ∀ i r, (c i).station.held r.client = [r] →
      (c.run steps i).record.Undisturbed r.client → (c.run steps i).record.got r.client =
        ((c.run steps i).record.passed r.transport).map (Station.payload r.transport) :=
    fun i r held undisturbed =>
      (stable_run (stable_serves r) steps (serves_of_held (idle.record i) held) undisturbed).2
  refine ⟨fun i => ?_, fun i r held undisturbed => ?_, fun settled => ⟨fun i => ?_, ?_, ?_⟩⟩
  · exact (h.flows i).said_isPrefix.trans (htold i).1
  · rw [hgot i r held undisturbed, ← Function.comp_def (Station.payload r.transport),
      ← List.map_map]
    exact (((h.flows i).passed_isPrefix (lossless i) _).trans ((htold i).1.map _)).map _
  · rw [(h.flows i).said_eq (settled i), (htold i).2.2 settled, (h.flows 0).said_eq (settled 0)]
  · exact (h.flows 0).said_eq (settled 0)
  · intro i r held undisturbed
    rw [hgot i r held undisturbed, (h.flows i).passed_eq (lossless i) (settled i),
      (htold i).2.2 settled, (h.flows 0).said_eq (settled 0), List.map_map]
    rfl

/-! ## A simulator with one link -/

/-- Client 1 is registered where the simulator is, client 2 where the link is, and the link
itself is client 0 of the simulator's station. -/
def pair : Chain 1 := fun i =>
  if i = 0 then
    let clients := [⟨.websocket, 0, 0⟩, ⟨.websocket, 1, 1⟩]
    { Level.fresh (.source (.create .standard)) 16 with
      station := ⟨.source (.create .standard), clients, clients, 2⟩
      guest := some ⟨.websocket, 0, 0⟩ }
  else
    let link := Link.opened (Simulator.create .standard).info "over"
    { Level.fresh (.mirror link) 16 with
      station := ⟨.mirror link, [⟨.websocket, 2, 0⟩], [⟨.websocket, 2, 0⟩], 1⟩ }

theorem idle_pair : pair.Idle where
  source := ⟨_, rfl⟩
  mirror i := by
    obtain rfl : i = 0 := Subsingleton.elim ..
    exact ⟨_, rfl, rfl, rfl⟩
  guest i := by
    obtain rfl : i = 0 := Subsingleton.elim ..
    exact ⟨_, rfl, rfl, by decide⟩
  settled := by decide
  record := by decide

/-- One change goes from where it is unsaid to the clients of its station. -/
def passOn (i : Fin (k + 1)) : List (Step k) :=
  [.publish i, .pump i, .pass i fun _ => none, .pass i fun _ => none]

/-- One change goes all the way from the simulator to client 2. -/
def wayOfOneChange : List (Step 1) := passOn 0 ++ [.deliver 0] ++ passOn 1

/-- Two commands and a tick, which moves both axes. -/
def turning : List (Step 1) :=
  [.deed 0 (.move (.steer .azimuth 90)), .deed 0 (.move (.steer .elevation 45)),
    .deed 0 (.move .tick)]
  ++ wayOfOneChange ++ wayOfOneChange ++ wayOfOneChange ++ wayOfOneChange

theorem publish_alike_turning :
    (pair.run turning 1).record.said = (pair.run turning 0).record.said ∧
      (pair.run turning 0).record.said.length = 4 ∧
      (pair.run turning 1).record.got 2 =
        (pair.run turning 0).record.said.map fun e => Station.payload .websocket e.status := by
  have h := publish_alike idle_pair turning (by decide +kernel) (by decide +kernel)
  obtain ⟨hsaid, -, hgot⟩ := h.2.2 (by decide +kernel)
  exact ⟨hsaid 1, by decide +kernel, hgot 1 ⟨.websocket, 2, 0⟩ rfl (by decide +kernel)⟩

end Chain

end Aerial
