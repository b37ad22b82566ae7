import Aerial.Proofs.Chain.Levels
import Aerial.Proofs.Station.Commands

/-! # A link mirrors the level before it

The state of a link and everything it announced are determined by the frames handed
over to it: no deed at its own station moves it. As long as the guest of a level is left
alone, these frames are the heading notices of statuses passed on there, so the link
knows what is heard from those statuses and has announced what is echoed from them. -/

namespace Aerial

namespace Served

/-- What a deed may do to a rotator, with what it announces: a simulator accounts for its
moves, and a link stays as it is. -/
inductive Goes : Served → List Change → Served → Prop where
  | source {s s' : Simulator} {cs : List Change} (accounts : Tells s.info cs s'.info) :
      Goes (.source s) cs (.source s')
  | mirror {m m' : Link} (info : m'.info = m.info) (isOpen : m'.isOpen = m.isOpen) :
      Goes (.mirror m) [] (.mirror m')

theorem Goes.refl (v : Served) : Goes v [] v := by
  cases v with
  | source s => exact .source .nil
  | mirror m => exact .mirror rfl rfl

theorem goes_execute (v : Served) (r : Request) :
    Goes v (v.execute r).changes (v.execute r).rotator := by
  cases v with
  | source s => exact .source (s.execute_accounts r)
  | mirror m =>
    show Goes (.mirror m) (m.send r).changes (.mirror (m.send r).rotator)
    unfold Link.send
    split
    · exact .mirror rfl rfl
    · exact .mirror rfl rfl

theorem goes_move (v : Served) (m : Simulator.Move) :
    Goes v (v.move m).changes (v.move m).rotator := by
  cases v with
  | source s => exact .source (s.perform_accounts m)
  | mirror l => exact .mirror rfl rfl

end Served

theorem Station.goes_turn {s : Station Served} {f : Served → Response Served}
    (h : Served.Goes s.rotator (f s.rotator).changes (f s.rotator).rotator) :
    Served.Goes s.rotator (Effect.changes (s.perform (.turn f)).2)
      (s.perform (.turn f)).1.rotator := by
  simp only [perform, turn, Effect.changes_map_changed]
  exact h

theorem Station.goes_deed (s : Station Served) (d : Deed) :
    Served.Goes s.rotator (Effect.changes (s.perform d.action).2)
      (s.perform d.action).1.rotator := by
  cases d with
  | message stream payload =>
    obtain ⟨hstation, hchanges, -⟩ := s.message_obeys stream payload
    simp only [Deed.action, perform, hstation, hchanges]
    cases s.heeds stream payload with
    | none => exact .refl _
    | some r =>
      rw [Option.toList_some, Rotator.obey, Response.inTurn_singleton]
      exact Served.goes_execute s.rotator r
  | request r => exact goes_turn (Served.goes_execute s.rotator r)
  | command r =>
    rw [Deed.command_action]
    exact goes_turn (Served.goes_execute s.rotator r)
  | move m => exact goes_turn (Served.goes_move s.rotator m)
  | join t c =>
    obtain ⟨hrotator, hchanges⟩ := s.rotator_perform (a := .join t c) (by simp) (by simp)
    simp only [Deed.action, hrotator, hchanges]
    exact .refl _
  | leave t c =>
    obtain ⟨hrotator, hchanges⟩ := s.rotator_perform (a := .leave t c) (by simp) (by simp)
    simp only [Deed.action, hrotator, hchanges]
    exact .refl _
  | hangUp stream fault =>
    obtain ⟨hrotator, hchanges⟩ := s.rotator_perform (a := .hangUp stream fault) (by simp) (by simp)
    simp only [Deed.action, hrotator, hchanges]
    exact .refl _

namespace Level

/-! ## Laws about the rotator of a level -/

/-- The rotator is as it was, and has announced nothing more. -/
def Still (l m : Level) : Prop :=
  m.station.rotator = l.station.rotator ∧ m.record.told = l.record.told

theorem still_publish (l : Level) : l.Still l.publish := by
  unfold publish
  split
  · exact ⟨rfl, rfl⟩
  · exact ⟨rfl, by simp⟩

theorem still_pump (l : Level) : l.Still l.pump := by
  unfold pump
  split
  · exact ⟨rfl, by simp⟩
  · exact ⟨rfl, by simp [Effect.change?]⟩
  · exact ⟨rfl, rfl⟩

theorem still_pass (failing : ClientId → Option Fault) (l : Level) : l.Still (l.pass failing) := by
  unfold pass
  split
  · exact ⟨rfl, rfl⟩
  · rename_i t s rest _
    obtain ⟨hrotator, hchanges⟩ :=
      l.station.rotator_perform (a := .push t s failing) (by simp) (by simp)
    exact ⟨hrotator, by simp [perform, hchanges]⟩

theorem still_handOver (l : Level) : l.Still l.handOver := by
  unfold handOver
  split
  · exact ⟨rfl, rfl⟩
  · exact ⟨rfl, by simp⟩

theorem still_carry (l : Level) : l.Still l.carry := by
  unfold carry
  split <;> exact ⟨rfl, rfl⟩

/-- A law about the rotator of a level and all it has announced. -/
def Told (Q : Served → List Change → Prop) (l : Level) : Prop :=
  Q l.station.rotator l.record.told

theorem Told.still {Q : Served → List Change → Prop} {l m : Level} (h : Told Q l)
    (still : l.Still m) : Told Q m := by
  rw [Told, still.1, still.2]
  exact h

theorem own_told {Q : Served → List Change → Prop}
    (h : ∀ {v v' : Served} {cs ds : List Change}, Served.Goes v ds v' → Q v cs → Q v' (cs ++ ds)) :
    Own (Told Q) where
  deed {l} d hl := by
    rw [Told, perform, Record.told_append, Record.told_map_effect]
    exact h (l.station.goes_deed d) hl
  publish {l} hl := hl.still l.still_publish
  pump {l} hl := hl.still l.still_pump
  pass {l} failing hl := hl.still (l.still_pass failing)
  carry {l} hl := hl.still l.still_carry

theorem Told.handOver {Q : Served → List Change → Prop} {l : Level} (h : Told Q l) :
    Told Q l.handOver := h.still l.still_handOver

theorem rotator_hear (l : Level) (f : Frame) :
    (l.hear (some f)).station.rotator = (l.station.rotator.hear f).rotator := rfl

theorem told_hear (l : Level) (f : Frame) :
    (l.hear (some f)).record.told = l.record.told ++ (l.station.rotator.hear f).changes := by
  rw [hear, perform, Record.told_append, Record.told_map_effect]
  exact congrArg _ (Effect.changes_map_changed _)

/-- A simulator that began as `i` has announced how it came to where it is. -/
def Originates (i : Info) : Level → Prop :=
  Told fun v cs => ∃ s, v = .source s ∧ Tells i cs s.info

theorem own_originates (i : Info) : Own (Originates i) := by
  refine own_told ?_
  rintro v v' cs ds goes ⟨s, rfl, tells⟩
  cases goes with
  | @source _ s' _ accounts => exact ⟨s', rfl, tells.append accounts⟩

/-- A simulator does not listen to frames. -/
theorem Originates.hear {i : Info} {l : Level} (f : Option Frame) (h : Originates i l) :
    Originates i (l.hear f) := by
  obtain ⟨s, hs, tells⟩ := h
  cases f with
  | none => exact ⟨s, hs, tells⟩
  | some f =>
    refine ⟨s, by rw [rotator_hear, hs]; rfl, ?_⟩
    rw [told_hear, hs]
    simpa [Served.hear, Response.accept] using tells

/-- A law about a level that depends on the statuses its link has heard: a heading notice
adds one, and nothing else matters. -/
structure Listens (K : List Status → Level → Prop) : Prop where
  own : ∀ ss, Own (K ss)
  handOver : ∀ {ss : List Status} {l : Level}, K ss l → K ss l.handOver
  hear : ∀ {ss : List Status} {l : Level} (s : Status), K ss l →
    K (ss ++ [s]) (l.hear (some (.binary s.headingNotice)))

/-- A link that began as `i` has heard these statuses and echoed them. -/
def Knows (i : Info) (ss : List Status) : Level → Prop :=
  Told fun v cs => ∃ m, v = .mirror m ∧ m.isOpen = true ∧ m.info = i.heard ss ∧ cs = i.echoed ss

theorem listens_knows (i : Info) : Listens (Knows i) where
  own ss := by
    refine own_told ?_
    rintro v v' cs ds goes ⟨m, rfl, hopen, hinfo, rfl⟩
    cases goes with
    | @mirror _ m' info isOpen =>
      exact ⟨m', rfl, isOpen.trans hopen, info.trans hinfo, List.append_nil _⟩
  handOver h := Told.handOver h
  hear := by
    intro ss l s h
    obtain ⟨m, hm, hopen, hinfo, htold⟩ := h
    refine ⟨{ m with info := m.info.pointed s.pointing }, ?_, hopen, ?_, ?_⟩
    · rw [rotator_hear, hm, Served.hear, Link.receive_headingNotice hopen]
      rfl
    · rw [Info.heard_append, ← hinfo]
      rfl
    · rw [told_hear, hm, Served.hear, Link.receive_headingNotice hopen, Info.echoed_append, ← hinfo,
        htold]
      simp [Response.accept, Info.echoed]

/-- A link that began as `i` is as it must be after these statuses, whatever it announced. -/
def Heard (i : Info) (ss : List Status) : Level → Prop :=
  Told fun v _ => ∃ m, v = .mirror m ∧ m.isOpen = true ∧ m.info = i.heard ss

theorem Knows.heard {i : Info} {ss : List Status} {l : Level} (h : Knows i ss l) :
    Heard i ss l := by
  obtain ⟨m, hm, hopen, hinfo, -⟩ := h
  exact ⟨m, hm, hopen, hinfo⟩

theorem listens_heard (i : Info) : Listens (Heard i) where
  own ss := by
    refine own_told ?_
    rintro v v' cs ds goes ⟨m, rfl, hopen, hinfo⟩
    cases goes with
    | @mirror _ m' info isOpen => exact ⟨m', rfl, isOpen.trans hopen, info.trans hinfo⟩
  handOver h := Told.handOver h
  hear := by
    intro ss l s h
    obtain ⟨m, hm, hopen, hinfo⟩ := h
    refine ⟨{ m with info := m.info.pointed s.pointing }, ?_, hopen, ?_⟩
    · rw [rotator_hear, hm, Served.hear, Link.receive_headingNotice hopen]
      rfl
    · rw [Info.heard_append, ← hinfo]
      rfl

/-- The statuses whose notices have been handed over by `l` are those that `m` has heard. -/
def Informs (K : List Status → Level → Prop) (g : Registration) (l m : Level) : Prop :=
  l.record.Undisturbed g.client →
    ∃ ss : List Status, l.record.handed = ss.map (.binary ·.headingNotice) ∧ K ss m

/-- The record goes on without a frame being handed over. -/
def Extends (r : Record) (l : Level) : Prop := ∃ more, l.record = r ++ more ∧ more.handed = []

theorem Extends.of_note {r more : Record} {l m : Level} (h : Extends r l)
    (record : m.record = l.record ++ more) (hmore : more.handed = []) : Extends r m := by
  obtain ⟨before, hbefore, hhanded⟩ := h
  refine ⟨before ++ more, by rw [record, hbefore, List.append_assoc], ?_⟩
  rw [Record.handed_append, hhanded, hmore, List.append_nil]

theorem Extends.perform {r : Record} {l : Level} (a : Station.Action Served) (h : Extends r l) :
    Extends r (l.perform a) := h.of_note rfl (Record.handed_map_effect _)

theorem Extends.hear {r : Record} {l : Level} (f : Option Frame) (h : Extends r l) :
    Extends r (l.hear f) := by
  cases f with
  | none => exact h
  | some f => exact h.perform _

theorem own_extends (r : Record) : Own (Extends r) where
  deed d h := h.perform _
  publish {l} h := by
    unfold publish
    split
    · exact h
    · exact h.of_note rfl rfl
  pump {l} h := by
    unfold pump
    split
    · exact h.of_note rfl rfl
    · exact h.of_note rfl rfl
    · exact h
  pass {l} failing h := by
    unfold pass
    split
    · exact h
    · exact Extends.perform _ (h.of_note rfl rfl)
  carry {l} h := by
    unfold carry
    split <;> exact h

end Level

namespace Chain
open Level

variable {k : Nat}

/-- The link of the next level knows the statuses whose notices have been handed over. -/
def Mirrors (c : Chain k) (i : Fin k) (g : Registration) (start : Info) : Prop :=
  Informs (Knows start) g (c i.castSucc) (c i.succ)

theorem castSucc_ne_succ (i : Fin k) : i.castSucc ≠ i.succ := Fin.ne_of_lt Fin.castSucc_lt_succ

theorem step_deliver_castSucc (c : Chain k) (i : Fin k) :
    c.step (.deliver i) i.castSucc = (c i.castSucc).handOver := by
  rw [step, Function.update_of_ne (castSucc_ne_succ i), Function.update_self]

theorem step_deliver_succ (c : Chain k) (i : Fin k) :
    c.step (.deliver i) i.succ = (c i.succ).hear (c i.castSucc).wire.head? :=
  Function.update_self ..

/-- What is on the wire to a guest are heading notices. -/
theorem wire_notice {g : Registration} {l : Level} {f : Frame} {rest : List Frame}
    (websocket : g.transport = .websocket) (serves : Serves g l) (hands : Hands g l)
    (undisturbed : l.record.Undisturbed g.client) (wire : l.wire = f :: rest) :
    ∃ s : Status, f = .binary s.headingNotice := by
  have hmem : f ∈ (l.record.got g.client).map Frame.binary := by
    rw [hands.2 undisturbed, wire]
    simp
  rw [(serves undisturbed).2, websocket] at hmem
  simp only [List.mem_map] at hmem
  obtain ⟨-, ⟨s, -, rfl⟩, rfl⟩ := hmem
  exact ⟨s, rfl⟩

section

variable {K : List Status → Level → Prop} {i : Fin k} {g : Registration}

theorem informs_deliver {c : Chain k} (listens : Listens K) (websocket : g.transport = .websocket)
    (serves : Serves g (c i.castSucc)) (hands : Hands g (c i.castSucc))
    (h : Informs K g (c i.castSucc) (c i.succ)) :
    Informs K g (c.step (.deliver i) i.castSucc) (c.step (.deliver i) i.succ) := by
  intro undisturbed
  rw [step_deliver_castSucc] at *
  rw [step_deliver_succ]
  unfold handOver at *
  split at undisturbed
  · rename_i hwire
    rw [hwire]
    exact h undisturbed
  · rename_i f rest hwire
    have undisturbed := (Record.undisturbed_append.mp undisturbed).1
    obtain ⟨ss, hhanded, hknown⟩ := h undisturbed
    obtain ⟨s, rfl⟩ := wire_notice websocket serves hands undisturbed hwire
    rw [hwire]
    exact ⟨ss ++ [s], by simp [hhanded], listens.hear s hknown⟩

/-- Only a delivery between the two levels adds to what the next one has heard. -/
theorem informs_step {c : Chain k} (listens : Listens K) (websocket : g.transport = .websocket)
    (serves : Serves g (c i.castSucc)) (hands : Hands g (c i.castSucc)) (s : Step k)
    (h : Informs K g (c i.castSucc) (c i.succ)) :
    Informs K g (c.step s i.castSucc) (c.step s i.succ) := by
  by_cases hs : s = .deliver i
  · subst hs
    exact informs_deliver listens websocket serves hands h
  have hother : ∀ j, s = .deliver j → j ≠ i := fun j hj hji => hs (hji ▸ hj)
  obtain ⟨more, hrecord, hmore⟩ : Extends (c i.castSucc).record (c.step s i.castSucc) :=
    own_step (own_extends _) s ⟨[], by simp, rfl⟩
      (fun j hj hij => absurd (Fin.castSucc_inj.mp hij).symm (hother j hj))
      fun j _ _ => Extends.hear _ ⟨[], by simp, rfl⟩
  intro undisturbed
  rw [hrecord] at undisturbed ⊢
  obtain ⟨ss, hhanded, hknown⟩ := h (Record.undisturbed_append.mp undisturbed).1
  refine ⟨ss, by rw [Record.handed_append, hhanded, hmore, List.append_nil], ?_⟩
  exact own_step (listens.own ss) s hknown (fun _ _ _ => listens.handOver hknown)
    fun j hj hij => absurd (Fin.succ_inj.mp hij).symm (hother j hj)

theorem mirrors_step {c : Chain k} {start : Info} (websocket : g.transport = .websocket)
    (serves : Serves g (c i.castSucc)) (hands : Hands g (c i.castSucc)) (s : Step k)
    (h : c.Mirrors i g start) : (c.step s).Mirrors i g start :=
  informs_step (listens_knows start) websocket serves hands s h

theorem mirrors_run {c : Chain k} {start : Info} (websocket : g.transport = .websocket)
    (serves : Serves g (c i.castSucc)) (hands : Hands g (c i.castSucc)) (steps : List (Step k))
    (h : c.Mirrors i g start) : (c.run steps).Mirrors i g start := by
  induction steps generalizing c with
  | nil => exact h
  | cons s steps ih =>
    exact ih (stable_step (stable_serves g) s serves) (stable_step (stable_hands g) s hands)
      (mirrors_step websocket serves hands s h)

end

end Chain

end Aerial
