import Aerial.Proofs.Chain.Bootstrap

/-! # Links that missed nothing keep up

A chain grows from a simulator. A station comes to its end with a link that has fetched the
description of the rotator before it, and is live from then on; some time later the link is
registered at that rotator's station. If the description still holds at that moment, the
link never stays behind for good, however much the pumps lag. For if anything is ever on
its way to the link, the newest status arrives last; and if nothing is, the rotator has not
moved away from the description, since moves are announced. So when everything has arrived
each level knows the rotator before it, and all of them the simulator. -/

namespace Aerial

namespace Level

/-- No link is registered at the level, and nothing is under way to one. -/
structure Unlinked (l : Level) : Prop where
  guest : l.guest = none
  wire : l.wire = []

theorem stable_unlinked : Stable Unlinked where
  perform {l a} _ h := by
    refine ⟨h.guest, ?_⟩
    simp [perform, framesToGuest, h.guest, h.wire]
  publish {l} h := by
    unfold publish
    split
    · exact h
    · exact ⟨h.guest, h.wire⟩
  pump {l} h := by
    unfold pump
    split
    · exact ⟨h.guest, h.wire⟩
    · exact ⟨h.guest, h.wire⟩
    · exact h
  pass {l} failing h := by
    unfold pass
    split
    · exact h
    · refine ⟨h.guest, ?_⟩
      simp [perform, framesToGuest, h.guest, h.wire]
  handOver {l} h := by
    unfold handOver
    rw [h.wire]
    exact h
  carry {l} h := by
    unfold carry
    split
    · exact h
    · exact ⟨h.guest, h.wire⟩

/-- A level that serves a simulator. -/
def Begins : Level → Prop := Told fun v _ => ∃ s, v = .source s

theorem own_begins : Own Begins := by
  refine own_told ?_
  rintro v v' cs ds goes ⟨s, rfl⟩
  cases goes with
  | @source _ s' _ _ => exact ⟨s', rfl⟩

/-- To register the next link changes nothing about the rotator. -/
theorem told_welcome {Q : Served → Prop} {l : Level} (x : ClientId)
    (h : Told (fun v _ => Q v) l) : Told (fun v _ => Q v) (l.welcome x) := h

/-- While nothing has been on its way to a transport, the rotator is as it was described. -/
def Rests (i : Info) (l : Level) : Prop := ∀ t, l.newest t = none → l.info = i

theorem Rests.advance {i : Info} {l m : Level} (h : Rests i l) (advances : l.Advances m) :
    Rests i m := by
  intro t hnone
  rcases advances.newest with ⟨hinfo, hnewest⟩ | hnew
  · rw [hinfo]
    exact h t (hnewest t ▸ hnone)
  · rw [hnew] at hnone
    cases hnone

/-- How the link of `far`, to which the rotator of `near` was described as `i`, stands to that
rotator. -/
inductive Linked (i : Info) (near far : Level) : Prop where
  | waiting (unlinked : near.Unlinked) (heard : Heard i [] far)
  | registered (g : Registration) (websocket : g.transport = .websocket) (serves : Serves g near)
      (hands : Hands g near) (informs : Informs (Heard i) g near far) (rests : Rests i near)

/-- Nothing matters about the level of a link but what the link has heard. -/
theorem Linked.of_heard {i : Info} {near far far' : Level} (h : Linked i near far)
    (heard : ∀ ss, Heard i ss far → Heard i ss far') : Linked i near far' := by
  cases h with
  | waiting unlinked hfar => exact .waiting unlinked (heard [] hfar)
  | registered g websocket serves hands informs rests =>
    refine .registered g websocket serves hands (fun undisturbed => ?_) rests
    obtain ⟨ss, handed, hfar⟩ := informs undisturbed
    exact ⟨ss, handed, heard ss hfar⟩

theorem Linked.heard {i : Info} {near far : Level} (h : Linked i near far)
    (guest : near.guest = none) : Heard i [] far := by
  cases h with
  | waiting _ heard => exact heard
  | registered g _ _ hands _ _ =>
    have hguest := hands.1
    rw [guest] at hguest
    cases hguest

/-- When everything has arrived, a registered link that is left alone knows the rotator. -/
theorem Linked.info_eq {i : Info} {near far : Level} (h : Linked i near far)
    (tracks : near.Tracks) (serving : Serving i near) (linked : near.guest ≠ none)
    (keeps : ∀ g ∈ near.guest, near.record.Undisturbed g.client) (settled : near.Settled) :
    far.info = near.info := by
  cases h with
  | waiting unlinked _ => exact absurd unlinked.guest linked
  | registered g websocket serves hands informs rests =>
    have undisturbed := keeps g hands.1
    refine (Chain.info_eq_iff_of_heard websocket serves hands informs tracks serving undisturbed
      settled).mpr ?_
    by_cases hgot : near.record.got g.client = []
    · left
      have hpassed : near.record.passed .websocket = [] := by
        rw [(serves undisturbed).2, websocket] at hgot
        exact List.map_eq_nil_iff.mp hgot
      have hnone : near.newest .websocket = none := by
        rw [settled.drained.newest, hpassed]
        rfl
      rw [rests .websocket hnone]
    · exact .inr hgot

end Level

namespace Chain
open Level

variable {k : Nat}

/-- Puts a station at the end of a chain, with a link that is not registered yet. -/
def extend (c : Chain k) (link : Link) (capacity : Nat) : Chain (k + 1) :=
  Fin.lastCases (Level.fresh (.mirror link) capacity) c

/-- Registers the link of a station at the station before it. -/
def enrol (c : Chain k) (i : Fin k) (x : ClientId) : Chain k :=
  Function.update c i.castSucc ((c i.castSucc).welcome x)

/-- Chains as they grow from a simulator, with the descriptions that their links fetched. Steps
come in between at will. When a link is registered its description holds. -/
inductive Grown : {k : Nat} → Chain k → (Fin k → Info) → Prop where
  | start (s : Simulator) (capacity : Nat) :
      Grown (fun _ : Fin 1 => Level.fresh (.source s) capacity) Fin.elim0
  | step {k : Nat} {c : Chain k} {told : Fin k → Info} (grown : Grown c told) (s : Step k) :
      Grown (c.step s) told
  | extend {k : Nat} {c : Chain k} {told : Fin k → Info} (grown : Grown c told) {link : Link}
      {farewell : String}
      (connects : (Link.connect (c (Fin.last k)).fetch true farewell).outcome = .ok link)
      (capacity : Nat) : Grown (c.extend link capacity) (Fin.lastCases link.info told)
  | enrol {k : Nat} {c : Chain k} {told : Fin k → Info} (grown : Grown c told) (i : Fin k)
      (x : ClientId) (unlinked : (c i.castSucc).guest = none)
      (new : (c i.castSucc).station.held x = []) (unchanged : (c i.castSucc).info = told i) :
      Grown (c.enrol i x) told

theorem Grown.run {c : Chain k} {told : Fin k → Info} (grown : Grown c told)
    (steps : List (Step k)) : Grown (c.run steps) told := by
  induction steps generalizing c with
  | nil => exact grown
  | cons s steps ih => exact ih (grown.step s)

/-- All that a chain keeps while it grows. -/
structure Connected (c : Chain k) (told : Fin k → Info) : Prop where
  begins : Begins (c 0)
  tracks : ∀ i, (c i).Tracks
  last : (c (Fin.last k)).Unlinked
  serving : ∀ i : Fin k, Serving (told i) (c i.castSucc)
  linked : ∀ i : Fin k, Linked (told i) (c i.castSucc) (c i.succ)

theorem connected_start (s : Simulator) (capacity : Nat) :
    Connected (fun _ : Fin 1 => Level.fresh (.source s) capacity) Fin.elim0 where
  begins := ⟨s, rfl⟩
  tracks _ := tracks_fresh _ _
  last := ⟨rfl, rfl⟩
  serving i := i.elim0
  linked i := i.elim0

/-! ## Steps -/

theorem begins_step {c : Chain k} (s : Step k) (h : Begins (c 0)) : Begins (c.step s 0) := by
  refine own_step own_begins s h (fun _ _ _ => h.handOver) ?_
  intro j _ hj
  exact absurd hj.symm (Fin.succ_ne_zero j)

theorem linked_step {c : Chain k} {i : Fin k} {told : Info} (s : Step k)
    (attended : (c i.castSucc).Attended) (h : Linked told (c i.castSucc) (c i.succ)) :
    Linked told (c.step s i.castSucc) (c.step s i.succ) := by
  have listens := listens_heard told
  cases h with
  | waiting unlinked heard =>
    refine .waiting (stable_step stable_unlinked s unlinked) ?_
    refine own_step (listens.own []) s heard (fun _ _ _ => listens.handOver heard) ?_
    intro j _ hj
    obtain rfl := Fin.succ_inj.mp hj
    rw [unlinked.wire]
    exact heard
  | registered g websocket serves hands informs rests =>
    exact .registered g websocket (stable_step (stable_serves g) s serves)
      (stable_step (stable_hands g) s hands) (informs_step listens websocket serves hands s informs)
      (rests.advance (advances_step s attended))

theorem Connected.step {c : Chain k} {told : Fin k → Info} (h : c.Connected told) (s : Step k) :
    (c.step s).Connected told where
  begins := begins_step s h.begins
  tracks i := tracks_step s (h.tracks i)
  last := stable_step stable_unlinked s h.last
  serving i := serving_run [s] (h.serving i)
  linked i := linked_step s (h.tracks _).attended (h.linked i)

/-! ## Growth -/

theorem extend_castSucc (c : Chain k) (link : Link) (capacity : Nat) (i : Fin (k + 1)) :
    c.extend link capacity i.castSucc = c i := Fin.lastCases_castSucc ..

theorem extend_last (c : Chain k) (link : Link) (capacity : Nat) :
    c.extend link capacity (Fin.last (k + 1)) = Level.fresh (.mirror link) capacity :=
  Fin.lastCases_last ..

/-- A new link was told how the rotator is, and waits. -/
theorem Connected.extend {c : Chain k} {told : Fin k → Info} (h : c.Connected told)
    (farewell : String) (capacity : Nat) :
    (c.extend (.opened (c (Fin.last k)).info farewell) capacity).Connected
      (Fin.lastCases (c (Fin.last k)).info told) where
  begins := by
    rw [← Fin.castSucc_zero, extend_castSucc]
    exact h.begins
  tracks i := by
    cases i using Fin.lastCases with
    | last =>
      rw [extend_last]
      exact tracks_fresh _ _
    | cast i =>
      rw [extend_castSucc]
      exact h.tracks i
  last := by
    rw [extend_last]
    exact ⟨rfl, rfl⟩
  serving i := by
    rw [extend_castSucc]
    cases i using Fin.lastCases with
    | last =>
      rw [Fin.lastCases_last]
      exact serving_refl _
    | cast i =>
      rw [Fin.lastCases_castSucc]
      exact h.serving i
  linked i := by
    rw [extend_castSucc]
    cases i using Fin.lastCases with
    | last =>
      rw [Fin.lastCases_last, Fin.succ_last, extend_last]
      exact .waiting h.last ⟨_, rfl, rfl, rfl⟩
    | cast i =>
      rw [Fin.lastCases_castSucc, Fin.succ_castSucc, extend_castSucc]
      exact h.linked i

/-- A link is registered while its description holds. -/
theorem Connected.enrol {c : Chain k} {told : Fin k → Info} (h : c.Connected told) {i : Fin k}
    {x : ClientId} (unlinked : (c i.castSucc).guest = none)
    (new : (c i.castSucc).station.held x = []) (unchanged : (c i.castSucc).info = told i) :
    (c.enrol i x).Connected told where
  begins := update_of h.begins fun h0 => told_welcome x (h0 ▸ h.begins)
  tracks j := update_of (h.tracks j) fun hj => (hj ▸ h.tracks j).welcome x
  last := update_of h.last fun hlast => absurd hlast.symm (Fin.ne_of_lt (Fin.castSucc_lt_last i))
  serving j := update_of (h.serving j) fun hj => serving_welcome x (hj ▸ h.serving j)
  linked j := by
    have hfar : ∀ ss, Heard (told j) ss (c j.succ) → Heard (told j) ss (c.enrol i x j.succ) := by
      intro ss heard
      exact update_of heard fun hj => told_welcome x (hj ▸ heard)
    by_cases hj : j = i
    · subst hj
      have heard := hfar [] ((h.linked j).heard unlinked)
      rw [Chain.enrol, Function.update_self]
      exact .registered (newcomer (c j.castSucc) x) rfl (serves_welcome new) (hands_welcome _ x)
        (fun _ => ⟨[], rfl, heard⟩) fun _ _ => unchanged
    · have hother : j.castSucc ≠ i.castSucc := fun hij => hj (Fin.castSucc_inj.mp hij)
      have hnear : c.enrol i x j.castSucc = c j.castSucc := Function.update_of_ne hother ..
      rw [hnear]
      exact (h.linked j).of_heard hfar

theorem Grown.connected {c : Chain k} {told : Fin k → Info} (grown : Grown c told) :
    c.Connected told := by
  induction grown with
  | start s capacity => exact connected_start s capacity
  | step grown s ih => exact ih.step s
  | extend grown connects capacity ih =>
    rw [connect_fetch] at connects
    injection connects with connects
    subst connects
    exact ih.extend _ capacity
  | enrol grown i x unlinked new unchanged ih => exact ih.enrol unlinked new unchanged

/-- A chain may have any number of links, buses of any capacity, and any run of commands and
ticks behind it, in which pumps lagged as they may. Every link was registered while the
description it fetched held, and nothing has closed its connection since, such as a write
that failed. Whenever everything has arrived, every level knows the simulator as it is. -/
theorem info_eq_of_settled {c : Chain k} {told : Fin k → Info} (grown : Grown c told)
    (linked : ∀ i : Fin k, (c i.castSucc).guest ≠ none) (keeps : c.KeepsGuests)
    (settled : ∀ i, (c i).Settled) :
    ∃ s, (c 0).station.rotator = .source s ∧ ∀ i, (c i).info = s.info := by
  have h := grown.connected
  obtain ⟨s, hs⟩ := h.begins
  refine ⟨s, hs, fun i => ?_⟩
  induction i using Fin.induction with
  | zero => rw [Level.info, hs]; rfl
  | succ i ih =>
    rw [← ih]
    exact (h.linked i).info_eq (h.tracks _) (h.serving i) (linked i) (keeps i) (settled _)

/-! ## Two links behind small rings -/

/-- A simulator on a bus with one slot. -/
def narrow : Chain 0 := fun _ => Level.fresh (.source (.create .standard)) 0

/-- Adds a station on a bus with one slot, with a link that is registered at once. -/
def lengthen (c : Chain k) (x : ClientId) : Chain (k + 1) :=
  (c.extend (.opened (c (Fin.last k)).info "over") 0).enrol (Fin.last k) x

def row : Chain 2 := (narrow.lengthen 7).lengthen 8

/-- Two changes are published before the pump reads, so that the ring gives up the first. -/
def squeezed (i : Fin (k + 1)) : List (Step k) :=
  [.publish i, .publish i, .pump i] ++ passOn i

/-- Both axes turn at a level, and at each level one of two changes is lost. -/
def hurried (i : Fin (k + 1)) : List (Step k) :=
  [.deed i (.move (.steer .azimuth 90)), .deed i (.move (.steer .elevation 45))]
  ++ ((List.finRange k).flatMap fun j => squeezed j.castSucc ++ [.deliver j])
  ++ squeezed (Fin.last k)

theorem grown_row : ∃ told, Grown row told := by
  have hfirst := (Grown.start (.create .standard) 0).extend (connect_fetch (narrow 0) "over") 0
  have hsecond := (hfirst.enrol (Fin.last 0) 7 rfl rfl rfl).extend (connect_fetch _ "over") 0
  exact ⟨_, hsecond.enrol (Fin.last 1) 8 rfl rfl rfl⟩

theorem info_eq_of_settled_hurried :
    (∀ i, ¬(row.run (hurried 0) i).record.Lossless) ∧
      (row.run (hurried 0) 2).info.pointing.elevation.preset = 45 ∧
      ∃ s, (row.run (hurried 0) 0).station.rotator = .source s ∧
        ∀ i, (row.run (hurried 0) i).info = s.info := by
  obtain ⟨told, hgrown⟩ := grown_row
  refine ⟨by decide +kernel, by decide +kernel, ?_⟩
  exact info_eq_of_settled (hgrown.run (hurried 0)) (by decide +kernel) (by decide +kernel)
    (by decide +kernel)

end Chain

end Aerial
