import Aerial.Proofs.Chain.Trails
import Aerial.Proofs.Chain.Transparency
import Aerial.Site

/-! # How a link comes to a chain

A link fetches the description of the rotator at the end of a chain and is then
registered there for pushes. Between the two the rotator goes on. What changes in
between reaches the link only if its push has not been passed on yet when the link is
registered, so a link can stay behind for good: exactly when the rotator points
differently than it was described, and nothing has been written to the link. Once
anything has been written, the newest status comes last, as everywhere. -/

namespace Aerial

namespace Level

/-- What a request for the description of the rotator brings. -/
def fetch (l : Level) : Fetched :=
  let answer := Site.answer l.station ⟨"GET", "/info", []⟩
  match answer.body with
  | .json body => .page answer.code body
  | _ => .page answer.code []

/-- A link that has fetched the description knows the rotator as it was then. -/
theorem connect_fetch (l : Level) (farewell : String) :
    (Link.connect l.fetch true farewell).outcome = .ok (.opened l.info farewell) := by
  have hfetch : l.fetch = .page 200 (Wire.writeInfos [l.info]) := by
    have hpage : Site.Page.ofPath? "/info" = some .info := by decide
    simp only [fetch, Site.answer, hpage]
    rfl
  rw [hfetch, Link.connect, Link.describe, if_neg (by decide), Wire.decodeInfos_writeInfos]
  rfl

/-- The same level with nothing recorded yet. -/
def unrecorded (l : Level) : Level := { l with record := [] }

/-- A level at which the link of the next station has just been registered. -/
def welcome (x : ClientId) (l : Level) : Level :=
  { l.perform (.join .websocket x) with
    guest := some ⟨.websocket, x, l.station.streams⟩
    wire := []
    record := [] }

theorem Tracks.welcome {l : Level} (h : l.Tracks) (x : ClientId) : (l.welcome x).Tracks := by
  have hjoined : (l.perform (.join .websocket x)).Tracks :=
    h.advance (h.attended.perform (l.station.goes_deed (.join .websocket x)).tells)
  exact hjoined.unrecorded rfl (fun _ => rfl) rfl rfl

end Level

namespace Chain
open Level

variable {k : Nat}

/-- Registers a link at the last level and puts its station at the end of the chain. The
records begin anew. -/
def attach (c : Chain k) (x : ClientId) (link : Link) (capacity : Nat) : Chain (k + 1) :=
  Fin.lastCases (Level.fresh (.mirror link) capacity)
    fun i => if i = Fin.last k then (c i).welcome x else (c i).unrecorded

/-- Chains as they come about from a simulator, with links that know whatever they know. -/
inductive Built : {k : Nat} → Chain k → Prop where
  | start (s : Simulator) (capacity : Nat) :
      Built (fun _ : Fin 1 => Level.fresh (.source s) capacity)
  | step {k : Nat} {c : Chain k} (built : Built c) (s : Step k) : Built (c.step s)
  | attach {k : Nat} {c : Chain k} (built : Built c) (x : ClientId) (link : Link) (capacity : Nat) :
      Built (c.attach x link capacity)

theorem attach_last (c : Chain k) (x : ClientId) (link : Link) (capacity : Nat) :
    c.attach x link capacity (Fin.last k).succ = Level.fresh (.mirror link) capacity := by
  rw [Fin.succ_last, attach, Fin.lastCases_last]

theorem attach_castSucc_last (c : Chain k) (x : ClientId) (link : Link) (capacity : Nat) :
    c.attach x link capacity (Fin.last k).castSucc = (c (Fin.last k)).welcome x := by
  rw [attach, Fin.lastCases_castSucc, if_pos rfl]

theorem Built.tracks {c : Chain k} (built : Built c) (i : Fin (k + 1)) : (c i).Tracks := by
  induction built with
  | start s capacity => exact tracks_fresh _ _
  | step built s ih => exact tracks_step s (ih i)
  | @attach k c built x link capacity ih =>
    cases i using Fin.lastCases with
    | last =>
      rw [Chain.attach, Fin.lastCases_last]
      exact tracks_fresh _ _
    | cast j =>
      rw [Chain.attach, Fin.lastCases_castSucc]
      split
      · exact (ih j).welcome x
      · exact (ih j).unrecorded rfl (fun _ => rfl) rfl rfl

theorem Built.run {c : Chain k} (built : Built c) (steps : List (Step k)) :
    Built (c.run steps) := by
  induction steps generalizing c with
  | nil => exact built
  | cons s steps ih => exact ih (built.step s)

/-- The link of a new client, as the level before it knows it. -/
def newcomer (l : Level) (x : ClientId) : Registration := ⟨.websocket, x, l.station.streams⟩

theorem serves_welcome {l : Level} {x : ClientId} (new : l.station.held x = []) :
    Serves (newcomer l x) (l.welcome x) :=
  serves_of_held rfl (Station.held_join_self new)

theorem hands_welcome (l : Level) (x : ClientId) : Hands (newcomer l x) (l.welcome x) :=
  ⟨rfl, fun _ => rfl⟩

theorem mirrors_attach (c : Chain k) (x : ClientId) (start : Info) (farewell : String)
    (capacity : Nat) :
    (c.attach x (.opened start farewell) capacity).Mirrors (Fin.last k)
      (newcomer (c (Fin.last k)) x) start := by
  intro _
  rw [attach_castSucc_last, attach_last]
  exact ⟨[], rfl, .opened start farewell, rfl, rfl, rfl, rfl⟩

theorem serving_welcome {i : Info} {l : Level} (x : ClientId) (h : Serving i l) :
    Serving i (l.welcome x) := h

/-- When everything has arrived, a link that began as `start` points as the last status it was
sent, or as at the start. -/
theorem info_eq_iff_of_heard {l m : Level} {g : Registration} {start : Info}
    (websocket : g.transport = .websocket) (serves : Serves g l) (hands : Hands g l)
    (informs : Informs (Heard start) g l m) (tracks : l.Tracks) (serving : Serving start l)
    (undisturbed : l.record.Undisturbed g.client) (settled : l.Settled) :
    m.info = l.info ↔ start.pointing = l.info.pointing ∨ l.record.got g.client ≠ [] := by
  obtain ⟨ss, handed, v, hv, -, hinfo⟩ := informs undisturbed
  have hall := (handed_isPrefix websocket serves hands undisturbed handed).2 settled.wire
  have hgot : l.record.got g.client = [] ↔ ss = [] := by
    rw [(serves undisturbed).2, websocket, ← hall, List.map_eq_nil_iff]
  have hmirror : m.info = start.pointed (start.heard ss).pointing := by
    rw [Level.info, hv]
    exact hinfo.trans (Info.tells_echoed start ss).eq_pointed
  have hpointing : m.info = l.info ↔ (start.heard ss).pointing = l.info.pointing := by
    rw [hmirror, serving]
    exact ⟨congrArg Info.pointing, fun h => congrArg start.pointed h⟩
  rw [hpointing, Info.heard_pointing, ne_eq, hgot]
  cases hlast : ss.getLast? with
  | none => simp [List.getLast?_eq_none_iff.mp hlast]
  | some s =>
    have hne : ss ≠ [] := fun h => by simp [h] at hlast
    have hnewest := tracks.pointing_of_settled settled (hall ▸ hlast)
    simp [hne, hnewest]

theorem mirror_info_eq_iff {c : Chain k} {i : Fin k} {g : Registration} {start : Info}
    (websocket : g.transport = .websocket) (serves : Serves g (c i.castSucc))
    (hands : Hands g (c i.castSucc)) (mirrors : c.Mirrors i g start)
    (tracks : (c i.castSucc).Tracks) (serving : Serving start (c i.castSucc))
    (undisturbed : (c i.castSucc).record.Undisturbed g.client) (settled : (c i.castSucc).Settled) :
    (c i.succ).info = (c i.castSucc).info ↔
      start.pointing = (c i.castSucc).info.pointing ∨ (c i.castSucc).record.got g.client ≠ [] := by
  have informs : Informs (Heard start) g (c i.castSucc) (c i.succ) := by
    intro h
    obtain ⟨ss, handed, knows⟩ := mirrors h
    exact ⟨ss, handed, knows.heard⟩
  exact info_eq_iff_of_heard websocket serves hands informs tracks serving undisturbed settled

/-- A link fetches the description of the rotator, and is registered after some steps. When
everything has arrived later on, the link knows the rotator exactly if the rotator points as
it was described, or the link has been written anything. -/
theorem bootstrap_info_eq_iff {c : Chain k} (built : Built c) (between : List (Step k))
    {x : ClientId} (new : (c.run between (Fin.last k)).station.held x = []) {link : Link}
    {farewell : String}
    (connects : (Link.connect (c (Fin.last k)).fetch true farewell).outcome = .ok link)
    (capacity : Nat) (after : List (Step (k + 1))) {d : Chain (k + 1)}
    (hd : d = ((c.run between).attach x link capacity).run after)
    (kept : (d (Fin.last k).castSucc).record.Undisturbed x)
    (settled : (d (Fin.last k).castSucc).Settled) :
    (d (Fin.last k).succ).info = (d (Fin.last k).castSucc).info ↔
      (c (Fin.last k)).info.pointing = (d (Fin.last k).castSucc).info.pointing ∨
        (d (Fin.last k).castSucc).record.got x ≠ [] := by
  rw [connect_fetch] at connects
  injection connects with connects
  subst connects hd
  have hserves := serves_welcome new
  have hhands := hands_welcome (c.run between (Fin.last k)) x
  have hserving : Serving (c (Fin.last k)).info ((c.run between (Fin.last k)).welcome x) :=
    serving_welcome x (serving_run between (serving_refl _))
  rw [← attach_castSucc_last _ x (.opened (c (Fin.last k)).info farewell) capacity]
    at hserves hhands hserving
  exact mirror_info_eq_iff rfl (stable_run (stable_serves _) after hserves)
    (stable_run (stable_hands _) after hhands)
    (mirrors_run rfl hserves hhands after (mirrors_attach _ x _ farewell capacity))
    ((((built.run between).attach x _ capacity).run after).tracks _)
    (serving_run after hserving) kept settled

/-! ## A simulator that turns in between -/

def alone : Chain 0 := fun _ => Level.fresh (.source (.create .standard)) 16

/-- A command whose status has been passed on to nobody. -/
def turned : List (Step 0) :=
  .deed (Fin.last 0) (.move (.steer .azimuth 90)) :: passOn (Fin.last 0)

/-- A link that fetched the description before the command and was registered after it. -/
def late : Chain 1 := (alone.run turned).attach 7 (.opened (alone (Fin.last 0)).info "over") 16

/-- The late link takes the preset for 0 while it is 90, and there is nothing more to hear. -/
theorem late_stays_behind :
    (Link.connect (alone 0).fetch true "over").outcome = .ok (.opened (alone 0).info "over") ∧
      (late 0).Settled ∧ (late 0).record.Undisturbed 7 ∧
      (late 1).info.pointing.azimuth.preset = 0 ∧ (late 0).info.pointing.azimuth.preset = 90 :=
  ⟨connect_fetch .., by decide +kernel, by decide, by decide, by decide +kernel⟩

/-- Another command, heard by the link. -/
def turnedAgain : List (Step 1) :=
  .deed (Fin.last 0).castSucc (.move (.steer .elevation 45)) :: passOn (Fin.last 0).castSucc
  ++ [.deliver (Fin.last 0)]

theorem late_catches_up : (late.run turnedAgain 1).info = (late.run turnedAgain 0).info :=
  (bootstrap_info_eq_iff (.start _ _) turned (by decide +kernel) (connect_fetch (alone 0) "over") 16
    turnedAgain rfl (by decide +kernel) (by decide +kernel)).mpr (.inr (by decide +kernel))

end Chain

end Aerial
