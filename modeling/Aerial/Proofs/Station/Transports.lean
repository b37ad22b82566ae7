import Aerial.Proofs.Framing.Scanner
import Aerial.Proofs.Station.Visits

/-! # What the transports bring

A line connection brings the lines among its bytes, whatever the segments were, and ends with
the connection or at a line that is too long. A stream connection brings what its text and
binary frames hold, and ends with a close frame; control frames say nothing. Beyond that the
station does not know one transport from the other: the same payloads are executed the same
way, and the client is closed and forgotten at the end. -/

namespace Aerial

open Framer (Plain Overlong accepted expected terminated verdict)

namespace Inbound

/-- What a line connection brings, ended or not. -/
def ofLines (segments : List Octets) (ended : Bool) : List Inbound :=
  (Framer.start.yielded segments ended).map ofItem ++ if ended then [.ended none] else []

/-- The inbound stream of a line connection is what it brings once it has ended. -/
theorem ofSegments_eq (segments : List Octets) : ofSegments segments = ofLines segments true := by
  rw [ofSegments, Framer.items_eq_yielded]
  rfl

theorem ofLines_eq (segments : List Octets) (ended : Bool) :
    ofLines segments ended = (accepted segments.flatten ended).map .message
      ++ ((if Overlong segments.flatten then [.ended (some (.lineTooLong lineLimit))] else [])
        ++ if ended then [.ended none] else []) := by
  rw [ofLines, Framer.yielded_eq_expected, expected, List.map_append, List.map_map,
    List.append_assoc]
  split <;> rfl

/-- Frames that hold these payloads and then close the stream. What may come after the close
frame does not count. -/
inductive Carries : List Frame → List Octets → Prop where
  | text (bytes : Octets) {frames : List Frame} {payloads : List Octets}
      (rest : Carries frames payloads) : Carries (.text bytes :: frames) (bytes :: payloads)
  | binary (bytes : Octets) {frames : List Frame} {payloads : List Octets}
      (rest : Carries frames payloads) : Carries (.binary bytes :: frames) (bytes :: payloads)
  | control {frames : List Frame} {payloads : List Octets} (rest : Carries frames payloads) :
      Carries (.control :: frames) payloads
  | close (late : List Frame) : Carries (.close :: late) []

theorem Carries.ofFrames {frames : List Frame} {payloads : List Octets}
    (h : Carries frames payloads) (cause : String) :
    ∃ late, Inbound.ofFrames cause frames = payloads.map .message ++ .ended none :: late := by
  induction h with
  | text bytes _ ih =>
    obtain ⟨late, hlate⟩ := ih
    exact ⟨late, congrArg (Inbound.message bytes :: ·) hlate⟩
  | binary bytes _ ih =>
    obtain ⟨late, hlate⟩ := ih
    exact ⟨late, congrArg (Inbound.message bytes :: ·) hlate⟩
  | control _ ih => exact ih
  | close late => exact ⟨Inbound.ofFrames cause late, rfl⟩

end Inbound

namespace Station

variable {ρ : Type} [Rotator ρ]

/-- What a station does for a line connection: for one with a line too long as for one that has
ended, except that the client goes with a fault. -/
theorem Kept.line_connection {s : Station ρ} (h : s.Kept) (c : ClientId) (segments : List Octets)
    (ended : Bool) :
    let lines := accepted segments.flatten ended
    let out := s.run (s.visit .tcp c (Inbound.ofLines segments ended))
    if Overlong segments.flatten then s.Parted .tcp c lines (some (.lineTooLong 4096)) out
    else if ended then s.Parted .tcp c lines none out
    else s.Heard .tcp c lines out := by
  dsimp only
  rw [Inbound.ofLines_eq]
  split
  · exact h.parted .tcp c _ (some (.lineTooLong lineLimit)) _
  · cases ended with
    | true => exact h.parted .tcp c _ none []
    | false =>
      rw [if_neg Bool.false_ne_true, if_neg Bool.false_ne_true, List.append_nil, List.append_nil]
      exact h.heard .tcp c _

/-- The station hears of a line connection what its bytes amount to, however they were cut into
segments, and whether or not bytes are looked at again. It executes the lines in order, up to
the first that has more than 4096 bytes. There the client is removed, with one fault, and
nothing later has any effect. -/
theorem lines_of_segments (r : ρ) (before : List (Action ρ)) (c : ClientId)
    (segments : List Octets) (ended : Bool) :
    let bytes := segments.flatten
    let s := (create r).after before
    let out := s.run (s.visit .tcp c (Inbound.ofLines segments ended))
    Inbound.ofSegments segments = Inbound.ofLines segments true ∧
    Framer.start.yielded segments ended = expected bytes ended ∧
    Scanner.start.yielded segments ended = expected bytes ended ∧
    (∀ lines line, (∀ l ∈ lines, Plain l) → 10 ∉ line →
      (bytes = terminated lines ++ (line ++ [10]) →
        Framer.start.yielded segments ended = lines.map .line ++ [verdict line]) ∧
      (bytes = terminated lines ++ line →
        Framer.start.yielded segments ended = lines.map .line ++
          if 4096 < line.length ∨ (ended ∧ line ≠ []) then [verdict line] else [])) ∧
    if Overlong bytes then s.Parted .tcp c (accepted bytes ended) (some (.lineTooLong 4096)) out
    else if ended then s.Parted .tcp c (accepted bytes ended) none out
    else s.Heard .tcp c (accepted bytes ended) out := by
  intro bytes s out
  have hframer : Framer.start.yielded segments ended = expected bytes ended :=
    Framer.yielded_eq_expected segments ended
  refine ⟨Inbound.ofSegments_eq segments, hframer,
    (Scanner.yielded_eq segments ended).trans hframer, ?_, ?_⟩
  · intro lines line plain one
    constructor
    · intro hbytes
      rw [hframer, hbytes, Framer.expected_terminated plain, Framer.expected_line one]
    · intro hbytes
      rw [hframer, hbytes, Framer.expected_terminated plain, Framer.expected_begun one]
  · exact ((kept_create r).after before).line_connection c segments ended

/-! ## The same payloads by lines and by frames -/

/-- Lines that were sent bring their payloads and the end of the stream. -/
theorem ofSegments_terminated {payloads segments : List Octets} (plain : ∀ p ∈ payloads, Plain p)
    (lines : segments.flatten = terminated payloads) :
    Inbound.ofSegments segments = payloads.map .message ++ [.ended none] := by
  have hitems := Framer.items_terminated plain Framer.plain_nil
    (lines.trans (List.append_nil _).symm)
  rw [if_pos rfl, List.append_nil] at hitems
  rw [Inbound.ofSegments, hitems, List.map_map]
  rfl

/-- The same payloads, sent as lines in any segments or in frames of any kind, make the station
execute the same requests. They leave the rotator in the same state with the same changes
announced, and the client is closed and forgotten. -/
theorem transports_agree (r : ρ) (before : List (Action ρ)) (c d : ClientId)
    {payloads segments : List Octets} {frames : List Frame} (plain : ∀ p ∈ payloads, Plain p)
    (lines : segments.flatten = terminated payloads) (carried : Inbound.Carries frames payloads)
    (cause : String) :
    let s := (create r).after before
    let byLines := s.run (s.visit .tcp c (Inbound.ofSegments segments))
    let byFrames := s.run (s.visit .websocket d (Inbound.ofFrames cause frames))
    Effect.requests byLines.2 = Effect.requests byFrames.2 ∧
    byLines.1.rotator = byFrames.1.rotator ∧
    Effect.changes byLines.2 = Effect.changes byFrames.2 ∧
    s.Parted .tcp c payloads none byLines ∧
    s.Parted .websocket d payloads none byFrames := by
  intro s byLines byFrames
  have hkept : s.Kept := (kept_create r).after before
  have hlines := hkept.parted .tcp c payloads none []
  rw [← ofSegments_terminated plain lines] at hlines
  obtain ⟨late, hlate⟩ := carried.ofFrames cause
  have hframes := hkept.parted .websocket d payloads none late
  rw [← hlate] at hframes
  have hobeyed := hlines.obeyed.trans hframes.obeyed.symm
  exact ⟨hlines.requests.trans hframes.requests.symm, congrArg Prod.fst hobeyed,
    congrArg Prod.snd hobeyed, hlines, hframes⟩

/-- Nothing, bytes that are no text, and a turn. -/
def sayings : List Octets := [[], [123, 255], Wire.writeRequest (.setAzimuth 90)]

theorem transports_agree_sayings :
    let s := (create (Simulator.create .standard)).after [.join .websocket 7]
    let all := terminated sayings
    let byLines := s.run (s.visit .tcp 0 (Inbound.ofSegments [all.take 2, [], all.drop 2]))
    let byFrames := s.run (s.visit .websocket 1 (Inbound.ofFrames "lost" [.control, .text [],
      .binary [123, 255], .text (Wire.writeRequest (.setAzimuth 90)), .control, .close]))
    Effect.requests byLines.2 = Effect.requests byFrames.2 ∧
      Effect.requests byFrames.2 = [.setAzimuth 90] ∧
      Effect.changes byLines.2 = Effect.changes byFrames.2 ∧
      ¬byLines.1.Registers .tcp 0 ∧ ¬byFrames.1.Registers .websocket 1 := by
  intro s all byLines byFrames
  obtain ⟨hrequests, -, hchanges, hlines, hframes⟩ :=
    transports_agree (Simulator.create .standard) [.join .websocket 7] 0 1
      (show ∀ p ∈ sayings, Plain p by decide +kernel)
      (show [all.take 2, [], all.drop 2].flatten = terminated sayings by decide +kernel)
      (.control (.text _ (.binary _ (.text _ (.control (.close [])))))) "lost"
  exact ⟨hrequests, by decide +kernel, hchanges, hlines.unregistered, hframes.unregistered⟩

end Station

end Aerial
