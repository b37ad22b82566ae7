import Aerial.Proofs.Framing.Pieces
import Aerial.Proofs.Station.Visits

/-! # Connections that are cut off

A line connection may break at any byte. The lines that have come by then are executed, and
the piece after them is handed over like a line, since it might be one. It is no danger: a
piece of a request is read as the request itself, when no more than space is missing from it,
or it is not read as a request at all. So a station executes some of the requests of the whole
connection, in their order, and never one that was not sent. -/

namespace Aerial.Station

variable {ρ : Type}

/-- A client comes with a line connection that delivers these segments and then ends. -/
def lineConnection (s : Station ρ) (c : ClientId) (segments : List Octets) : List (Action ρ) :=
  .join .tcp c :: (Inbound.ofSegments segments).map (Inbound.action s.streams)

variable [Rotator ρ]

/-- The requests that a station executes for a line connection. -/
def executed (s : Station ρ) (c : ClientId) (segments : List Octets) : List Request :=
  Effect.requests (s.run (s.lineConnection c segments)).2

/-- A line connection amounts to the requests among its lines. -/
theorem executed_eq (s : Station ρ) (c : ClientId) {segments lines : List Octets}
    (h : Framer.start.items segments = lines.map .line) :
    s.executed c segments = lines.filterMap command? := by
  have hactions : s.lineConnection c segments =
      s.visit .tcp c (lines.map .message) ++ [.hangUp s.streams none] := by
    rw [lineConnection, Inbound.ofSegments, h, List.map_append, List.map_map, List.map_map, visit,
      List.map_map]
    rfl
  rw [executed, hactions, effects_run_append, Effect.requests_append, requests_visit]
  simp only [run, List.append_nil]
  rw [requests_perform (by simp), List.append_nil]

/-- The piece after the last line feed is taken for a line. -/
theorem executed_terminated (s : Station ρ) (c : ClientId) {segments lines : List Octets}
    {w : Octets} (plain : ∀ line ∈ lines, Framer.Plain line) (hw : Framer.Plain w)
    (all : segments.flatten = Framer.terminated lines ++ w) :
    s.executed c segments = lines.filterMap command? ++ (command? w).toList := by
  have hitems := Framer.items_terminated plain hw all
  cases w with
  | nil =>
    rw [if_pos rfl, List.append_nil] at hitems
    exact (s.executed_eq c hitems).trans (List.append_nil _).symm
  | cons b w =>
    rw [if_neg (List.cons_ne_nil b w), ← List.map_singleton, ← List.map_append] at hitems
    rw [s.executed_eq c hitems, List.filterMap_append, List.filterMap_cons]
    cases command? (b :: w) <;> rfl

/-! ## Parts of requests -/

/-- A part of a request, from the first byte on, is that request or none. -/
theorem command?_of_isPrefix {line w : Octets} {r : Request}
    (decodes : Wire.decodeRequest line = .ok r) (h : w <+: line) :
    command? w = some r ∨ command? w = none := by
  cases hw : command? w with
  | none => exact .inr rfl
  | some r' =>
    obtain ⟨more, rfl⟩ := h
    have hdecodes := (command?_eq_some_iff.mp hw).2
    exact .inl (congrArg some (Wire.decodeRequest_append hdecodes decodes))

theorem filterMap_command? {lines : List Octets} {requests : List Request}
    (decode : lines.map Wire.decodeRequest = requests.map .ok) :
    lines.filterMap command? = requests := by
  induction lines generalizing requests with
  | nil => exact (List.map_eq_nil_iff.mp decode.symm).symm
  | cons line lines ih =>
    cases requests with
    | nil => cases decode
    | cons r requests =>
      rw [List.map_cons, List.map_cons, List.cons.injEq] at decode
      rw [List.filterMap_cons_some (command?_of_decodes decode.1), ih decode.2]

/-- Of a part of some requests, those that are complete are executed, and after them the next
request or none. -/
theorem executed_of_isPrefix (s : Station ρ) (c : ClientId) {lines segments : List Octets}
    {requests : List Request} (plain : ∀ line ∈ lines, Framer.Plain line)
    (decode : lines.map Wire.decodeRequest = requests.map .ok)
    (part : segments.flatten <+: Framer.terminated lines) :
    s.executed c segments = requests.take (segments.flatten.count 10) ∨
      s.executed c segments = requests.take (segments.flatten.count 10 + 1) := by
  obtain ⟨done, rest, w, rfl, hsegments, hw⟩ := Framer.prefix_terminated part
  have hdone : ∀ line ∈ done, Framer.Plain line :=
    fun line hline => plain line (List.mem_append_left _ hline)
  rw [List.map_append] at decode
  obtain ⟨rs, qs, rfl, hrs, hqs⟩ := List.map_eq_append_iff.mp decode.symm
  have hlength : done.length = rs.length := by
    simpa using (congrArg List.length hrs).symm
  have hplain : Framer.Plain w := by
    cases rest with
    | nil => exact Framer.plain_nil.of_isPrefix hw
    | cons line rest => exact (plain line (by simp)).of_isPrefix hw
  rw [hsegments, Framer.count_terminated hdone hplain, hlength,
    s.executed_terminated c hdone hplain hsegments, filterMap_command? hrs.symm, List.take_left]
  -- the piece belongs to the next request, if there is one
  cases rest with
  | nil =>
    obtain rfl := List.prefix_nil.mp hw
    exact .inl (List.append_nil rs)
  | cons line rest =>
    cases qs with
    | nil => cases hqs
    | cons r qs =>
      rw [List.map_cons, List.map_cons, List.cons.injEq] at hqs
      rcases command?_of_isPrefix hqs.1.symm hw with hr | hnone
      · right
        rw [hr, List.take_append]
        simp
      · left
        rw [hnone]
        exact List.append_nil rs

/-- Some requests are sent as lines, and the connection breaks at any byte. Then the station
executes the requests of the complete lines, and perhaps the one whose line is not complete,
but none that the whole connection would not have made it execute. The rotator is left as if
it had been asked for these alone. -/
theorem executed_isPrefix (s : Station ρ) (c : ClientId) {lines whole segments : List Octets}
    {requests : List Request} (plain : ∀ line ∈ lines, Framer.Plain line)
    (decode : lines.map Wire.decodeRequest = requests.map .ok)
    (all : whole.flatten = Framer.terminated lines)
    (part : segments.flatten <+: Framer.terminated lines) :
    let complete := segments.flatten.count 10
    let after := s.run (s.lineConnection c segments)
    s.executed c whole = requests ∧
    (s.executed c segments = requests.take complete ∨
      s.executed c segments = requests.take (complete + 1)) ∧
    s.executed c segments <+: s.executed c whole ∧
    (after.1.rotator, Effect.changes after.2) = Rotator.obey s.rotator (s.executed c segments) := by
  intro complete after
  have hpart := s.executed_of_isPrefix c plain decode part
  have hwhole : s.executed c whole = requests := by
    rw [s.executed_terminated c plain Framer.plain_nil (all.trans (List.append_nil _).symm),
      filterMap_command? decode]
    exact List.append_nil requests
  refine ⟨hwhole, hpart, ?_, run_obeys ?_⟩
  · rw [hwhole]
    rcases hpart with h | h
    · exact h ▸ List.take_prefix _ _
    · exact h ▸ List.take_prefix _ _
  · exact s.visit_unturned .tcp c (Inbound.ofSegments segments)

/-- A turn and a stop, of which the stop is cut off within its last word. -/
def broken : List Octets :=
  let all := Framer.terminated [Wire.writeRequest (.setAzimuth 90), Wire.writeRequest .stop]
  [all.take 5, (all.drop 5).take 20]

theorem executed_isPrefix_broken :
    let s := create (Simulator.create .standard)
    let lines := [Wire.writeRequest (.setAzimuth 90), Wire.writeRequest .stop]
    s.executed 0 broken <+: s.executed 0 [Framer.terminated lines] ∧
      s.executed 0 [Framer.terminated lines] = [.setAzimuth 90, .stop] ∧
      s.executed 0 broken = [.setAzimuth 90] := by
  intro s lines
  have h := executed_isPrefix s 0 (show ∀ line ∈ lines, Framer.Plain line by decide +kernel)
    (show lines.map Wire.decodeRequest = [.setAzimuth 90, .stop].map .ok by
      simp [lines, Wire.decodeRequest_writeRequest])
    (show [Framer.terminated lines].flatten = Framer.terminated lines by simp)
    (show broken.flatten <+: Framer.terminated lines by decide +kernel)
  exact ⟨h.2.2.1, h.1, by decide +kernel⟩

end Aerial.Station
