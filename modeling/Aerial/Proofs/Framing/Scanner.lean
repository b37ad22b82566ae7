import Aerial.Proofs.Framing.Pieces

/-! # Looking at each byte once

The framer looks through all that it has kept whenever a segment arrives. A scanner need not:
it remembers how far it has looked for a line feed and goes on there, and it never looks past
the first byte that makes a line too long. What it yields is the same, since what it skips
holds no line feed, and a line feed further on would come too late. -/

namespace Aerial

inductive Scanner where
  /-- Of the buffer, the first `seen` bytes have been looked at. -/
  | looking (buffer : Octets) (seen : Nat)
  | overrun

namespace Scanner

/-- Where the next line feed is, looked for after the first `seen` bytes and no further than
one byte past the limit. -/
def find (buffer : Octets) (seen : Nat) : Option Nat :=
  (((buffer.take (lineLimit + 1)).drop seen).idxOf? 10).map (seen + ·)

theorem find_lt {buffer : Octets} {seen n : Nat} (h : find buffer seen = some n) :
    n < buffer.length := by
  obtain ⟨offset, hoffset, rfl⟩ := Option.map_eq_some_iff.mp h
  have hlt := (List.findIdx?_eq_some_iff_findIdx_eq.mp hoffset).1
  rw [List.length_drop, List.length_take] at hlt
  omega

/-- Takes lines off a buffer, from where it has been looked at. -/
def scan (buffer : Octets) (seen : Nat) : List Octets × Scanner :=
  match _h : find buffer seen with
  | some n =>
    let (lines, s) := scan (buffer.drop (n + 1)) 0
    (buffer.take n :: lines, s)
  | none =>
    if lineLimit < buffer.length then ([], .overrun)
    else ([], .looking buffer (min (lineLimit + 1) buffer.length))
termination_by buffer.length
decreasing_by
  have := find_lt _h
  rw [List.length_drop]
  omega

def faults : Scanner → List Framer.Item
  | looking _ _ => []
  | overrun => [.fault (.lineTooLong lineLimit)]

def start : Scanner := .looking [] 0

/-- A segment arrives. -/
def receive (s : Scanner) (segment : Octets) : List Framer.Item × Scanner :=
  match s with
  | .overrun => ([], .overrun)
  | .looking buffer seen =>
    let (lines, s) := scan (buffer ++ segment) seen
    (lines.map .line ++ s.faults, s)

/-- The connection ends. -/
def finish : Scanner → List Framer.Item
  | looking [] _ => []
  | looking buffer _ => [.line buffer]
  | overrun => []

/-- What segments bring, with the end of the connection or without it. -/
def yielded (s : Scanner) (segments : List Octets) (ended : Bool) : List Framer.Item :=
  (Framer.feed receive s segments).1
    ++ if ended then (Framer.feed receive s segments).2.finish else []

/-! ## The framer -/

/-- The scanner that has looked at all that a framer keeps. -/
def ofFramer : Framer → Scanner
  | .collecting unfinished => .looking unfinished unfinished.length
  | .overrun => .overrun

theorem faults_ofFramer (f : Framer) : (ofFramer f).faults = f.faults := by
  cases f <;> rfl

theorem finish_ofFramer (f : Framer) : (ofFramer f).finish = f.finish := by
  cases f with
  | collecting unfinished => cases unfinished <;> rfl
  | overrun => rfl

theorem find_eq_none {buffer : Octets} {seen : Nat}
    (h : 10 ∉ buffer.take (lineLimit + 1)) : find buffer seen = none := by
  rw [find, List.idxOf?_eq_none_iff.mpr fun hmem => h (List.mem_of_mem_drop hmem)]
  rfl

theorem find_line {line : Octets} (h : 10 ∉ line) (short : line.length ≤ lineLimit)
    (rest : Octets) {seen : Nat} (before : seen ≤ line.length) :
    find (line ++ 10 :: rest) seen = some line.length := by
  have htake : (line ++ 10 :: rest).take (lineLimit + 1)
      = line ++ 10 :: rest.take (lineLimit - line.length) := by
    rw [List.take_append, List.take_of_length_le (by omega),
      show lineLimit + 1 - line.length = lineLimit - line.length + 1 by omega, List.take_succ_cons]
  have hnone : (line.drop seen).findIdx? (· == 10) = none :=
    List.idxOf?_eq_none_iff.mpr fun hmem => h (List.mem_of_mem_drop hmem)
  rw [find, htake, List.drop_append_of_le_length before, List.idxOf?, List.findIdx?_append, hnone,
    List.findIdx?_cons]
  simp only [beq_self_eq_true, if_true, Option.map_some, Option.none_or, List.length_drop,
    Option.some.injEq]
  omega

/-- Where a line feed is within reach, no more was looked at than the line before it. -/
theorem seen_le {line rest : Octets} {seen : Nat} (clean : 10 ∉ (line ++ 10 :: rest).take seen) :
    seen ≤ line.length := by
  by_contra hlt
  refine clean ?_
  rw [List.take_append]
  exact List.mem_append_right _ (by
    rw [show seen - line.length = (seen - line.length - 1) + 1 by omega, List.take_succ_cons]
    exact List.mem_cons_self)

theorem scan_of_none {buffer : Octets} {seen : Nat} (h : find buffer seen = none) :
    scan buffer seen = if lineLimit < buffer.length then ([], .overrun)
      else ([], .looking buffer (min (lineLimit + 1) buffer.length)) := by
  rw [scan]
  split
  · rename_i hsome
    rw [h] at hsome
    cases hsome
  · rfl

theorem scan_of_some {buffer : Octets} {seen n : Nat} (h : find buffer seen = some n) :
    scan buffer seen =
      (buffer.take n :: (scan (buffer.drop (n + 1)) 0).1, (scan (buffer.drop (n + 1)) 0).2) := by
  rw [scan]
  split
  · rename_i hsome
    rw [h] at hsome
    cases hsome
    rfl
  · rename_i hnone
    rw [h] at hnone
    cases hnone

/-- To scan a buffer is to cut it, if no line feed was skipped. -/
theorem scan_eq_cut (buffer : Octets) : ∀ seen, 10 ∉ buffer.take seen →
    scan buffer seen = ((Framer.cut buffer).1, ofFramer (Framer.cut buffer).2) := by
  fun_induction Framer.cut buffer with
  | case1 buffer line long =>
    intro seen _
    have hspan := List.takeWhile_append_dropWhile (p := (· ≠ (10 : UInt8))) (l := buffer)
    have hwindow : 10 ∉ buffer.take (lineLimit + 1) := by
      intro hmem
      rw [← hspan, List.take_append_of_le_length long] at hmem
      exact Framer.not_mem_takeWhile buffer (List.mem_of_mem_take hmem)
    have hlong : lineLimit < buffer.length :=
      Nat.lt_of_lt_of_le long (List.takeWhile_sublist _).length_le
    rw [scan_of_none (find_eq_none hwindow), if_pos hlong]
    rfl
  | case2 buffer line short hdrop =>
    intro seen _
    have hall : line = buffer := Framer.span_of_nil hdrop
    have hnone : 10 ∉ buffer := hall ▸ Framer.not_mem_takeWhile buffer
    rw [hall] at short ⊢
    rw [scan_of_none (find_eq_none fun hmem => hnone (List.mem_of_mem_take hmem)), if_neg short,
      Nat.min_eq_right (by omega)]
    rfl
  | case3 buffer line short b rest hdrop lines framer hrest ih =>
    intro seen clean
    have hbuffer : buffer = line ++ 10 :: rest := Framer.span_of_cons hdrop
    rw [hbuffer] at clean ⊢
    have hfind := find_line (Framer.not_mem_takeWhile buffer) (Nat.le_of_not_lt short) rest
      (seen_le clean)
    have hdrop : (line ++ 10 :: rest).drop (line.length + 1) = rest := by simp
    rw [scan_of_some hfind, hdrop, List.take_left, ih 0 (by simp), hrest]

/-! ## Connections -/

/-- A scanner that has looked at all that a framer keeps goes on as the framer does. -/
theorem receive_ofFramer {f : Framer} (h : ∀ u, f = .collecting u → Framer.Plain u)
    (segment : Octets) :
    (ofFramer f).receive segment = ((f.receive segment).1, ofFramer (f.receive segment).2) := by
  cases f with
  | overrun => rfl
  | collecting u =>
    have hclean : 10 ∉ (u ++ segment).take u.length := by
      rw [List.take_left]
      exact (h u rfl).1
    change receive (.looking u u.length) segment = _
    simp only [receive, Framer.receive, scan_eq_cut _ _ hclean, faults_ofFramer]

theorem feed_ofFramer {f : Framer} (h : ∀ u, f = .collecting u → Framer.Plain u)
    (segments : List Octets) :
    Framer.feed receive (ofFramer f) segments =
      ((Framer.feed Framer.receive f segments).1,
        ofFramer (Framer.feed Framer.receive f segments).2) := by
  induction segments generalizing f with
  | nil => rfl
  | cons segment segments ih =>
    have hnext : ∀ u, (f.receive segment).2 = .collecting u → Framer.Plain u := by
      intro u hu
      cases f with
      | overrun => cases hu
      | collecting v => exact Framer.plain_of_cut (Prod.ext rfl hu)
    simp only [Framer.feed, receive_ofFramer h, ih hnext]

/-- A scanner yields what the framer yields. -/
theorem yielded_eq (segments : List Octets) (ended : Bool) :
    start.yielded segments ended = Framer.start.yielded segments ended := by
  have hplain : ∀ u, Framer.start = .collecting u → Framer.Plain u := by
    intro u hu
    cases hu
    exact Framer.plain_nil
  have hfeed := feed_ofFramer hplain segments
  rw [yielded, Framer.yielded, show start = ofFramer Framer.start from rfl, hfeed]
  simp only [finish_ofFramer]

end Scanner

end Aerial
