import Aerial.Proofs.Framing.Segments

/-! # What a line connection amounts to

Line feeds cut the bytes of a connection into pieces. Every piece but the last is a line, and
the last is one when the connection has ended, unless it is empty. A piece that is too long is
a fault wherever it stands, and nothing after it counts. `expected` says this of all bytes at
once, and the framer yields just that, whatever the segments were. -/

namespace Aerial.Framer

/-- What stands between the line feeds. After the last piece there is none. -/
def pieces (bytes : Octets) : List Octets := bytes.splitOn 10

def Overlong (bytes : Octets) : Prop := ∃ piece ∈ pieces bytes, lineLimit < piece.length

instance (bytes : Octets) : Decidable (Overlong bytes) :=
  inferInstanceAs (Decidable (∃ piece ∈ pieces bytes, lineLimit < piece.length))

/-- The lines of a connection before anything that is too long. -/
def accepted (bytes : Octets) (ended : Bool) : List Octets :=
  if Overlong bytes then (pieces bytes).takeWhile (·.length ≤ lineLimit)
  else if ended ∧ (pieces bytes).getLast? ≠ some [] then pieces bytes
  else (pieces bytes).dropLast

/-- All items of a connection, ended or not. -/
def expected (bytes : Octets) (ended : Bool) : List Item :=
  (accepted bytes ended).map .line
    ++ if Overlong bytes then [.fault (.lineTooLong lineLimit)] else []

/-! ## Pieces -/

theorem pieces_ne_nil (bytes : Octets) : pieces bytes ≠ [] := List.splitOn_ne_nil 10 bytes

theorem pieces_of_nil {bytes : Octets} (hdrop : bytes.dropWhile (· ≠ 10) = []) :
    pieces bytes = [bytes] :=
  List.splitOn_eq_singleton (span_of_nil hdrop ▸ not_mem_takeWhile bytes)

/-- The first line feed is what a line ends at. -/
theorem span_of_cons {bytes rest : Octets} {b : UInt8}
    (hdrop : bytes.dropWhile (· ≠ 10) = b :: rest) :
    bytes = bytes.takeWhile (· ≠ 10) ++ 10 :: rest := by
  have hfeed : b = 10 := by
    have hhead := List.head_dropWhile_not (· ≠ (10 : UInt8)) (l := bytes) (by rw [hdrop]; simp)
    simp only [hdrop, List.head_cons] at hhead
    simpa using hhead
  conv => lhs; rw [← List.takeWhile_append_dropWhile (p := (· ≠ (10 : UInt8))) (l := bytes)]
  rw [hdrop, hfeed]

theorem pieces_of_cons {bytes rest : Octets} {b : UInt8}
    (hdrop : bytes.dropWhile (· ≠ 10) = b :: rest) :
    pieces bytes = bytes.takeWhile (· ≠ 10) :: pieces rest := by
  conv => lhs; rw [pieces, span_of_cons hdrop]
  exact List.splitOn_append_cons_self_of_not_mem (not_mem_takeWhile bytes) rest

section

variable {bytes line rest : Octets} {more : List Octets}

theorem overlong_cons (h : pieces bytes = line :: pieces rest) (short : line.length ≤ lineLimit) :
    Overlong bytes ↔ Overlong rest := by
  simp only [Overlong, h, List.exists_mem_cons_iff, Nat.not_lt.mpr short, false_or]

/-- A line that is not too long comes before what the rest amounts to. -/
theorem expected_cons (h : pieces bytes = line :: pieces rest) (short : line.length ≤ lineLimit)
    (ended : Bool) : expected bytes ended = .line line :: expected rest ended := by
  have haccepted : accepted bytes ended = line :: accepted rest ended := by
    simp only [accepted, h, overlong_cons h short]
    split
    · rw [List.takeWhile_cons_of_pos (by simpa using short)]
    · rw [List.getLast?_cons_of_ne_nil (pieces_ne_nil rest),
        List.dropLast_cons_of_ne_nil (pieces_ne_nil rest)]
      split <;> rfl
  simp only [expected, haccepted, overlong_cons h short, List.map_cons, List.cons_append]

theorem expected_of_long (h : pieces bytes = line :: more) (long : lineLimit < line.length)
    (ended : Bool) : expected bytes ended = [.fault (.lineTooLong lineLimit)] := by
  have hover : Overlong bytes := ⟨line, by simp [h], long⟩
  have hnone : (pieces bytes).takeWhile (·.length ≤ lineLimit) = [] := by
    rw [h, List.takeWhile_cons_of_neg (by simpa using long)]
  rw [expected, accepted, if_pos hover, if_pos hover, hnone]
  rfl

theorem expected_unfinished (h : pieces bytes = [bytes]) (short : bytes.length ≤ lineLimit)
    (ended : Bool) :
    expected bytes ended = if ended then (collecting bytes).finish else [] := by
  have hover : ¬Overlong bytes := by simpa [Overlong, h] using short
  rw [expected, accepted, if_neg hover, if_neg hover, h]
  cases ended <;> cases bytes <;> simp [finish]

end

/-! ## Lines that were sent -/

theorem pieces_line {line : Octets} (h : 10 ∉ line) (rest : Octets) :
    pieces (line ++ 10 :: rest) = line :: pieces rest :=
  List.splitOn_append_cons_self_of_not_mem h rest

theorem pieces_unfinished {line : Octets} (h : 10 ∉ line) : pieces line = [line] :=
  List.splitOn_eq_singleton h

/-- Plain lines come before what the rest amounts to. -/
theorem expected_terminated {lines : List Octets} (h : ∀ line ∈ lines, Plain line)
    (rest : Octets) (ended : Bool) :
    expected (terminated lines ++ rest) ended = lines.map .line ++ expected rest ended := by
  induction lines with
  | nil => rfl
  | cons line lines ih =>
    have hline := h line List.mem_cons_self
    have hpieces := pieces_line hline.1 (terminated lines ++ rest)
    rw [terminated_cons, List.append_assoc, List.cons_append, expected_cons hpieces hline.2,
      ih fun l hl => h l (List.mem_cons_of_mem line hl), List.map_cons, List.cons_append]

/-- What comes of a line of some length. -/
def verdict (line : Octets) : Item :=
  if line.length ≤ 4096 then .line line else .fault (.lineTooLong 4096)

/-- A line that has arrived with its line feed is judged by its length. -/
theorem expected_line {line : Octets} (h : 10 ∉ line) (ended : Bool) :
    expected (line ++ [10]) ended = [verdict line] := by
  have hpieces := pieces_line h []
  by_cases short : line.length ≤ 4096
  · have hnil := expected_unfinished (pieces_unfinished List.not_mem_nil) (Nat.zero_le _) ended
    rw [expected_cons hpieces short, hnil, verdict, if_pos short]
    cases ended <;> rfl
  · rw [expected_of_long hpieces (Nat.lt_of_not_le short), verdict, if_neg short]
    rfl

/-- Without its line feed it is judged as soon as it is too long, or when the connection has
ended. -/
theorem expected_begun {line : Octets} (h : 10 ∉ line) (ended : Bool) :
    expected line ended =
      if 4096 < line.length ∨ (ended ∧ line ≠ []) then [verdict line] else [] := by
  have hpieces := pieces_unfinished h
  by_cases short : line.length ≤ 4096
  · rw [expected_unfinished hpieces short, verdict, if_pos short]
    simp only [Nat.not_lt.mpr short, false_or]
    cases ended <;> cases line <;> simp [finish]
  · rw [expected_of_long hpieces (Nat.lt_of_not_le short), verdict, if_neg short,
      if_pos (.inl (Nat.lt_of_not_le short))]
    rfl

/-! ## Yields -/

/-- Hands segments over one by one. -/
def feed {σ : Type} (receive : σ → Octets → List Item × σ) : σ → List Octets → List Item × σ
  | f, [] => ([], f)
  | f, segment :: segments =>
    let (now, f) := receive f segment
    let (later, f) := feed receive f segments
    (now ++ later, f)

/-- What segments bring, with the end of the connection or without it. -/
def yielded (f : Framer) (segments : List Octets) (ended : Bool) : List Item :=
  (feed receive f segments).1 ++ if ended then (feed receive f segments).2.finish else []

theorem items_eq_yielded (f : Framer) (segments : List Octets) :
    f.items segments = f.yielded segments true := by
  induction segments generalizing f with
  | nil => rfl
  | cons segment segments ih =>
    simp only [items, ih, yielded, feed, if_true, List.append_assoc]

theorem feed_overrun (segments : List Octets) : feed receive overrun segments = ([], overrun) := by
  induction segments with
  | nil => rfl
  | cons segment segments ih => simp only [feed, receive, ih, List.append_nil]

/-- The framer goes on from a plain rest as if all had come at once. -/
theorem feed_eq_cut {u : Octets} (h : Plain u) (segments : List Octets) :
    feed receive (collecting u) segments =
      ((cut (u ++ segments.flatten)).1.map .line ++ (cut (u ++ segments.flatten)).2.faults,
        (cut (u ++ segments.flatten)).2) := by
  induction segments generalizing u with
  | nil => simp [feed, cut_plain h, faults]
  | cons segment segments ih =>
    rw [List.flatten_cons, ← List.append_assoc, cut_append, feed, receive]
    cases hcut : cut (u ++ segment) with
    | mk lines framer =>
      cases framer with
      | overrun => simp [feed_overrun, faults]
      | collecting v =>
        dsimp only
        rw [ih (plain_of_cut hcut)]
        simp [faults]

/-- To cut all bytes at once yields what is expected of them. -/
theorem cut_expected (bytes : Octets) (ended : Bool) :
    (cut bytes).1.map .line ++ (cut bytes).2.faults ++ (if ended then (cut bytes).2.finish else [])
      = expected bytes ended := by
  fun_induction cut bytes with
  | case1 bytes line long =>
    cases hdrop : bytes.dropWhile (· ≠ 10) with
    | nil =>
      rw [expected_of_long (pieces_of_nil hdrop) (by rwa [← span_of_nil hdrop])]
      cases ended <;> rfl
    | cons b rest =>
      rw [expected_of_long (pieces_of_cons hdrop) long]
      cases ended <;> rfl
  | case2 bytes line short hdrop =>
    have hall : line = bytes := span_of_nil hdrop
    rw [hall] at short ⊢
    rw [expected_unfinished (pieces_of_nil hdrop) (Nat.le_of_not_lt short)]
    rfl
  | case3 bytes line short b rest hdrop lines framer hrest ih =>
    rw [expected_cons (pieces_of_cons hdrop) (Nat.le_of_not_lt short), ← ih, hrest]
    rfl

/-- Segments do not matter: what they yield is what all the bytes amount to. -/
theorem yielded_eq_expected (segments : List Octets) (ended : Bool) :
    start.yielded segments ended = expected segments.flatten ended := by
  rw [yielded, start, feed_eq_cut plain_nil, List.nil_append]
  exact cut_expected segments.flatten ended

/-- The piece after the last line feed, unless it is empty, is a line too when the connection
ends. -/
theorem items_terminated {lines : List Octets} (h : ∀ line ∈ lines, Plain line) {w : Octets}
    (hw : Plain w) {segments : List Octets} (all : segments.flatten = terminated lines ++ w) :
    start.items segments = lines.map .line ++ if w = [] then [] else [.line w] := by
  rw [items_eq_yielded, yielded_eq_expected, all, expected_terminated h,
    expected_unfinished (pieces_unfinished hw.1) hw.2]
  cases w <;> rfl

end Aerial.Framer
