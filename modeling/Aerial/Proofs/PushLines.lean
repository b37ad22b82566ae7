import Aerial.Proofs.Json.Scalars
import Aerial.Notice

/-! # Push lines can be read back

A field of a push line has no fixed width, and nothing says how long it is: below zero it has a sign
and above 999 more digits. But a field ends at the first byte that is no digit, and that is either the
plus sign of the next field or the end of the line. So a reader that knows no widths finds both
headings in every line, whatever comes after it, and line by line all of them in a stream. The
padding only makes lines longer than they would be. -/

namespace Aerial

/-- Where a status says that the axes are. -/
def Status.headings (s : Status) : PerAxis Degrees := s.pointing.map Pointing.heading

namespace PushLine

/-! ## A reader -/

/-- The number that some digits spell, leading zeros or not. -/
def magnitude (digits : Octets) : Nat := digits.foldl (fun n d => n * 10 + (d.toNat - 48)) 0

/-- Some digits, which spell a heading on this side of zero, and what follows them. -/
def readDigits (below : Bool) (s : Octets) : Option (Degrees × Octets) :=
  let n : Int := magnitude (s.takeWhile Octets.isDigit)
  (Degrees.ofInt? (if below then -n else n)).map (·, s.dropWhile Octets.isDigit)

/-- A field and what follows it. -/
def readField : Octets → Option (Degrees × Octets)
  | 43 :: 48 :: 45 :: s => readDigits true s
  | 43 :: 48 :: s => readDigits false s
  | _ => none

/-- What follows the end of a line. -/
def readEnd : Octets → Option Octets
  | 13 :: 10 :: s => some s
  | _ => none

/-- A line and what follows it. -/
def readLine (s : Octets) : Option (PerAxis Degrees × Octets) := do
  let (azimuth, s) ← readField s
  let (elevation, s) ← readField s
  let s ← readEnd s
  pure (⟨azimuth, elevation⟩, s)

theorem length_readDigits {below : Bool} {s rest : Octets} {a : Degrees}
    (h : readDigits below s = some (a, rest)) : rest.length ≤ s.length := by
  obtain ⟨b, -, hb⟩ := Option.map_eq_some_iff.mp h
  cases hb
  exact (List.dropWhile_sublist _).length_le

theorem length_readField {s rest : Octets} {a : Degrees}
    (h : readField s = some (a, rest)) : rest.length < s.length := by
  unfold readField at h
  split at h
  · have := length_readDigits h
    simp only [List.length_cons]
    omega
  · have := length_readDigits h
    simp only [List.length_cons]
    omega
  · cases h

theorem length_readEnd {s rest : Octets} (h : readEnd s = some rest) : rest.length < s.length := by
  unfold readEnd at h
  split at h
  · cases h
    simp only [List.length_cons]
    omega
  · cases h

theorem length_readLine {s rest : Octets} {headings : PerAxis Degrees}
    (h : readLine s = some (headings, rest)) : rest.length < s.length := by
  simp only [readLine, Option.bind_eq_bind, Option.bind_eq_some_iff] at h
  obtain ⟨⟨azimuth, t⟩, hazimuth, ⟨elevation, u⟩, helevation, v, hend, hv⟩ := h
  cases hv
  calc rest.length
      < u.length := length_readEnd hend
    _ < t.length := length_readField helevation
    _ < s.length := length_readField hazimuth

/-- All lines of a stream; nothing unless it ends with a line. -/
def readLines (s : Octets) : Option (List (PerAxis Degrees)) :=
  if s = [] then some []
  else
    match _h : readLine s with
    | some (headings, rest) => (readLines rest).map (headings :: ·)
    | none => none
termination_by s.length
decreasing_by exact length_readLine _h

/-! ## Digits -/

theorem magnitude_append (ds es : Octets) :
    magnitude (ds ++ es) = es.foldl (fun n d => n * 10 + (d.toNat - 48)) (magnitude ds) :=
  List.foldl_append

theorem magnitude_ofNat (n : Nat) : magnitude (Octets.ofNat n) = n := by
  induction n using Nat.strongRecOn with
  | ind n ih =>
    by_cases hn : n < 10
    · rw [Octets.ofNat_of_lt hn]
      simp only [magnitude, List.foldl_cons, List.foldl_nil, Octets.digit_toNat hn]
      omega
    · rw [Octets.ofNat_of_le (by omega), magnitude_append, ih (n / 10) (by omega),
        Octets.ofNat_of_lt (by omega)]
      simp only [List.foldl_cons, List.foldl_nil, Octets.digit_toNat (show n % 10 < 10 by omega)]
      omega

theorem magnitude_zeros (k : Nat) : magnitude (List.replicate k 48) = 0 := by
  induction k with
  | zero => rfl
  | succ k ih => exact ih

/-- The padding does not count. -/
theorem magnitude_threeDigits (n : Nat) : magnitude (threeDigits n) = n := by
  rw [threeDigits, magnitude_append, magnitude_zeros]
  exact magnitude_ofNat n

theorem isDigit_of_mem_threeDigits (n : Nat) : ∀ b ∈ threeDigits n, Octets.isDigit b = true := by
  intro b hb
  rcases List.mem_append.mp hb with hb | hb
  · rw [List.eq_of_mem_replicate hb]
    decide
  · exact Octets.isDigit_of_mem_ofNat n b hb

theorem length_ofNat (n : Nat) : (Octets.ofNat n).length = (Nat.toDigits 10 n).length := by
  induction n using Nat.strongRecOn with
  | ind n ih =>
    by_cases hn : n < 10
    · rw [Octets.ofNat_of_lt hn, Nat.toDigits_of_lt_base hn]
      rfl
    · rw [Octets.ofNat_of_le (by omega), Nat.toDigits_of_base_le (by decide) (by omega),
        Octets.ofNat_of_lt (n := n % 10) (by omega), List.length_append, List.length_append,
        ih (n / 10) (by omega)]
      rfl

theorem length_threeDigits (n : Nat) :
    3 ≤ (threeDigits n).length ∧ ((threeDigits n).length = 3 ↔ n < 1000) := by
  have hlong : (Nat.toDigits 10 n).length ≤ 3 ↔ n < 1000 :=
    Nat.length_toDigits_le_iff (by decide) (by decide)
  rw [← length_ofNat] at hlong
  simp only [threeDigits, List.length_append, List.length_replicate]
  omega

theorem isDigit_of_head {n : Nat} {rest : Octets} {b : UInt8}
    (h : b ∈ (threeDigits n ++ rest).head?) : Octets.isDigit b = true := by
  have hlength := (length_threeDigits n).1
  obtain ⟨d, ds, hds⟩ := List.exists_cons_of_length_pos (l := threeDigits n) (by omega)
  rw [hds] at h
  cases h
  exact isDigit_of_mem_threeDigits n b (hds ▸ List.mem_cons_self)

/-! ## Fields -/

theorem length_field (a : Degrees) :
    5 ≤ (field a).length ∧ ((field a).length = 5 ↔ 0 ≤ a.val ∧ a.val ≤ 999) := by
  obtain ⟨hleast, hthree⟩ := length_threeDigits a.val.natAbs
  simp only [field, heading, List.length_cons]
  split
  · simp only [List.length_cons]
    omega
  · omega

/-- A field is made of signs and digits. -/
theorem mem_field {a : Degrees} {b : UInt8} (h : b ∈ field a) :
    b = 43 ∨ b = 45 ∨ Octets.isDigit b = true := by
  simp only [field, heading, List.mem_cons] at h
  obtain rfl | rfl | h := h
  · exact .inl rfl
  · exact .inr (.inr rfl)
  split at h
  · obtain rfl | h := List.mem_cons.mp h
    · exact .inr (.inl rfl)
    · exact .inr (.inr (isDigit_of_mem_threeDigits _ b h))
  · exact .inr (.inr (isDigit_of_mem_threeDigits _ b h))

/-- Neither byte of the line end stands in a field. -/
theorem not_mem_field {a : Degrees} {b : UInt8} (h : b = 13 ∨ b = 10) : b ∉ field a := by
  intro hb
  have hbyte := mem_field hb
  obtain rfl | rfl := h
  · revert hbyte
    decide
  · revert hbyte
    decide

theorem length_pushLine (s : Status) : s.pushLine.length =
    (field s.pointing.azimuth.heading).length + (field s.pointing.elevation.heading).length + 2 := by
  simp only [Status.pushLine, List.length_append, List.length_cons, List.length_nil]

/-! ## Reading what was written -/

theorem readDigits_append (below : Bool) (n : Nat) {rest : Octets}
    (boundary : ∀ b ∈ rest.head?, Octets.isDigit b = false) :
    readDigits below (threeDigits n ++ rest) =
      (Degrees.ofInt? (if below then -(n : Int) else n)).map (·, rest) := by
  obtain ⟨htake, hdrop⟩ := Octets.span_exact (isDigit_of_mem_threeDigits n) boundary
  rw [readDigits, htake, hdrop, magnitude_threeDigits]

theorem readField_unsigned {s : Octets} (h : ∀ b ∈ s.head?, b ≠ 45) :
    readField (43 :: 48 :: s) = readDigits false s := by
  unfold readField
  split
  · rename_i heq
    cases heq
    exact absurd rfl (h 45 rfl)
  · rename_i heq
    cases heq
    rfl
  · rename_i hother
    exact absurd rfl (hother s)

theorem readField_append (a : Degrees) {rest : Octets}
    (boundary : ∀ b ∈ rest.head?, Octets.isDigit b = false) :
    readField (field a ++ rest) = some (a, rest) := by
  by_cases hneg : a.val < 0
  · have hvalue : -(a.val.natAbs : Int) = a.val := by omega
    rw [field, heading, if_pos hneg]
    refine (readDigits_append true a.val.natAbs boundary).trans ?_
    rw [if_pos rfl, hvalue, Degrees.ofInt?_val]
    rfl
  · have hvalue : (a.val.natAbs : Int) = a.val := by omega
    rw [field, heading, if_neg hneg]
    refine (readField_unsigned ?_).trans ((readDigits_append false a.val.natAbs boundary).trans ?_)
    · intro b hb hminus
      have hdigit := isDigit_of_head hb
      rw [hminus] at hdigit
      cases hdigit
    · rw [if_neg (by simp), hvalue, Degrees.ofInt?_val]
      rfl

theorem readEnd_append (rest : Octets) : readEnd ([13, 10] ++ rest) = some rest := rfl

/-- A line tells both headings, whatever comes after it. -/
theorem readLine_append (s : Status) (rest : Octets) :
    readLine (s.pushLine ++ rest) = some (s.headings, rest) := by
  have hline : s.pushLine ++ rest = field s.pointing.azimuth.heading ++
      (field s.pointing.elevation.heading ++ ([13, 10] ++ rest)) := by
    rw [Status.pushLine, List.append_assoc, List.append_assoc]
  have hazimuth := @readField_append s.pointing.azimuth.heading
    (field s.pointing.elevation.heading ++ ([13, 10] ++ rest)) (by
      intro b hb
      cases hb
      decide)
  have helevation := @readField_append s.pointing.elevation.heading ([13, 10] ++ rest) (by
    intro b hb
    cases hb
    decide)
  simp only [readLine, hline, hazimuth, helevation, readEnd_append, Option.bind_eq_bind,
    Option.bind_some]
  rfl

theorem line_ne_nil (s : Status) : s.pushLine ≠ [] := by
  simp [Status.pushLine]

theorem readLines_flatMap (ss : List Status) :
    readLines (ss.flatMap Status.pushLine) = some (ss.map Status.headings) := by
  induction ss with
  | nil =>
    rw [List.flatMap_nil, readLines]
    rfl
  | cons s ss ih =>
    have hsome : s.pushLine ++ ss.flatMap Status.pushLine ≠ [] :=
      List.append_ne_nil_of_left_ne_nil (line_ne_nil s) _
    rw [List.flatMap_cons, readLines, if_neg hsome]
    split
    · rename_i heq
      rw [readLine_append] at heq
      cases heq
      rw [ih]
      rfl
    · rename_i heq
      rw [readLine_append] at heq
      cases heq

end PushLine

open PushLine

/-- The push line tells where the axes are and nothing else. Two lines are equal exactly if the
headings are, and the reader finds the headings of a line, whatever comes after it, and those of any
stream of lines in their order. A line has carriage return and line feed as its last two bytes and
nowhere else, and it has twelve bytes or more: twelve exactly if both headings are between 0 and
999. -/
theorem pushLine_unambiguous (s : Status) :
    (∀ t : Status, s.pushLine = t.pushLine ↔
      s.pointing.azimuth.heading = t.pointing.azimuth.heading ∧
        s.pointing.elevation.heading = t.pointing.elevation.heading) ∧
    (∀ rest, readLine (s.pushLine ++ rest) =
      some (⟨s.pointing.azimuth.heading, s.pointing.elevation.heading⟩, rest)) ∧
    (∀ ss : List Status, readLines (ss.flatMap Status.pushLine) = some (ss.map Status.headings)) ∧
    (∃ body, s.pushLine = body ++ [13, 10] ∧ 13 ∉ body ∧ 10 ∉ body) ∧
    12 ≤ s.pushLine.length ∧
    (s.pushLine.length = 12 ↔ ∀ axis,
      0 ≤ (s.pointing.get axis).heading.val ∧ (s.pointing.get axis).heading.val ≤ 999) := by
  have hazimuth := length_field s.pointing.azimuth.heading
  have helevation := length_field s.pointing.elevation.heading
  refine ⟨fun t => ⟨fun h => ?_, fun h => ?_⟩, readLine_append s, readLines_flatMap,
    ⟨_, rfl, ?_, ?_⟩, ?_, ?_⟩
  · have hs := readLine_append s []
    rw [h, readLine_append t []] at hs
    simpa [Status.headings, PerAxis.map, eq_comm] using hs
  · rw [Status.pushLine, h.1, h.2, ← Status.pushLine]
  · simp [not_mem_field]
  · simp [not_mem_field]
  · rw [length_pushLine]
    omega
  · rw [length_pushLine]
    constructor
    · intro h axis
      cases axis with
      | azimuth => exact hazimuth.2.mp (by omega)
      | elevation => exact helevation.2.mp (by omega)
    · intro h
      have hshort := hazimuth.2.mpr (h .azimuth)
      have hshort' := helevation.2.mpr (h .elevation)
      omega

/-- The lowest heading keeps all its digits. -/
example : (Status.pushLine ⟨"", true, ⟨⟨.clamp Degrees.lowest, 0⟩, ⟨7, 0⟩⟩⟩) =
    Octets.ofString "+0-2147483648+0007\r\n" := by decide

end Aerial
