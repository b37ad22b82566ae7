/-! # Octets

What travels between the station and its clients is a list of bytes. Text
becomes bytes by UTF-8, and numbers by their decimal digits. -/

namespace Aerial

abbrev Octets := List UInt8

namespace Octets

def ofChars (cs : List Char) : Octets := cs.flatMap String.utf8EncodeChar

def ofString (s : String) : Octets := ofChars s.toList

/-- The text these bytes encode; `none` unless they are well-formed UTF-8. -/
def text? (b : Octets) : Option String := String.fromUTF8? b.toByteArray

theorem text?_ofString (s : String) : (ofString s).text? = some s := by
  have h : (s.toList.flatMap String.utf8EncodeChar).toByteArray = s.toByteArray := by
    rw [← String.utf8Encode_toList]
    rfl
  simp only [ofString, ofChars, text?, String.fromUTF8?, h]
  rw [dif_pos s.isValidUTF8]
  rfl

/-- The decimal digits of a natural number, most significant first. -/
def ofNat (n : Nat) : Octets := ofChars (Nat.toDigits 10 n)

/-- A number in decimal, with a minus sign below zero. -/
def ofInt : Int → Octets
  | .ofNat n => ofNat n
  | .negSucc n => 45 :: ofNat (n + 1)

/-- Space, tab, line feed, form feed and carriage return. -/
def isBlank (b : UInt8) : Bool := b = 32 || b = 9 || b = 10 || b = 12 || b = 13

def isDigit (b : UInt8) : Bool := 48 ≤ b && b ≤ 57

/-- A run of bytes goes on to the first byte of another kind. -/
theorem span_exact {p : UInt8 → Bool} {run rest : Octets} (inside : ∀ b ∈ run, p b = true)
    (boundary : ∀ b ∈ rest.head?, p b = false) :
    (run ++ rest).takeWhile p = run ∧ (run ++ rest).dropWhile p = rest := by
  rw [List.takeWhile_append_of_pos inside, List.dropWhile_append_of_pos inside]
  cases rest with
  | nil => simp
  | cons b rest => simp [boundary b rfl]

/-- A run of bytes that something else has ended does not go on after it. -/
theorem span_append {p : UInt8 → Bool} {s : Octets} (ended : s.dropWhile p ≠ []) (more : Octets) :
    (s ++ more).takeWhile p = s.takeWhile p ∧ (s ++ more).dropWhile p = s.dropWhile p ++ more := by
  have hlength : (s.takeWhile p).length ≠ s.length := by
    intro hlength
    have hspan := congrArg List.length (List.takeWhile_append_dropWhile (p := p) (l := s))
    rw [List.length_append, hlength] at hspan
    exact ended (List.eq_nil_of_length_eq_zero (by omega))
  rw [List.takeWhile_append, if_neg hlength, List.dropWhile_append, if_neg (by simpa using ended)]
  exact ⟨rfl, rfl⟩

end Octets

end Aerial
