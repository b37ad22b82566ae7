import Aerial.Json.Scalar
import Aerial.Json.Lexeme

/-! # Scalars are read back as they were written

Every scalar reader inverts the writer of its kind and leaves what follows. A
number alone needs to know what follows, since more digits would continue it:
`NumberStops` says that nothing in the rest belongs to a number before it. A
string is followed through its escapes byte by byte, whatever its bytes are, and
only at its end is it asked to be UTF-8. -/

namespace Aerial

theorem Degrees.natAbs_val_le (a : Degrees) : a.val.natAbs ≤ 2147483648 := by
  have hlo := a.ge_lowest
  have hhi := a.le_highest
  simp only [lowest, highest] at hlo hhi
  omega

/-! ## Decimal digits -/

namespace Octets

theorem ofNat_of_lt {n : Nat} (h : n < 10) : ofNat n = [UInt8.ofNat (48 + n)] := by
  have all : ∀ d < 10, String.utf8EncodeChar (Nat.digitChar d) = [UInt8.ofNat (48 + d)] := by decide
  simp [ofNat, ofChars, Nat.toDigits_of_lt_base h, all n h]

theorem ofNat_of_le {n : Nat} (h : 10 ≤ n) : ofNat n = ofNat (n / 10) ++ ofNat (n % 10) := by
  simp only [ofNat, ofChars]
  rw [Nat.toDigits_of_base_le (by decide) h, List.flatMap_append,
    Nat.toDigits_of_lt_base (Nat.mod_lt n (by decide))]

theorem digit_toNat {n : Nat} (h : n < 10) : (UInt8.ofNat (48 + n)).toNat = 48 + n :=
  UInt8.toNat_ofNat_of_lt' (by simp only [UInt8.size]; omega)

theorem isDigit_of_mem_ofNat (n : Nat) : ∀ b ∈ ofNat n, isDigit b = true := by
  induction n using Nat.strongRecOn with
  | ind n ih =>
    intro b hb
    by_cases h : n < 10
    · rw [ofNat_of_lt h, List.mem_singleton] at hb
      subst hb
      simp only [isDigit, UInt8.le_iff_toNat_le, digit_toNat h, UInt8.reduceToNat, Bool.and_eq_true,
        decide_eq_true_eq]
      omega
    · rw [ofNat_of_le (by omega), List.mem_append] at hb
      rcases hb with hb | hb
      · exact ih _ (by omega) b hb
      · exact ih _ (by omega) b hb

/-- There are digits, and only zero itself begins with the digit zero. -/
theorem ofNat_eq_cons (n : Nat) : ∃ d ds, ofNat n = d :: ds ∧ (d = 48 → ds = [] ∧ n = 0) := by
  induction n using Nat.strongRecOn with
  | ind n ih =>
    by_cases h : n < 10
    · refine ⟨_, _, ofNat_of_lt h, fun hd => ⟨rfl, ?_⟩⟩
      have := congrArg UInt8.toNat hd
      rw [digit_toNat h] at this
      simpa using this
    · obtain ⟨d, ds, hds, hz⟩ := ih (n / 10) (by omega)
      refine ⟨d, ds ++ ofNat (n % 10), by rw [ofNat_of_le (by omega), hds, List.cons_append], ?_⟩
      intro hd
      have := (hz hd).2
      omega

end Octets

namespace Json

/-! ## Numbers -/

/-- What may follow a number that has been read to its end. -/
def NumberStops (rest : Octets) : Prop :=
  ∀ c ∈ rest.head?, Octets.isDigit c = false ∧ c ≠ 46 ∧ c ≠ 101 ∧ c ≠ 69

namespace Number

theorem absorb_ofNat (n : Nat) (rest : Octets) (h : n < UInt64.size) :
    absorb 0 (Octets.ofNat n ++ rest) = absorb n rest := by
  induction n using Nat.strongRecOn generalizing rest with
  | ind n ih =>
    by_cases hn : n < 10
    · rw [Octets.ofNat_of_lt hn, List.singleton_append]
      simp only [absorb, Octets.digit_toNat hn]
      rw [if_pos (by omega)]
      congr 1
      omega
    · rw [Octets.ofNat_of_le (by omega), List.append_assoc, ih (n / 10) (by omega) _ (by omega),
        Octets.ofNat_of_lt (by omega), List.singleton_append]
      simp only [absorb, Octets.digit_toNat (show n % 10 < 10 by omega)]
      rw [if_pos (by omega)]
      congr 1
      omega

theorem span_ofNat (n : Nat) {rest : Octets} (hr : NumberStops rest) :
    (Octets.ofNat n ++ rest).takeWhile Octets.isDigit = Octets.ofNat n ∧
      (Octets.ofNat n ++ rest).dropWhile Octets.isDigit = rest :=
  Octets.span_exact (Octets.isDigit_of_mem_ofNat n) fun c hc => (hr c hc).1

theorem read_ofNat (negative : Bool) {n : Nat} {rest : Octets} (h : n < UInt64.size)
    (hr : NumberStops rest) :
    read negative (Octets.ofNat n ++ rest) = (do pure (← whole negative n, rest)) := by
  obtain ⟨htake, hdrop⟩ := span_ofNat n hr
  have habsorb : absorb 0 (Octets.ofNat n) = (n, 0) := by
    have := absorb_ofNat n [] h
    rwa [List.append_nil] at this
  obtain ⟨d, ds, hds, hz⟩ := Octets.ofNat_eq_cons n
  simp only [read, htake, hdrop]
  rw [hds] at habsorb ⊢
  split
  · contradiction
  · rename_i heq
    obtain ⟨rfl, rfl⟩ := List.cons.inj heq
    have := (hz rfl).1
    contradiction
  · rw [habsorb]
    split
    · have := hr 46 rfl; simp at this
    · have := hr 101 rfl; simp at this
    · have := hr 69 rfl; simp at this
    · rfl

theorem whole_true {n : Nat} (h : (n + 1) * 2 ≤ UInt64.size) :
    whole true (n + 1) = .ok (.integer (-(n + 1 : Nat))) := by
  simp [whole, h]

end Number

theorem skipSpace_cons {c : UInt8} (h : isSpace c = false) (s : Octets) :
    skipSpace (c :: s) = c :: s := by
  simp [skipSpace, h]

theorem isSpace_of_isDigit {c : UInt8} (h : Octets.isDigit c = true) : isSpace c = false := by
  simp only [Octets.isDigit, UInt8.le_iff_toNat_le, UInt8.reduceToNat, Bool.and_eq_true,
    decide_eq_true_eq] at h
  simp only [isSpace, Bool.or_eq_false_iff, decide_eq_false_iff_not]
  refine ⟨⟨⟨?_, ?_⟩, ?_⟩, ?_⟩ <;> (rintro rfl; simp at h)

theorem degreesOf_val (a : Degrees) : degreesOf (.integer a.val) = .ok a := by
  simp [degreesOf, Degrees.ofInt?_val]

theorem readDegrees_digits {a : Degrees} {d : UInt8} {s rest : Octets}
    (hd : Octets.isDigit d = true)
    (h : Number.read false (d :: s) = .ok (.integer a.val, rest)) :
    readDegrees (d :: s) = .ok (a, rest) := by
  have h45 : d ≠ 45 := by rintro rfl; simp [Octets.isDigit] at hd
  rw [readDegrees, skipSpace_cons (isSpace_of_isDigit hd)]
  simp only [if_neg h45, hd, if_true, h]
  simp only [bind, Except.bind, pure, Except.pure, degreesOf_val]

theorem readDegrees_minus {a : Degrees} {s rest : Octets}
    (h : Number.read true s = .ok (.integer a.val, rest)) :
    readDegrees (45 :: s) = .ok (a, rest) := by
  rw [readDegrees, skipSpace_cons (by decide)]
  simp only [if_true, h]
  simp only [bind, Except.bind, pure, Except.pure, degreesOf_val]

theorem readDegrees_ofInt (a : Degrees) {rest : Octets} (hr : NumberStops rest) :
    readDegrees (Octets.ofInt a.val ++ rest) = .ok (a, rest) := by
  have hsize := a.natAbs_val_le
  cases hn : a.val with
  | ofNat n =>
    rw [hn, Int.natAbs_ofNat'] at hsize
    have hread := Number.read_ofNat false (n := n) (by simp only [UInt64.size]; omega) hr
    obtain ⟨d, ds, hds, _⟩ := Octets.ofNat_eq_cons n
    have hd : Octets.isDigit d = true := Octets.isDigit_of_mem_ofNat n d (by rw [hds]; simp)
    have hval : Number.integer a.val = .integer n := by rw [hn]; rfl
    simp only [Octets.ofInt, hds, List.cons_append] at hread ⊢
    apply readDegrees_digits hd
    rw [hread, hval]
    rfl
  | negSucc n =>
    rw [hn, Int.natAbs_negSucc] at hsize
    have hread := Number.read_ofNat true (n := n + 1) (by simp only [UInt64.size]; omega) hr
    rw [Number.whole_true (by simp only [UInt64.size]; omega)] at hread
    -- the kernel must not unfold `degreesOf` at an open negative number
    have hval : Number.integer a.val = .integer (-(n + 1 : Nat)) := by rw [hn]; rfl
    simp only [Octets.ofInt, List.cons_append]
    apply readDegrees_minus
    rw [hread, hval]
    rfl

/-! ## Strings -/

theorem hexDigit?_lowerHex : ∀ n < 16, hexDigit? (lowerHex n) = some n := by decide

namespace Text

theorem bytesOf_control : ∀ n < 32, bytesOf n = [UInt8.ofNat n] := by decide

theorem unit_control {b : UInt8} (h : b.toNat < 32) : unit none b.toNat = .ok ([b], .plain) := by
  have htrail : isTrail b.toNat = false := by simp [isTrail]; omega
  have hlead : isLead b.toNat = false := by simp [isLead]; omega
  simp only [unit, htrail, hlead, Bool.false_eq_true, if_false, bytesOf_control _ h,
    UInt8.ofNat_toNat]

/-- A control byte is read back from its four-digit escape. -/
theorem scan_hex {b : UInt8} (h : b.toNat < 32) (s : Octets) :
    scan .plain (92 :: 117 :: 48 :: 48 :: lowerHex (b.toNat / 16) :: lowerHex (b.toNat % 16) :: s)
      = (do let (t, rest) ← scan .plain s; pure (b :: t, rest)) := by
  have hhigh := hexDigit?_lowerHex (b.toNat / 16) (by omega)
  have hlow := hexDigit?_lowerHex (b.toNat % 16) (by omega)
  have hzero : hexDigit? 48 = some 0 := by decide
  have hvalue : (0 * 16 + b.toNat / 16) * 16 + b.toNat % 16 = b.toNat := by omega
  have hescape : ∀ rest, scan .plain (92 :: 117 :: rest) = scan (.hex none 0 0) rest :=
    fun rest => by simp [scan]
  rw [hescape]
  simp only [scan, hzero, hhigh, hlow, Nat.reduceLT, if_true, if_false, Nat.reduceAdd,
    Nat.lt_irrefl]
  rw [show 0 * 16 + 0 = 0 from rfl, hvalue, unit_control h]
  rfl

theorem scan_escapeByte (b : UInt8) (s : Octets) :
    scan .plain (escapeByte b ++ s) = (do let (t, rest) ← scan .plain s; pure (b :: t, rest)) := by
  unfold escapeByte
  split
  · subst b; rfl
  split
  · subst b; rfl
  split
  · subst b; rfl
  split
  · subst b; rfl
  split
  · subst b; rfl
  split
  · subst b; rfl
  split
  · subst b; rfl
  split
  · rename_i h
    exact scan_hex (by simpa using UInt8.lt_iff_toNat_lt.mp h) s
  · rename_i h34 h92 _ _ _ _ _ hcontrol
    simp only [List.singleton_append, scan, if_neg h34, if_neg h92, if_neg hcontrol]

theorem scan_written (bs rest : Octets) :
    scan .plain (bs.flatMap escapeByte ++ 34 :: rest) = .ok (bs, rest) := by
  induction bs with
  | nil => simp [scan]
  | cons b bs ih =>
    rw [List.flatMap_cons, List.append_assoc, scan_escapeByte, ih]
    rfl

theorem read_written (t : String) (rest : Octets) :
    read ((Octets.ofString t).flatMap escapeByte ++ 34 :: rest) = .ok (t, rest) := by
  simp only [read, scan_written, bind, Except.bind, pure, Except.pure, Octets.text?_ofString]

end Text

theorem writeText_append (t : String) (rest : Octets) :
    writeText t ++ rest = 34 :: ((Octets.ofString t).flatMap escapeByte ++ 34 :: rest) := by
  simp [writeText]

theorem readText_writeText (t : String) (rest : Octets) :
    readText (writeText t ++ rest) = .ok (t, rest) := by
  rw [writeText_append, readText, skipSpace_cons (by decide)]
  exact Text.read_written t rest

/-! ## Literals -/

theorem spell_append (word rest : Octets) : spell word (word ++ rest) = .ok rest := by
  induction word with
  | nil => rfl
  | cons w word ih => simpa [spell] using ih

theorem readFlag_writeFlag (b : Bool) (rest : Octets) :
    readFlag (writeFlag b ++ rest) = .ok (b, rest) := by
  cases b with
  | true =>
    rw [show writeFlag true = 116 :: rue by decide, List.cons_append, readFlag,
      skipSpace_cons (by decide)]
    simp only [spell_append]
    rfl
  | false =>
    rw [show writeFlag false = 102 :: alse by decide, List.cons_append, readFlag,
      skipSpace_cons (by decide)]
    simp only [spell_append]
    rfl

end Json

end Aerial
