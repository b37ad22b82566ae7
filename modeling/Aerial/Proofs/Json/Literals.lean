import Aerial.Proofs.Json.Skipping

/-! # Headings, flags and texts of any value

The readers of headings, flags and texts decide: every value is taken for what it says or is
refused. An integer literal of any number of digits is the heading of that value, or is refused if
there is none. The digits that do not fit 64 bits make it a double, never a smaller integer, and a
double is no heading. -/

namespace Aerial

theorem Degrees.ofInt?_eq_none {n : Int} (h : n < lowest ∨ highest < n) : ofInt? n = none := by
  refine dif_neg ?_
  omega

namespace Json

/-! ## Numbers that are no integers -/

namespace Number

/-- Whatever is read here, it is no integer. -/
def OnlyReal {α : Type} (x : Except ReadError (Number × α)) : Prop :=
  ∀ n rest, x = .ok (n, rest) → ∃ y, n = .real y

theorem assemble_real {negative : Bool} {significand : Nat} {e : Int} {n : Number}
    (h : assemble negative significand e = .ok n) : ∃ y, n = .real y := by
  obtain ⟨y, -, h⟩ := bind_eq_ok_iff.mp h
  cases h
  exact ⟨_, rfl⟩

theorem onlyReal_assemble {α : Type} (negative : Bool) (significand : Nat) (e : Int) (rest : α) :
    OnlyReal (do pure (← assemble negative significand e, rest)) := by
  intro n rest' h
  obtain ⟨m, hm, h⟩ := bind_eq_ok_iff.mp h
  cases h
  exact assemble_real hm

variable (negative : Bool) (significand : Nat) (e : Int) (s : Octets)

theorem onlyReal_readExponent : OnlyReal (readExponent negative significand e s) := by
  have hsigned : ∀ {sign : UInt8} (t : Octets), sign = 43 ∨ sign = 45 →
      OnlyReal (readExponent negative significand e (sign :: t)) := by
    intro sign t hsign n rest h
    rw [readExponent_signed _ _ _ hsign] at h
    split at h
    · cases h
    · obtain ⟨m, hm, h⟩ := bind_eq_ok_iff.mp h
      cases h
      exact assemble_real hm
  cases s with
  | nil =>
    intro n rest h
    cases h
  | cons c t =>
    by_cases hc : c = 43 ∨ c = 45
    · exact hsigned t hc
    · rw [readExponent_plus _ _ _ hc]
      exact hsigned (c :: t) (.inl rfl)

theorem onlyReal_readTail : OnlyReal (readTail negative significand e s) := by
  cases s with
  | nil => exact onlyReal_assemble negative significand e []
  | cons c s =>
    by_cases hc : c = 101 ∨ c = 69
    · rw [readTail_letter _ _ _ hc]
      exact onlyReal_readExponent negative significand e s
    · rw [readTail_other _ _ _ hc]
      exact onlyReal_assemble negative significand e (c :: s)

theorem onlyReal_readFraction : OnlyReal (readFraction negative significand e s) := by
  unfold readFraction
  dsimp only
  split
  · intro n rest h
    cases h
  · exact onlyReal_readTail _ _ _ _

/-- A point or an exponent makes a number a double. -/
theorem onlyReal_read {c : UInt8} (hc : c = 46 ∨ c = 101 ∨ c = 69) (n : Nat) :
    OnlyReal (read negative (Octets.ofNat n ++ c :: s)) := by
  have hdigit : Octets.isDigit c = false := by
    rcases hc with rfl | rfl | rfl <;> decide
  have hboundary : ∀ b ∈ (c :: s).head?, Octets.isDigit b = false := by
    intro b hb
    cases hb
    exact hdigit
  obtain ⟨htake, hdrop⟩ := Octets.span_exact (Octets.isDigit_of_mem_ofNat n) hboundary
  intro x rest h
  unfold read at h
  dsimp only at h
  rw [htake, hdrop] at h
  split at h
  · cases h
  · cases h
  · rcases hc with rfl | rfl | rfl
    · exact onlyReal_readFraction _ _ _ _ _ _ h
    · exact onlyReal_readTail _ _ _ _ _ _ h
    · exact onlyReal_readTail _ _ _ _ _ _ h

/-! ## Integers of any number of digits -/

/-- The digits of a number past 64 bits do not all go into the significand. -/
theorem absorb_ofNat_large {n : Nat} (h : UInt64.size ≤ n) (rest : Octets) :
    (absorb 0 (Octets.ofNat n ++ rest)).2 ≠ 0 := by
  induction n using Nat.strongRecOn generalizing rest with
  | ind n ih =>
    have hten : 10 ≤ n := Nat.le_trans (by decide) h
    rw [Octets.ofNat_of_le hten, List.append_assoc]
    by_cases hfront : n / 10 < UInt64.size
    · have hlast : n % 10 < 10 := Nat.mod_lt n (by decide)
      rw [absorb_ofNat _ _ hfront, Octets.ofNat_of_lt hlast, List.singleton_append]
      simp only [absorb, Octets.digit_toNat hlast]
      rw [if_neg (by omega)]
      simp
    · exact ih (n / 10) (by omega) (by omega) _

theorem onlyReal_read_large {n : Nat} (h : UInt64.size ≤ n) {rest : Octets}
    (hr : NumberStops rest) : OnlyReal (read negative (Octets.ofNat n ++ rest)) := by
  obtain ⟨htake, hdrop⟩ := span_ofNat n hr
  have habsorb := absorb_ofNat_large h []
  rw [List.append_nil] at habsorb
  intro x rest' hx
  unfold read at hx
  dsimp only at hx
  rw [htake, hdrop] at hx
  split at hx
  · cases hx
  · cases hx
  split at hx
  · exact onlyReal_readFraction _ _ _ _ _ _ hx
  · exact onlyReal_readTail _ _ _ _ _ _ hx
  · exact onlyReal_readTail _ _ _ _ _ _ hx
  · rw [if_neg habsorb] at hx
    exact onlyReal_readTail _ _ _ _ _ _ hx

end Number

/-- A heading, after the sign of its literal. -/
def readMagnitude (negative : Bool) (s : Octets) : Except ReadError (Degrees × Octets) := do
  let (n, rest) ← Number.read negative s
  pure (← degreesOf n, rest)

theorem readMagnitude_of_onlyReal {negative : Bool} {s : Octets}
    (h : Number.OnlyReal (Number.read negative s)) (rest : Octets) :
    Gives (readMagnitude negative s) rest none := by
  cases hread : Number.read negative s with
  | error e => exact .refuses (by rw [readMagnitude, hread]; rfl)
  | ok taken =>
    obtain ⟨n, rest'⟩ := taken
    obtain ⟨y, rfl⟩ := h n rest' hread
    exact .refuses (by rw [readMagnitude, hread]; rfl)

theorem gives_degreesOf (n : Int) (rest : Octets) :
    Gives (do pure (← degreesOf (.integer n), rest)) rest (Degrees.ofInt? n) := by
  cases hn : Degrees.ofInt? n with
  | none => exact .refuses (by simp only [degreesOf, hn]; rfl)
  | some a => exact .takes (by simp only [degreesOf, hn]; rfl)

/-- The value of a literal with this sign and these digits, unless it is minus zero. -/
def signed (negative : Bool) (n : Nat) : Option Int :=
  if negative then (if n = 0 then none else some (-n)) else some n

theorem ofInt?_signed_large (negative : Bool) {n : Nat} (h : 2147483648 < n) :
    (signed negative n).bind Degrees.ofInt? = none := by
  cases negative with
  | false => exact Degrees.ofInt?_eq_none (.inr (by simp only [Degrees.highest]; omega))
  | true =>
    simp only [signed, if_true, if_neg (show n ≠ 0 by omega)]
    exact Degrees.ofInt?_eq_none (.inl (by simp only [Degrees.lowest]; omega))

/-- An integer of at most 64 bits. Minus zero and what is below the signed integers are doubles. -/
theorem gives_readMagnitude_whole (negative : Bool) {n : Nat} (hn : n < UInt64.size)
    {rest : Octets} (hr : NumberStops rest) :
    Gives (readMagnitude negative (Octets.ofNat n ++ rest)) rest
      ((signed negative n).bind Degrees.ofInt?) := by
  have hsize : UInt64.size = 18446744073709551616 := rfl
  have hread := Number.read_ofNat negative hn hr
  have hwhole : ∀ {m : Int}, Number.whole negative n = .ok (.integer m) →
      Gives (readMagnitude negative (Octets.ofNat n ++ rest)) rest (Degrees.ofInt? m) := by
    intro m hm
    rw [readMagnitude, hread, hm]
    exact gives_degreesOf m rest
  cases negative with
  | false => exact hwhole rfl
  | true =>
    by_cases hsmall : 0 < n ∧ n * 2 ≤ UInt64.size
    · have hsigned : signed true n = some (-(n : Int)) := by
        simp only [signed, if_true, if_neg (show n ≠ 0 by omega)]
      rw [hsigned]
      exact hwhole (by simp [Number.whole, hsmall])
    · have hnone : (signed true n).bind Degrees.ofInt? = none := by
        by_cases hzero : n = 0
        · simp [signed, hzero]
        · exact ofInt?_signed_large true (by omega)
      rw [hnone]
      refine readMagnitude_of_onlyReal ?_ rest
      rw [hread]
      simp only [Number.whole, Bool.not_true, Bool.false_eq_true, if_false, if_neg hsmall]
      exact Number.onlyReal_assemble true n 0 rest

/-- An integer is the heading of its value, if there is one, however many digits it has. -/
theorem gives_readMagnitude (negative : Bool) (n : Nat) {rest : Octets} (hr : NumberStops rest) :
    Gives (readMagnitude negative (Octets.ofNat n ++ rest)) rest
      ((signed negative n).bind Degrees.ofInt?) := by
  by_cases hn : n < UInt64.size
  · exact gives_readMagnitude_whole negative hn hr
  · have hlarge : UInt64.size ≤ n := Nat.not_lt.mp hn
    rw [ofInt?_signed_large negative (Nat.lt_of_lt_of_le (by decide) hlarge)]
    exact readMagnitude_of_onlyReal (Number.onlyReal_read_large negative hlarge hr) rest

/-! ## Headings -/

theorem patient_readDegrees : Patient readDegrees := by
  intro g s hg
  rw [readDegrees, readDegrees, skipSpace_gap hg]

theorem readDegrees_sign (s : Octets) : readDegrees (45 :: s) = readMagnitude true s := by
  rw [readDegrees, skipSpace_cons (by decide)]
  rfl

theorem readDegrees_digit {d : UInt8} (hd : Octets.isDigit d = true) (s : Octets) :
    readDegrees (d :: s) = readMagnitude false (d :: s) := by
  have h45 : d ≠ 45 := by
    rintro rfl
    simp [Octets.isDigit] at hd
  rw [readDegrees, skipSpace_cons (isSpace_of_isDigit hd)]
  simp only [if_neg h45, hd, if_true]
  rfl

theorem readDegrees_ofNat (n : Nat) (s : Octets) :
    readDegrees (Octets.ofNat n ++ s) = readMagnitude false (Octets.ofNat n ++ s) := by
  obtain ⟨d, ds, hds, hd⟩ := ofNat_begins n
  rw [hds, List.cons_append, readDegrees_digit hd]

/-- What begins like no number is no heading. -/
theorem refuses_readDegrees {c : UInt8} {t : Octets} (hspace : isSpace c = false) (hsign : c ≠ 45)
    (hdigit : Octets.isDigit c = false) : Judges readDegrees (c :: t) none := by
  intro rest _
  rw [List.cons_append, readDegrees, skipSpace_cons hspace]
  simp only [if_neg hsign, hdigit, Bool.false_eq_true, if_false]
  exact .refuses rfl

theorem signed_succ (n : Nat) : signed true (n + 1) = some (Int.negSucc n) := by
  simp [signed, Int.negSucc_eq]

theorem judges_readDegrees_ofInt (n : Int) :
    Judges readDegrees (Octets.ofInt n) (Degrees.ofInt? n) := by
  intro rest hr
  cases n with
  | ofNat n =>
    rw [Octets.ofInt, readDegrees_ofNat]
    exact gives_readMagnitude false n hr
  | negSucc n =>
    rw [Octets.ofInt, List.cons_append, readDegrees_sign]
    have hgives := gives_readMagnitude true (n + 1) hr
    rwa [signed_succ, Option.bind_some] at hgives

theorem IsNumber.cases_tail {fraction exponent : Octets} (hfraction : IsFraction fraction)
    (hexponent : IsExponent exponent) : fraction ++ exponent = [] ∨
      ∃ c t, fraction ++ exponent = c :: t ∧ (c = 46 ∨ c = 101 ∨ c = 69) := by
  rcases hfraction with rfl | ⟨ds, -, rfl⟩
  · rcases hexponent with rfl | ⟨letter, sign, ds, hletter, -, -, rfl⟩
    · exact .inl rfl
    · exact .inr ⟨letter, _, rfl, .inr hletter⟩
  · exact .inr ⟨46, _, rfl, .inl rfl⟩

theorem judges_readDegrees_number {w : Octets} (h : IsNumber w) : ∃ o, Judges readDegrees w o := by
  obtain ⟨n, hsign, hfraction, hexponent⟩ := h
  have hdegrees : ∀ {sign : Octets}, sign = [] ∨ sign = [45] → ∃ negative, ∀ s,
      readDegrees (sign ++ (Octets.ofNat n ++ s))
        = readMagnitude negative (Octets.ofNat n ++ s) := by
    rintro sign (rfl | rfl)
    · exact ⟨false, readDegrees_ofNat n⟩
    · exact ⟨true, fun s => readDegrees_sign _⟩
  obtain ⟨negative, hread⟩ := hdegrees hsign
  rcases IsNumber.cases_tail hfraction hexponent with htail | ⟨c, t, htail, hc⟩
  · refine ⟨(signed negative n).bind Degrees.ofInt?, fun rest hr => ?_⟩
    rw [htail, List.append_assoc, List.append_assoc, hread]
    exact gives_readMagnitude negative n hr
  · refine ⟨none, fun rest _ => ?_⟩
    rw [htail, List.append_assoc, List.append_assoc, hread]
    exact readMagnitude_of_onlyReal (Number.onlyReal_read negative _ hc n) rest

theorem decides_readDegrees : Decides readDegrees := by
  intro v hv
  obtain ⟨c, t, rfl, hc⟩ := hv.heads
  by_cases hnumber : c = 45 ∨ Octets.isDigit c = true
  · exact judges_readDegrees_number (hc.number hnumber)
  · obtain ⟨hsign, hdigit⟩ := not_or.mp hnumber
    exact ⟨none, refuses_readDegrees hc.item.1 hsign (by simpa using hdigit)⟩

/-! ## Headings or nothing -/

theorem patient_readDegrees? : Patient readDegrees? := by
  intro g s hg
  rw [readDegrees?, readDegrees?, skipSpace_gap hg]

theorem readDegrees?_other {c : UInt8} (hspace : isSpace c = false) (hnull : c ≠ 110)
    (s : Octets) : readDegrees? (c :: s) = (do
      let (a, rest) ← readDegrees (c :: s)
      pure (some a, rest)) := by
  rw [readDegrees?, skipSpace_cons hspace]
  split
  · rename_i heq
    exact absurd (List.cons.inj heq).1 hnull
  · rfl

theorem judges_readDegrees?_other {w : Octets} {o : Option Degrees} (h : Judges readDegrees w o)
    (hbegin : ∃ c t, w = c :: t ∧ isSpace c = false ∧ c ≠ 110) :
    Judges readDegrees? w (o.map some) := by
  obtain ⟨c, t, rfl, hspace, hnull⟩ := hbegin
  intro rest hr
  rw [List.cons_append, readDegrees?_other hspace hnull]
  exact h.map some rest hr

theorem judges_readDegrees?_ofInt (n : Int) :
    Judges readDegrees? (Octets.ofInt n) ((Degrees.ofInt? n).map some) := by
  obtain ⟨c, t, htext, hc⟩ := (isNumber_ofInt n).begins
  have hspace := (Heads.of_number (isNumber_ofInt n) hc).item.1
  have hnull : c ≠ 110 := begins_ne hc 110 (by simp)
  exact judges_readDegrees?_other (judges_readDegrees_ofInt n) ⟨c, t, htext, hspace, hnull⟩

theorem spells_null : Spells readDegrees? writeNull none := by
  intro rest _
  rw [writeNull_eq, List.cons_append, readDegrees?, skipSpace_cons (by decide)]
  simp only [spell_append]
  rfl

theorem decides_readDegrees? : Decides readDegrees? := by
  intro v hv
  obtain ⟨c, t, rfl, hc⟩ := hv.heads
  by_cases hnull : c = 110
  · rw [hc.null hnull]
    exact ⟨some none, judges_of_spells spells_null⟩
  · obtain ⟨o, ho⟩ := decides_readDegrees _ hv
    exact ⟨_, judges_readDegrees?_other ho ⟨c, t, rfl, hc.item.1, hnull⟩⟩

/-! ## Flags and texts -/

theorem patient_readFlag : Patient readFlag := by
  intro g s hg
  rw [readFlag, readFlag, skipSpace_gap hg]

theorem spells_flag (b : Bool) : Spells readFlag (writeFlag b) b :=
  fun rest _ => readFlag_writeFlag b rest

theorem decides_readFlag : Decides readFlag := by
  intro v hv
  obtain ⟨c, t, rfl, hc⟩ := hv.heads
  by_cases hflag : c = 116 ∨ c = 102
  · obtain ⟨b, hb⟩ := hc.flag hflag
    rw [hb]
    exact ⟨some b, judges_of_spells (spells_flag b)⟩
  · obtain ⟨htrue, hfalse⟩ := not_or.mp hflag
    refine ⟨none, fun rest _ => ?_⟩
    rw [List.cons_append, readFlag, skipSpace_cons hc.item.1]
    split
    · rename_i heq
      exact absurd (List.cons.inj heq).1 htrue
    · rename_i heq
      exact absurd (List.cons.inj heq).1 hfalse
    · exact .refuses rfl

theorem decides_readText : Decides readText := by
  intro v hv
  obtain ⟨c, t, rfl, hc⟩ := hv.heads
  by_cases hquote : c = 34
  · exact judges_readText_quoted (hc.text hquote)
  · refine ⟨none, fun rest _ => ?_⟩
    rw [List.cons_append, readText, skipSpace_cons hc.item.1]
    split
    · rename_i heq
      exact absurd (List.cons.inj heq).1 hquote
    · exact .refuses rfl

end Json

end Aerial
