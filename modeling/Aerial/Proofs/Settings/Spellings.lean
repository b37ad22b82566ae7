import Aerial.Settings.Environment
import Mathlib.Data.List.Forall2
import Mathlib.Data.List.Induction

/-! # How a value is spelled

A value may be spelled in more than one way: a word in any letter case, a number with a sign that
changes nothing or with zeros before its digits. What follows says which texts spell which value
without asking a reader, by way of what a printer of the value could have written. Each reader of
the settings is then shown to find a value in exactly the texts that spell it, up to the limits of
the type: it misses no spelling, and it reads nothing into other texts. -/

namespace Aerial

/-! ## Bytes and texts -/

/-- Bytes are the text that they encode, and no other bytes are. -/
theorem Octets.text?_eq_some_iff (b : Octets) (t : String) : b.text? = some t ↔ b = ofString t := by
  constructor
  · intro h
    simp only [text?, String.fromUTF8?, Option.dite_none_right_eq_some, Option.some.injEq] at h
    obtain ⟨hvalid, rfl⟩ := h
    exact List.toByteArray_inj.mp (String.utf8Encode_toList (b := String.fromUTF8 _ hvalid)).symm
  · rintro rfl
    exact text?_ofString t

theorem Environment.text?_eq_some_iff (env : Environment) (name t : String) :
    env.text? name = some t ↔ env name = some (Octets.ofString t) := by
  simp only [text?, Option.bind_eq_some_iff, Octets.text?_eq_some_iff, exists_eq_right]

namespace Settings

/-! ## Spellings -/

/-- Decimal digits of a number, with zeros before them or not. -/
def SpellsDigits (n : Nat) (cs : List Char) : Prop :=
  ∃ zeros, cs = List.replicate zeros '0' ++ Nat.toDigits 10 n

/-- Decimal digits, with a plus sign before them or not. -/
inductive SpellsNatural (n : Nat) : List Char → Prop where
  | bare {cs : List Char} (digits : SpellsDigits n cs) : SpellsNatural n cs
  | plus {cs : List Char} (digits : SpellsDigits n cs) : SpellsNatural n ('+' :: cs)

inductive SpellsInteger : Int → List Char → Prop where
  | natural {n : Nat} {cs : List Char} (spelled : SpellsNatural n cs) : SpellsInteger n cs
  | minus {n : Nat} {cs : List Char} (digits : SpellsDigits n cs) : SpellsInteger (-n) ('-' :: cs)

/-- A word whose letters may each be small or capital. -/
def AnyCase (word cs : List Char) : Prop := List.Forall₂ (fun c d => d = c ∨ d = c.toUpper) word cs

inductive SpellsFlag : Bool → List Char → Prop where
  | yes {cs : List Char} (word : AnyCase ['t', 'r', 'u', 'e'] cs) : SpellsFlag true cs
  | one : SpellsFlag true ['1']
  | no {cs : List Char} (word : AnyCase ['f', 'a', 'l', 's', 'e'] cs) : SpellsFlag false cs
  | zero : SpellsFlag false ['0']

/-! ## Digits -/

theorem isDigit_iff {c : Char} : c.isDigit = true ↔ 48 ≤ c.toNat ∧ c.toNat ≤ 57 :=
  Char.isDigit_iff_toNat

theorem digitChar_of_isDigit {c : Char} (h : c.isDigit = true) :
    c.toNat - 48 < 10 ∧ (c.toNat - 48).digitChar = c := by
  obtain ⟨hlow, hhigh⟩ := isDigit_iff.mp h
  have hten : c.toNat - 48 < 10 := by omega
  refine ⟨hten, Char.toNat_inj.mp ?_⟩
  rw [Nat.toNat_digitChar_of_lt_ten hten]
  omega

/-- One digit more. Only zeros stay zeros: the first digit that is not zero begins the digits
proper. -/
theorem SpellsDigits.concat {n d : Nat} {cs : List Char} (h : SpellsDigits n cs) (hd : d < 10) :
    SpellsDigits (10 * n + d) (cs ++ [d.digitChar]) := by
  obtain ⟨zeros, rfl⟩ := h
  rcases Nat.eq_zero_or_pos n with rfl | hpos
  · refine ⟨zeros + 1, ?_⟩
    rw [Nat.mul_zero, Nat.zero_add, Nat.toDigits_of_lt_base hd, Nat.toDigits_zero,
      ← List.replicate_append_replicate]
    rfl
  · refine ⟨zeros, ?_⟩
    rw [List.append_assoc, ← Nat.toDigits_of_lt_base hd,
      Nat.toDigits_append_toDigits (by decide) hpos hd]

theorem spellsDigits_ofDigitChars {cs : List Char} (hsome : cs ≠ [])
    (hdigits : ∀ c ∈ cs, c.isDigit = true) : SpellsDigits (Nat.ofDigitChars 10 cs 0) cs := by
  induction cs using List.reverseRecOn with
  | nil => exact absurd rfl hsome
  | append_singleton cs c ih =>
    obtain ⟨hten, hchar⟩ := digitChar_of_isDigit (hdigits c (by simp))
    have hzero : '0'.toNat = 48 := rfl
    rw [Nat.ofDigitChars_append, Nat.ofDigitChars_cons, Nat.ofDigitChars_nil, hzero]
    by_cases hfirst : cs = []
    · subst hfirst
      refine ⟨0, ?_⟩
      rw [Nat.ofDigitChars_nil, Nat.mul_zero, Nat.zero_add, Nat.toDigits_of_lt_base hten, hchar]
      rfl
    · have hspelled := ih hfirst fun c hc => hdigits c (List.mem_append_left _ hc)
      have hmore := hspelled.concat hten
      rwa [hchar] at hmore

theorem SpellsDigits.isDigit {n : Nat} {cs : List Char} (h : SpellsDigits n cs) :
    ∀ c ∈ cs, c.isDigit = true := by
  obtain ⟨zeros, rfl⟩ := h
  intro c hc
  rcases List.mem_append.mp hc with hc | hc
  · rw [List.eq_of_mem_replicate hc]
    rfl
  · exact Nat.isDigit_of_mem_toDigits (by decide) (by decide) hc

theorem digits?_eq_some_iff (cs : List Char) (n : Nat) : digits? cs = some n ↔ SpellsDigits n cs := by
  constructor
  · intro h
    simp only [digits?, Option.ite_none_right_eq_some, List.all_eq_true, Option.some.injEq] at h
    obtain ⟨⟨hsome, hdigits⟩, rfl⟩ := h
    exact spellsDigits_ofDigitChars hsome hdigits
  · intro h
    have hdigits := h.isDigit
    obtain ⟨zeros, rfl⟩ := h
    rw [digits?, if_pos ⟨by simp, List.all_eq_true.mpr hdigits⟩, Nat.ofDigitChars_append,
      Nat.ofDigitChars_replicate_zero, Nat.mul_zero, Nat.ofDigitChars_ten_toDigits]

/-- A sign is no digit. -/
theorem SpellsDigits.head_ne {n : Nat} {cs : List Char} (h : SpellsDigits n cs) {c : Char}
    (hc : c.isDigit = false) (rest : List Char) : cs ≠ c :: rest := by
  rintro rfl
  have hdigit := h.isDigit c List.mem_cons_self
  rw [hc] at hdigit
  cases hdigit

/-! ## Readers and spellings -/

theorem natural?_eq_some_iff (s : String) (n : Nat) :
    natural? s = some n ↔ SpellsNatural n s.toList := by
  unfold natural?
  split
  · rename_i cs hplus
    rw [digits?_eq_some_iff, hplus]
    refine ⟨.plus, ?_⟩
    rintro (hbare | hplus)
    · exact absurd rfl (hbare.head_ne (by decide) cs)
    · exact hplus
  · rename_i hplus
    rw [digits?_eq_some_iff]
    refine ⟨.bare, fun h => ?_⟩
    generalize s.toList = cs at h hplus
    cases h with
    | bare hbare => exact hbare
    | plus _ => exact absurd rfl (hplus _)

theorem integer?_eq_some_iff (s : String) (n : Int) :
    integer? s = some n ↔ SpellsInteger n s.toList := by
  unfold integer?
  split
  · rename_i cs hminus
    simp only [Option.map_eq_some_iff, Option.bind_eq_bind, Option.bind_eq_some_iff,
      Option.pure_def, Option.some.injEq, digits?_eq_some_iff, hminus]
    constructor
    · rintro ⟨_, ⟨m, hm, rfl⟩, rfl⟩
      exact .minus hm
    · intro h
      cases h with
      | natural hnatural =>
        cases hnatural with
        | bare hbare => exact absurd rfl (hbare.head_ne (by decide) cs)
      | minus hdigits => exact ⟨_, ⟨_, hdigits, rfl⟩, rfl⟩
  · rename_i hminus
    simp only [Option.map_eq_some_iff, Option.bind_eq_bind, Option.bind_eq_some_iff,
      Option.pure_def, Option.some.injEq, natural?_eq_some_iff]
    constructor
    · rintro ⟨_, ⟨m, hm, rfl⟩, rfl⟩
      exact .natural hm
    · intro h
      generalize s.toList = cs at h hminus
      cases h with
      | natural hnatural => exact ⟨_, ⟨_, hnatural, rfl⟩, rfl⟩
      | minus _ => exact absurd rfl (hminus _)

theorem word16?_eq_some_iff (s : String) (w : UInt16) :
    word16? s = some w ↔ SpellsNatural w.toNat s.toList := by
  rw [← natural?_eq_some_iff, word16?, Option.bind_eq_some_iff]
  constructor
  · rintro ⟨n, hn, hw⟩
    split at hw
    · rename_i hlt
      cases hw
      rw [UInt16.toNat_ofNat_of_lt' hlt, hn]
    · cases hw
  · intro h
    exact ⟨_, h, by rw [if_pos w.toNat_lt, UInt16.ofNat_toNat]⟩

theorem word64?_eq_some_iff (s : String) (w : UInt64) :
    word64? s = some w ↔ SpellsNatural w.toNat s.toList := by
  rw [← natural?_eq_some_iff, word64?, Option.bind_eq_some_iff]
  constructor
  · rintro ⟨n, hn, hw⟩
    split at hw
    · rename_i hlt
      cases hw
      rw [UInt64.toNat_ofNat_of_lt' hlt, hn]
    · cases hw
  · intro h
    exact ⟨_, h, by rw [if_pos w.toNat_lt, UInt64.ofNat_toNat]⟩

theorem degrees?_eq_some_iff (s : String) (a : Degrees) :
    degrees? s = some a ↔ SpellsInteger a.val s.toList := by
  rw [← integer?_eq_some_iff, degrees?, Option.bind_eq_some_iff]
  constructor
  · rintro ⟨n, hn, ha⟩
    simp only [Degrees.ofInt?, Option.dite_none_right_eq_some, Option.some.injEq] at ha
    obtain ⟨hrange, rfl⟩ := ha
    exact hn
  · intro h
    exact ⟨_, h, Degrees.ofInt?_val a⟩

/-! ## Letters -/

theorem toNat_toLower (c : Char) :
    c.toLower.toNat = if 65 ≤ c.toNat ∧ c.toNat ≤ 90 then c.toNat + 32 else c.toNat := by
  have hupper : (c.val ≥ 'A'.val ∧ c.val ≤ 'Z'.val) ↔ 65 ≤ c.toNat ∧ c.toNat ≤ 90 := by
    rw [ge_iff_le, UInt32.le_iff_toNat_le, UInt32.le_iff_toNat_le]
    rfl
  unfold Char.toLower
  split
  · rename_i h
    rw [if_pos (hupper.mp h), Char.toNat_mk, UInt32.toNat_add, Char.toNat_val]
    have := hupper.mp h
    have hdist : ('a'.val - 'A'.val).toNat = 32 := rfl
    rw [hdist]
    omega
  · rename_i h
    rw [if_neg (fun hc => h (hupper.mpr hc))]

theorem toNat_toUpper (c : Char) :
    c.toUpper.toNat = if 97 ≤ c.toNat ∧ c.toNat ≤ 122 then c.toNat - 32 else c.toNat := by
  have hlower : ('a'.val ≤ c.val ∧ c.val ≤ 'z'.val) ↔ 97 ≤ c.toNat ∧ c.toNat ≤ 122 := by
    rw [UInt32.le_iff_toNat_le, UInt32.le_iff_toNat_le]
    rfl
  unfold Char.toUpper
  split
  · rename_i h
    rw [if_pos (hlower.mp h), Char.toNat_mk, UInt32.toNat_add, Char.toNat_val]
    have := hlower.mp h
    have hdist : ('A'.val - 'a'.val).toNat = 2 ^ 32 - 32 := rfl
    rw [hdist]
    omega
  · rename_i h
    rw [if_neg (fun hc => h (hlower.mpr hc))]

theorem isUpper_eq_false_iff {c : Char} : c.isUpper = false ↔ ¬ (65 ≤ c.toNat ∧ c.toNat ≤ 90) := by
  change decide ('A'.val ≤ c.val ∧ c.val ≤ 'Z'.val) = false ↔ _
  rw [decide_eq_false_iff_not, UInt32.le_iff_toNat_le, UInt32.le_iff_toNat_le]
  rfl

theorem toLower_eq_iff {c : Char} (hc : c.isUpper = false) (d : Char) :
    d.toLower = c ↔ d = c ∨ d = c.toUpper := by
  rw [isUpper_eq_false_iff] at hc
  simp only [← Char.toNat_inj, toNat_toLower, toNat_toUpper]
  split <;> split <;> omega

theorem anyCase_iff {word : List Char} (hword : ∀ c ∈ word, c.isUpper = false) (cs : List Char) :
    AnyCase word cs ↔ cs.map Char.toLower = word := by
  induction word generalizing cs with
  | nil => simp [AnyCase]
  | cons c word ih =>
    cases cs with
    | nil => simp [AnyCase]
    | cons d cs =>
      have hrest := ih (fun c hc => hword c (List.mem_cons_of_mem _ hc)) cs
      rw [AnyCase] at hrest
      rw [AnyCase, List.forall₂_cons, hrest, List.map_cons, List.cons.injEq,
        toLower_eq_iff (hword c List.mem_cons_self)]

/-- A digit has one form only. -/
theorem map_toLower_eq_digit {c : Char} (hc : c.isDigit = true) (cs : List Char) :
    cs.map Char.toLower = [c] ↔ cs = [c] := by
  obtain ⟨hlow, hhigh⟩ := isDigit_iff.mp hc
  have hupper : c.isUpper = false := isUpper_eq_false_iff.mpr (by omega)
  have hsame : c.toUpper = c := Char.toNat_inj.mp (by rw [toNat_toUpper, if_neg (by omega)])
  simp only [List.map_eq_singleton_iff, toLower_eq_iff hupper, hsame, or_self, exists_eq_right]

theorem flag?_eq_some_iff (s : String) (b : Bool) : flag? s = some b ↔ SpellsFlag b s.toList := by
  have htrue := @anyCase_iff ['t', 'r', 'u', 'e'] (by simp) s.toList
  have hfalse := @anyCase_iff ['f', 'a', 'l', 's', 'e'] (by simp) s.toList
  have hone := @map_toLower_eq_digit '1' rfl s.toList
  have hzero := @map_toLower_eq_digit '0' rfl s.toList
  unfold flag?
  constructor
  · intro h
    dsimp only at h
    split at h
    · rename_i hyes
      cases h
      exact hyes.elim (fun h => .yes (htrue.mpr h)) (fun h => hone.mp h ▸ .one)
    split at h
    · rename_i hno
      cases h
      exact hno.elim (fun h => .no (hfalse.mpr h)) (fun h => hzero.mp h ▸ .zero)
    · cases h
  · intro h
    generalize s.toList = cs at h htrue hfalse
    cases h with
    | yes h => simp only [htrue.mp h, true_or, if_true]
    | one => rfl
    | no h =>
      simp only [hfalse.mp h]
      rfl
    | zero => rfl

end Settings

end Aerial
