import Aerial.Proofs.Json.Verdicts

/-! # Strings in any spelling

A string is read as the text it spells, whichever spelling each of its characters has: the bytes
of a character are put together from itself, from its letter, from four digits, or from eight. A
string that spells no text, since a surrogate stands alone or its bytes are not UTF-8, is refused.
Only its own bytes decide, up to its closing quote. -/

namespace Aerial.Json

/-! ## Spelled digits and letters -/

theorem hexDigit?_of_spellsDigit {n : Nat} {b : UInt8} (h : SpellsDigit n b) :
    hexDigit? b = some n := by
  have hupper : ∀ n < 16, hexDigit? (upperHex n) = some n := by decide
  obtain ⟨hn, rfl | rfl⟩ := h
  · exact hexDigit?_lowerHex n hn
  · exact hupper n hn

theorem simpleEscape?_of_mem {letter : UInt8} {code : Nat} (h : (letter, code) ∈ shortEscapes) :
    letter ≠ 117 ∧ simpleEscape? letter = some (UInt8.ofNat code) ∧ code < 128 := by
  have hall : ∀ p ∈ shortEscapes,
      p.1 ≠ 117 ∧ simpleEscape? p.1 = some (UInt8.ofNat p.2) ∧ p.2 < 128 := by decide
  exact hall _ h

/-- The bytes of a character are itself, if it is ASCII, and no ASCII characters otherwise. -/
theorem byte_of_utf8EncodeChar {c : Char} {b : UInt8} (h : b ∈ String.utf8EncodeChar c) :
    b.toNat = c.toNat ∨ 128 ≤ b.toNat := by
  have hval : c.val.toNat = c.toNat := rfl
  simp only [String.utf8EncodeChar, hval] at h
  split at h
  · rw [List.mem_singleton] at h
    rw [h, UInt8.toNat_ofNat']
    omega
  right
  split at h
  · simp only [List.mem_cons, List.not_mem_nil, or_false] at h
    rcases h with rfl | rfl <;> (rw [UInt8.toNat_ofNat']; omega)
  split at h
  · simp only [List.mem_cons, List.not_mem_nil, or_false] at h
    rcases h with rfl | rfl | rfl <;> (rw [UInt8.toNat_ofNat']; omega)
  · simp only [List.mem_cons, List.not_mem_nil, or_false] at h
    rcases h with rfl | rfl | rfl | rfl <;> (rw [UInt8.toNat_ofNat']; omega)

theorem utf8EncodeChar_ascii {c : Char} (h : c.toNat < 128) :
    String.utf8EncodeChar c = [UInt8.ofNat c.toNat] := by
  have hval : c.val.toNat = c.toNat := rfl
  simp only [String.utf8EncodeChar, hval]
  rw [if_pos (by omega)]

/-- A byte that may stand in a string as itself. -/
def IsPlain (b : UInt8) : Prop := 32 ≤ b ∧ b ≠ 34 ∧ b ≠ 92

theorem isPlain_of_mem {c : Char} (hprintable : 32 ≤ c.toNat) (hquote : c.toNat ≠ 34)
    (hbackslash : c.toNat ≠ 92) {b : UInt8} (h : b ∈ String.utf8EncodeChar c) : IsPlain b := by
  have hb := byte_of_utf8EncodeChar h
  refine ⟨UInt8.le_iff_toNat_le.mpr ?_, ?_, ?_⟩
  · simp only [UInt8.reduceToNat]
    omega
  · rintro rfl
    simp only [UInt8.reduceToNat] at hb
    omega
  · rintro rfl
    simp only [UInt8.reduceToNat] at hb
    omega

/-! ## Strings that spell a text -/

namespace Text

/-- In a string, the text `w` stands for these bytes. -/
def Stands (w bytes : Octets) : Prop :=
  ∀ s, scan .plain (w ++ s) = (do let (t, rest) ← scan .plain s; pure (bytes ++ t, rest))

theorem stands_plain {w : Octets} (h : ∀ b ∈ w, IsPlain b) : Stands w w := by
  intro s
  induction w with
  | nil =>
    rw [List.nil_append]
    cases scan .plain s <;> rfl
  | cons b w ih =>
    obtain ⟨hprintable, hquote, hbackslash⟩ := h b List.mem_cons_self
    rw [List.cons_append, scan, if_neg hquote, if_neg hbackslash,
      if_neg (UInt8.not_lt.mpr hprintable), ih fun x hx => h x (List.mem_cons_of_mem b hx)]
    cases scan .plain s <;> rfl

theorem stands_short {letter : UInt8} {code : Nat} (h : (letter, code) ∈ shortEscapes) :
    Stands [92, letter] [UInt8.ofNat code] := by
  intro s
  obtain ⟨hletter, hescape, -⟩ := simpleEscape?_of_mem h
  simp only [List.cons_append, List.nil_append, scan, if_neg (show (92 : UInt8) ≠ 34 by decide),
    if_true, if_neg hletter, hescape]

/-- Four digits of an escape are taken together. -/
theorem scan_digits {i j k l : Nat} {a b c d : UInt8} (hi : SpellsDigit i a)
    (hj : SpellsDigit j b) (hk : SpellsDigit k c) (hl : SpellsDigit l d) (lead : Option Nat)
    (s : Octets) :
    scan (.hex lead 0 0) (a :: b :: c :: d :: s) = (do
      let (bytes, phase) ← unit lead (((i * 16 + j) * 16 + k) * 16 + l)
      let (t, rest) ← scan phase s
      pure (bytes ++ t, rest)) := by
  simp only [scan, hexDigit?_of_spellsDigit hi, hexDigit?_of_spellsDigit hj,
    hexDigit?_of_spellsDigit hk, hexDigit?_of_spellsDigit hl, Nat.reduceLT, if_true, Nat.reduceAdd,
    Nat.lt_irrefl, if_false, Nat.zero_mul, Nat.zero_add]

/-- The phases between two characters, with the first half of a pair that waits for its second. -/
inductive Between : Phase → Option Nat → Prop
  | plain : Between .plain none
  | lead (high : Nat) : Between (.lead high) (some high)

theorem scan_unit {phase : Phase} {lead : Option Nat} (hphase : Between phase lead) {n : Nat}
    {u : Octets} (h : SpellsUnit n u) (s : Octets) :
    scan phase (u ++ s) = (do
      let (bytes, phase) ← unit lead n
      let (t, rest) ← scan phase s
      pure (bytes ++ t, rest)) := by
  obtain ⟨hi, hj, hk, hl⟩ := h
  rw [← scan_digits hi hj hk hl]
  cases hphase with
  | plain => simp [scan]
  | lead high => simp [scan]

theorem between_of_unit {lead : Option Nat} {n : Nat} {bytes : Octets} {phase : Phase}
    (h : unit lead n = .ok (bytes, phase)) : ∃ lead, Between phase lead := by
  have hphase : phase = .plain ∨ phase = .lead n := by
    unfold unit at h
    grind
  rcases hphase with rfl | rfl
  · exact ⟨_, .plain⟩
  · exact ⟨_, .lead n⟩

/-- No character is a surrogate. -/
theorem unit_char (c : Char) : unit none c.toNat = .ok (String.utf8EncodeChar c, .plain) := by
  have hvalid : c.toNat < 0xD800 ∨ 0xDFFF < c.toNat ∧ c.toNat < 0x110000 := c.valid
  have htrail : isTrail c.toNat = false := by
    simp only [isTrail, Bool.and_eq_false_iff, decide_eq_false_iff_not]
    omega
  have hlead : isLead c.toNat = false := by
    simp only [isLead, Bool.and_eq_false_iff, decide_eq_false_iff_not]
    omega
  simp only [unit, htrail, hlead, Bool.false_eq_true, if_false, bytesOf, Char.ofNat_toNat]

theorem stands_char {c : Char} {w : Octets} (h : SpellsChar c w) :
    Stands w (String.utf8EncodeChar c) := by
  cases h with
  | plain printable quote backslash =>
    exact stands_plain fun b hb => isPlain_of_mem printable quote backslash hb
  | short h =>
    rw [utf8EncodeChar_ascii (simpleEscape?_of_mem h).2.2]
    exact stands_short h
  | unit h =>
    intro s
    rw [scan_unit .plain h, unit_char]
    rfl
  | @pair high low w v hhigh hlow code hw hv =>
    intro s
    have hfirst : unit none (0xD800 + high) = .ok ([], .lead (0xD800 + high)) := by
      have htrail : isTrail (0xD800 + high) = false := by
        simp only [isTrail, Bool.and_eq_false_iff, decide_eq_false_iff_not]
        omega
      have hlead : isLead (0xD800 + high) = true := by
        simp only [isLead, Bool.and_eq_true, decide_eq_true_eq]
        omega
      simp only [unit, htrail, hlead, Bool.false_eq_true, if_false, if_true]
    have hsecond : unit (some (0xD800 + high)) (0xDC00 + low)
        = .ok (String.utf8EncodeChar c, .plain) := by
      have htrail : isTrail (0xDC00 + low) = true := by
        simp only [isTrail, Bool.and_eq_true, decide_eq_true_eq]
        omega
      have hcode : (0xD800 + high - 0xD800) * 1024 + (0xDC00 + low - 0xDC00) + 0x10000
          = c.toNat := by omega
      simp only [unit, htrail, if_true, hcode, bytesOf, Char.ofNat_toNat]
    rw [List.append_assoc, scan_unit .plain hw, hfirst]
    simp only [bind, Except.bind]
    rw [scan_unit (.lead _) hv, hsecond]
    simp only [bind, Except.bind]
    cases scan .plain s <;> rfl

theorem scan_chars {cs : List Char} {w : Octets} (h : SpellsChars cs w) (rest : Octets) :
    scan .plain (w ++ 34 :: rest) = .ok (Octets.ofChars cs, rest) := by
  induction h with
  | nil => simp [scan, Octets.ofChars]
  | cons hc _ ih =>
    rw [List.append_assoc, stands_char hc, ih]
    rfl

theorem read_chars {t : String} {body : Octets} (h : SpellsChars t.toList body) (rest : Octets) :
    read (body ++ 34 :: rest) = .ok (t, rest) := by
  have htext : Octets.text? (Octets.ofChars t.toList) = some t := Octets.text?_ofString t
  simp only [read, scan_chars h, bind, Except.bind, pure, Except.pure, htext]

end Text

/-- A text without quotes, backslashes and control characters spells itself. -/
theorem spellsText_plain {t : String}
    (h : ∀ c ∈ t.toList, 32 ≤ c.toNat ∧ c.toNat ≠ 34 ∧ c.toNat ≠ 92) :
    SpellsText t (34 :: (Octets.ofString t ++ [34])) := by
  refine ⟨_, ?_, rfl⟩
  unfold Octets.ofString Octets.ofChars
  generalize t.toList = cs at h
  induction cs with
  | nil => exact .nil
  | cons c cs ih =>
    obtain ⟨hprintable, hquote, hbackslash⟩ := h c List.mem_cons_self
    refine .cons (.plain hprintable hquote hbackslash) (ih fun x hx => ?_)
    exact h x (List.mem_cons_of_mem c hx)

theorem spaced_tight (v : Octets) : Spaced v v := ⟨[], [], gap_nil, gap_nil, by simp⟩

/-- A member without space around its key and its value. -/
theorem rendersMember_tight {key : String}
    (h : ∀ c ∈ key.toList, 32 ≤ c.toNat ∧ c.toNat ≠ 34 ∧ c.toNat ≠ 92) (v : Octets) :
    RendersMember SpellsText (key, v) (34 :: (Octets.ofString key ++ [34]) ++ 58 :: v) :=
  ⟨_, _, _, spellsText_plain h, spaced_tight _, spaced_tight v, rfl⟩

/-! ## Any strings -/

theorem IsBody.plain {w v : Octets} (h : ∀ b ∈ w, IsPlain b) (hv : IsBody v) : IsBody (w ++ v) := by
  induction w with
  | nil => exact hv
  | cons b w ih =>
    obtain ⟨hprintable, hquote, hbackslash⟩ := h b List.mem_cons_self
    exact .byte hprintable hquote hbackslash (ih fun x hx => h x (List.mem_cons_of_mem b hx))

theorem IsBody.char {c : Char} {w v : Octets} (h : SpellsChar c w) (hv : IsBody v) :
    IsBody (w ++ v) := by
  cases h with
  | plain printable quote backslash =>
    exact .plain (fun b hb => isPlain_of_mem printable quote backslash hb) hv
  | short h => exact .short h hv
  | unit h => exact .unit h hv
  | pair _ _ _ hw hv' =>
    rw [List.append_assoc]
    exact .unit hw (.unit hv' hv)

theorem SpellsText.isQuoted {t : String} {w : Octets} (h : SpellsText t w) : IsQuoted w := by
  obtain ⟨body, h, rfl⟩ := h
  refine ⟨body, ?_, rfl⟩
  generalize t.toList = cs at h
  induction h with
  | nil => exact .nil
  | cons hc _ ih => exact .char hc ih

theorem isNumber_ofInt (n : Int) : IsNumber (Octets.ofInt n) := by
  cases n with
  | ofNat n =>
    have h := @IsNumber.parts [] [] [] n (.inl rfl) (.inl rfl) (.inl rfl)
    simp only [List.nil_append, List.append_nil] at h
    exact h
  | negSucc n =>
    have h := @IsNumber.parts [45] [] [] (n + 1) (.inr rfl) (.inl rfl) (.inl rfl)
    simp only [List.append_nil] at h
    exact h

theorem isValue_ofInt (n : Int) : IsValue (Octets.ofInt n) := .number (isNumber_ofInt n)

/-- The text of a member of a value. -/
structure IsMember (m : Octets × Octets) : Prop where
  key : IsQuoted m.1
  value : IsValue m.2

/-- A member whose key says something is a member whose key says nothing in particular. -/
theorem RendersMember.unsaid {m : String × Octets} {w : Octets}
    (h : RendersMember SpellsText m w) (hvalue : IsValue m.2) :
    ∃ m', RendersMember Eq m' w ∧ IsMember m' := by
  obtain ⟨key, u, v, hkey, hu, hv, rfl⟩ := h
  exact ⟨(key, m.2), ⟨key, u, v, rfl, hu, hv, rfl⟩, hkey.isQuoted, hvalue⟩

theorem Separated.unsaid {ms : List (String × Octets)} {w : Octets}
    (h : Separated (RendersMember SpellsText) ms w) (hvalues : ∀ m ∈ ms, IsValue m.2) :
    ∃ ms', Separated (RendersMember Eq) ms' w ∧ ∀ m ∈ ms', IsMember m := by
  induction h with
  | one hm =>
    obtain ⟨m', hm', hmember⟩ := hm.unsaid (hvalues _ List.mem_cons_self)
    exact ⟨[m'], .one hm', List.forall_mem_singleton.mpr hmember⟩
  | more hm _ ih =>
    obtain ⟨m', hm', hmember⟩ := hm.unsaid (hvalues _ List.mem_cons_self)
    obtain ⟨ms', hms', hmembers⟩ := ih fun x hx => hvalues x (List.mem_cons_of_mem _ hx)
    exact ⟨m' :: ms', .more hm' hms', List.forall_mem_cons.mpr ⟨hmember, hmembers⟩⟩

/-- What an object's keys say is of no account for its being a value. -/
theorem IsObject.isValue {ms : List (String × Octets)} {w : Octets} (h : IsObject ms w) :
    IsValue w := by
  obtain ⟨⟨inside, hinside, rfl⟩, hvalues⟩ := h
  cases hinside with
  | empty hg => exact @IsValue.object [] _ ⟨inside, .empty hg, rfl⟩ (by simp) (by simp)
  | items hitems =>
    obtain ⟨ms', hms', hmembers⟩ := hitems.unsaid hvalues
    exact .object ⟨inside, .items hms', rfl⟩ (fun m hm => (hmembers m hm).key)
      fun m hm => (hmembers m hm).value

namespace Text

/-- In this phase, what stands before the closing quote is taken for these bytes or refused. -/
def Closes (phase : Phase) (body : Octets) (o : Option Octets) : Prop :=
  ∀ rest, Gives (scan phase (body ++ 34 :: rest)) rest o

theorem Closes.prepend {phase : Phase} {body : Octets} {o : Option Octets}
    (h : Closes phase body o) (bytes rest : Octets) :
    Gives (do let (t, rest) ← scan phase (body ++ 34 :: rest); pure (bytes ++ t, rest)) rest
      (o.map (bytes ++ ·)) := by
  rw [Option.map_eq_bind]
  exact (h rest).bind fun t _ => .takes rfl

/-- A string is followed to its end, also from the middle of a pair of surrogates. -/
theorem closes_body {body : Octets} (h : IsBody body) {phase : Phase} {lead : Option Nat}
    (hphase : Between phase lead) : ∃ o, Closes phase body o := by
  induction h generalizing phase lead with
  | nil =>
    cases hphase with
    | plain => exact ⟨some [], fun rest => .takes (by simp [scan])⟩
    | lead high => exact ⟨none, fun rest => .refuses (e := .malformed) (by simp [scan])⟩
  | @byte b w printable quote backslash _ ih =>
    cases hphase with
    | plain =>
      obtain ⟨o, ho⟩ := ih .plain
      refine ⟨o.map ([b] ++ ·), fun rest => ?_⟩
      rw [show b :: w ++ 34 :: rest = [b] ++ (w ++ 34 :: rest) from rfl,
        stands_plain (List.forall_mem_singleton.mpr ⟨printable, quote, backslash⟩)]
      exact ho.prepend [b] rest
    | lead high => exact ⟨none, fun rest => .refuses (e := .malformed) (by simp [scan, backslash])⟩
  | @short letter code w hcode _ ih =>
    cases hphase with
    | plain =>
      obtain ⟨o, ho⟩ := ih .plain
      refine ⟨o.map ([UInt8.ofNat code] ++ ·), fun rest => ?_⟩
      rw [show 92 :: letter :: w ++ 34 :: rest = [92, letter] ++ (w ++ 34 :: rest) from rfl,
        stands_short hcode]
      exact ho.prepend _ rest
    | lead high =>
      have hletter := (simpleEscape?_of_mem hcode).1
      exact ⟨none, fun rest => .refuses (e := .malformed) (by simp [scan, hletter])⟩
  | @unit n u w hu _ ih =>
    cases hunit : Text.unit lead n with
    | error e =>
      refine ⟨none, fun rest => ?_⟩
      rw [List.append_assoc, scan_unit hphase hu, hunit]
      exact .refuses rfl
    | ok taken =>
      obtain ⟨bytes, phase'⟩ := taken
      obtain ⟨lead', hphase'⟩ := between_of_unit hunit
      obtain ⟨o, ho⟩ := ih hphase'
      refine ⟨o.map (bytes ++ ·), fun rest => ?_⟩
      rw [List.append_assoc, scan_unit hphase hu, hunit]
      exact ho.prepend bytes rest

theorem gives_read {body : Octets} (h : IsBody body) :
    ∃ o, ∀ rest, Gives (read (body ++ 34 :: rest)) rest o := by
  obtain ⟨o, ho⟩ := closes_body h .plain
  refine ⟨o.bind Octets.text?, fun rest => (ho rest).bind fun bytes _ => ?_⟩
  dsimp only
  split
  · rename_i t htext
    rw [htext]
    exact .takes rfl
  · rename_i htext
    rw [htext]
    exact .refuses rfl

end Text

/-! ## Where a string is asked for -/

theorem patient_readText : Patient readText := by
  intro g s hg
  rw [readText, readText, skipSpace_gap hg]

theorem readText_quote (s : Octets) : readText (34 :: s) = Text.read s := by
  rw [readText, skipSpace_cons (by decide)]
  rfl

theorem enclosed_append (opening closing : UInt8) (inside rest : Octets) :
    opening :: (inside ++ [closing]) ++ rest = opening :: (inside ++ closing :: rest) := by
  simp

theorem judges_readText_quoted {w : Octets} (h : IsQuoted w) : ∃ o, Judges readText w o := by
  obtain ⟨body, hbody, rfl⟩ := h
  obtain ⟨o, ho⟩ := Text.gives_read hbody
  refine ⟨o, fun rest _ => ?_⟩
  rw [enclosed_append, readText_quote]
  exact ho rest

theorem spells_text {t : String} {w : Octets} (h : SpellsText t w) : Spells readText w t := by
  obtain ⟨body, hbody, rfl⟩ := h
  intro rest _
  rw [enclosed_append, readText_quote]
  exact Text.read_chars hbody rest

end Aerial.Json
