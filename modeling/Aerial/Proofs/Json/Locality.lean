import Aerial.Json.Scalar
import Aerial.Json.Skip

/-! # A reader looks no further than it reads

A string and a literal are closed by a byte of their own, and a `Closed` reader takes them
for the same whatever follows. A number is not closed: more digits would go on with it. But
as soon as anything is left after a number, the number has ended there, and what comes later
is of no account. That is all a `Steady` reader promises, and it is true of every scalar and
of the values that are skipped. -/

namespace Aerial.Json

variable {α β γ ε : Type}

/-- Nothing that is put after the text changes what is read. -/
def Closed (read : Octets → Except ReadError (α × Octets)) : Prop :=
  ∀ ⦃s a rest⦄, read s = .ok (a, rest) → ∀ more, read (s ++ more) = .ok (a, rest ++ more)

/-- Nothing that is put after the text changes what is read, if the reader has left some. -/
def Steady (read : Octets → Except ReadError (α × Octets)) : Prop :=
  ∀ ⦃s a rest⦄, read s = .ok (a, rest) → rest ≠ [] →
    ∀ more, read (s ++ more) = .ok (a, rest ++ more)

theorem Closed.steady {read : Octets → Except ReadError (α × Octets)} (h : Closed read) :
    Steady read := fun _ _ _ hread _ => h hread

/-- One thing after the other succeeds if both do. -/
theorem bind_eq_ok_iff {x : Except ε α} {f : α → Except ε β} {b : β} :
    x >>= f = .ok b ↔ ∃ a, x = .ok a ∧ f a = .ok b := by
  cases x with
  | error e => exact iff_of_false nofun fun ⟨a, ha, _⟩ => nomatch ha
  | ok a => exact ⟨fun h => ⟨a, rfl, h⟩, fun ⟨b, hb, h⟩ => by cases hb; exact h⟩

/-! ## Space and literals -/

theorem skipSpace_append {s : Octets} (h : skipSpace s ≠ []) (more : Octets) :
    skipSpace (s ++ more) = skipSpace s ++ more := (Octets.span_append h more).2

theorem skipSpace_append_of_cons {s rest : Octets} {c : UInt8} (h : skipSpace s = c :: rest)
    (more : Octets) : skipSpace (s ++ more) = c :: (rest ++ more) := by
  rw [skipSpace_append (by rw [h]; simp), h, List.cons_append]

theorem spell_ok_append {word s rest : Octets} (h : spell word s = .ok rest) (more : Octets) :
    spell word (s ++ more) = .ok (rest ++ more) := by
  induction word generalizing s with
  | nil =>
    cases h
    rfl
  | cons w word ih =>
    cases s with
    | nil => cases h
    | cons c s =>
      rw [spell] at h
      rw [List.cons_append, spell]
      split at h
      · rename_i hc
        rw [if_pos hc]
        exact ih h
      · cases h

/-- Most readers skip the space before a value and go by its first byte. What they make of it
then is all that needs to be looked at. -/
theorem afterSpace_append {read : Octets → Except ReadError β}
    {next : UInt8 → Octets → Except ReadError β}
    (hread : ∀ s, read s = match skipSpace s with
      | [] => .error .incomplete
      | c :: rest => next c rest)
    {s more : Octets} {b b' : β} (h : read s = .ok b)
    (hnext : ∀ c rest, next c rest = .ok b → next c (rest ++ more) = .ok b') :
    read (s ++ more) = .ok b' := by
  rw [hread] at h ⊢
  cases hs : skipSpace s with
  | nil =>
    rw [hs] at h
    cases h
  | cons c rest =>
    rw [hs] at h
    rw [skipSpace_append_of_cons hs]
    exact hnext c rest h

/-- Readers of one byte that must come next, such as a colon or a closing bracket. -/
theorem expect_append {b : UInt8} {read : Octets → Except ReadError Octets}
    (hread : ∀ s, read s = match skipSpace s with
      | [] => .error .incomplete
      | c :: rest => if c = b then .ok rest else .error .malformed)
    {s rest : Octets} (h : read s = .ok rest) (more : Octets) :
    s ≠ [] ∧ read (s ++ more) = .ok (rest ++ more) := by
  have hne : s ≠ [] := by
    rintro rfl
    rw [hread] at h
    cases h
  refine ⟨hne, afterSpace_append hread h fun c t hc => ?_⟩
  split at hc
  · rename_i hb
    cases hc
    exact if_pos hb
  · cases hc

theorem readColon_append {s rest : Octets} (h : readColon s = .ok rest) (more : Octets) :
    readColon (s ++ more) = .ok (rest ++ more) := (expect_append (fun _ => rfl) h more).2

theorem closed_readFlag : Closed readFlag := by
  intro s b rest h more
  unfold readFlag at *
  split at h
  · rename_i t hs
    obtain ⟨u, hu, h⟩ := bind_eq_ok_iff.mp h
    cases h
    rw [skipSpace_append_of_cons hs]
    exact bind_eq_ok_iff.mpr ⟨_, spell_ok_append hu more, rfl⟩
  · rename_i t hs
    obtain ⟨u, hu, h⟩ := bind_eq_ok_iff.mp h
    cases h
    rw [skipSpace_append_of_cons hs]
    exact bind_eq_ok_iff.mpr ⟨_, spell_ok_append hu more, rfl⟩
  · cases h

theorem readNothing_append {s rest : Octets} (h : readNothing s = .ok rest) (more : Octets) :
    readNothing (s ++ more) = .ok (rest ++ more) := by
  unfold readNothing at *
  split at h
  · rename_i t hs
    rw [skipSpace_append_of_cons hs]
    exact spell_ok_append h more
  · cases h

/-! ## Strings -/

theorem Text.closed_scan (phase : Text.Phase) : Closed (Text.scan phase) := by
  intro s bytes rest h more
  fun_induction Text.scan phase s generalizing bytes with
  | case1 => cases h
  | case2 s =>
    cases h
    rw [List.cons_append, scan, if_pos rfl]
  | case3 s h34 ih =>
    rw [List.cons_append, scan, if_neg h34, if_pos rfl]
    exact ih h
  | case4 => cases h
  | case5 c s h34 h92 hcontrol ih =>
    obtain ⟨_, hscan, h⟩ := bind_eq_ok_iff.mp h
    cases h
    rw [List.cons_append, scan, if_neg h34, if_neg h92, if_neg hcontrol]
    exact bind_eq_ok_iff.mpr ⟨_, ih hscan, rfl⟩
  | case6 s ih =>
    rw [List.cons_append, scan, if_pos rfl]
    exact ih h
  | case7 => cases h
  | case8 c s h117 b hb ih =>
    obtain ⟨_, hscan, h⟩ := bind_eq_ok_iff.mp h
    cases h
    rw [List.cons_append, scan, if_neg h117, hb]
    exact bind_eq_ok_iff.mpr ⟨_, ih hscan, rfl⟩
  | case9 => cases h
  | case10 lead index value c s d hd hindex ih =>
    rw [List.cons_append, scan, hd]
    dsimp only
    rw [if_pos hindex]
    exact ih h
  | case11 lead index value c s d hd hindex ih =>
    obtain ⟨_, hunit, h⟩ := bind_eq_ok_iff.mp h
    obtain ⟨_, hscan, h⟩ := bind_eq_ok_iff.mp h
    cases h
    rw [List.cons_append, scan, hd]
    dsimp only
    rw [if_neg hindex]
    exact bind_eq_ok_iff.mpr ⟨_, hunit, bind_eq_ok_iff.mpr ⟨_, ih _ hscan, rfl⟩⟩
  | case12 value s ih =>
    rw [List.cons_append, scan, if_pos rfl]
    exact ih h
  | case13 => cases h
  | case14 value s ih =>
    rw [List.cons_append, scan, if_pos rfl]
    exact ih h
  | case15 => cases h

theorem Text.closed_read : Closed Text.read := by
  intro s t rest h more
  obtain ⟨⟨bytes, u⟩, hscan, h⟩ := bind_eq_ok_iff.mp h
  dsimp only at h
  split at h
  · rename_i htext
    cases h
    refine bind_eq_ok_iff.mpr ⟨_, closed_scan _ hscan more, ?_⟩
    dsimp only
    rw [htext]
    rfl
  · cases h

theorem closed_readText : Closed readText := by
  intro s t rest h more
  unfold readText at *
  split at h
  · rename_i u hs
    rw [skipSpace_append_of_cons hs]
    exact Text.closed_read h more
  · cases h

/-! ## Values that are skipped -/

/-- The skipper stops after its value, or right before the first byte that is left. -/
theorem Skip.run_append {mode : Skip.Mode} {stack : List Skip.Bracket} {s rest : Octets}
    (h : Skip.run mode stack s = .ok rest) (left : rest ≠ []) (more : Octets) :
    Skip.run mode stack (s ++ more) = .ok (rest ++ more) := by
  fun_induction Skip.run mode stack s with
  | case1 mode stack =>
    -- the end of the text ends only a numeral, and leaves nothing
    unfold atEnd at h
    split at h
    · split at h
      · cases h
      split at h
      · cases h
        exact absurd rfl left
      · cases h
    · cases h
  | case2 mode stack c s mode' stack' hstep ih =>
    rw [List.cons_append, run, hstep]
    exact ih h
  | case3 mode stack c s hstep =>
    cases h
    rw [List.cons_append, run, hstep]
  | case4 mode stack c s hstep =>
    cases h
    simp only [List.cons_append, run, hstep]
  | case5 => cases h
  | case6 => cases h

theorem Skip.skipValue_append {s rest : Octets} (h : Skip.skipValue s = .ok rest) (left : rest ≠ [])
    (more : Octets) : Skip.skipValue (s ++ more) = .ok (rest ++ more) := run_append h left more

/-! ## Numbers -/

namespace Number

section

variable (negative : Bool) (significand : Nat) (e : Int)

theorem readExponent_signed {sign : UInt8} (h : sign = 43 ∨ sign = 45) (t : Octets) :
    readExponent negative significand e (sign :: t) =
      if t.takeWhile Octets.isDigit = [] then
        .error (if t.dropWhile Octets.isDigit = [] then .incomplete else .malformed)
      else (do
        let power := spelledPower (t.takeWhile Octets.isDigit)
        let x ← assemble negative significand (if sign = 45 then e - power else e + power)
        pure (x, t.dropWhile Octets.isDigit)) := by
  rcases h with rfl | rfl
  · rfl
  · rfl

/-- The plus sign of an exponent may be left out. -/
theorem readExponent_plus {c : UInt8} (h : ¬(c = 43 ∨ c = 45)) (t : Octets) :
    readExponent negative significand e (c :: t) =
      readExponent negative significand e (43 :: c :: t) := by
  rw [readExponent_signed _ _ _ (.inl rfl)]
  unfold readExponent
  split
  rename_i hsign
  split at hsign
  · rename_i hcons
    exact absurd (.inl (List.cons.inj hcons).1) h
  · rename_i hcons
    exact absurd (.inr (List.cons.inj hcons).1) h
  · cases hsign
    rfl

theorem steady_readExponent : Steady (readExponent negative significand e) := by
  have hsigned : ∀ {sign t n rest}, sign = 43 ∨ sign = 45 →
      readExponent negative significand e (sign :: t) = .ok (n, rest) → rest ≠ [] →
      ∀ more, readExponent negative significand e (sign :: (t ++ more)) = .ok (n, rest ++ more) := by
    intro sign t n rest hs h left more
    rw [readExponent_signed _ _ _ hs] at h ⊢
    split at h
    · cases h
    rename_i hdigits
    obtain ⟨_, hx, h⟩ := bind_eq_ok_iff.mp h
    cases h
    obtain ⟨htake, hdrop⟩ := Octets.span_append left more
    rw [htake, hdrop, if_neg hdigits]
    exact bind_eq_ok_iff.mpr ⟨_, hx, rfl⟩
  intro s n rest h left more
  cases s with
  | nil => cases h
  | cons c t =>
    by_cases hc : c = 43 ∨ c = 45
    · exact hsigned hc h left more
    · rw [readExponent_plus _ _ _ hc] at h
      rw [List.cons_append, readExponent_plus _ _ _ hc]
      exact hsigned (.inl rfl) h left more

theorem readTail_letter {c : UInt8} (h : c = 101 ∨ c = 69) (t : Octets) :
    readTail negative significand e (c :: t) = readExponent negative significand e t := by
  rcases h with rfl | rfl
  · rfl
  · rfl

theorem readTail_other {c : UInt8} (h : ¬(c = 101 ∨ c = 69)) (t : Octets) :
    readTail negative significand e (c :: t) =
      (do pure (← assemble negative significand e, c :: t)) := by
  unfold readTail
  split
  · rename_i hcons
    exact absurd (.inl (List.cons.inj hcons).1) h
  · rename_i hcons
    exact absurd (.inr (List.cons.inj hcons).1) h
  · rfl

theorem readTail_nil {n : Number} {rest : Octets}
    (h : readTail negative significand e [] = .ok (n, rest)) : rest = [] := by
  obtain ⟨_, _, h⟩ := bind_eq_ok_iff.mp h
  cases h
  rfl

theorem steady_readTail : Steady (readTail negative significand e) := by
  intro s n rest h left more
  cases s with
  | nil => exact absurd (readTail_nil _ _ _ h) left
  | cons c t =>
    rw [List.cons_append]
    by_cases hc : c = 101 ∨ c = 69
    · rw [readTail_letter _ _ _ hc] at h ⊢
      exact steady_readExponent _ _ _ h left more
    · rw [readTail_other _ _ _ hc] at h ⊢
      obtain ⟨_, hx, h⟩ := bind_eq_ok_iff.mp h
      cases h
      exact bind_eq_ok_iff.mpr ⟨_, hx, rfl⟩

theorem steady_readFraction : Steady (readFraction negative significand e) := by
  intro s n rest h left more
  unfold readFraction at h ⊢
  dsimp only at h ⊢
  split at h
  · cases h
  rename_i hdigits
  have hdrop : s.dropWhile Octets.isDigit ≠ [] := by
    intro hdrop
    rw [hdrop] at h
    exact left (readTail_nil _ _ _ h)
  obtain ⟨htake, hdrop'⟩ := Octets.span_append hdrop more
  rw [htake, hdrop', if_neg hdigits]
  exact steady_readTail _ _ _ h left more

end

theorem steady_read (negative : Bool) : Steady (read negative) := by
  intro s n rest h left more
  -- a number that is all digits leaves nothing
  have hdrop : s.dropWhile Octets.isDigit ≠ [] := by
    intro hdrop
    unfold read at h
    rw [hdrop] at h
    dsimp only at h
    split at h
    · cases h
    · cases h
    split at h
    · obtain ⟨_, _, h⟩ := bind_eq_ok_iff.mp h
      cases h
      exact left rfl
    · exact left (readTail_nil _ _ _ h)
  obtain ⟨htake, hdrop'⟩ := Octets.span_append hdrop more
  obtain ⟨c, t, hct⟩ := List.exists_cons_of_ne_nil hdrop
  unfold read at h ⊢
  rw [htake, hdrop', hct, List.cons_append]
  rw [hct] at h
  dsimp only at h ⊢
  generalize s.takeWhile Octets.isDigit = digits at h ⊢
  split at h
  · cases h
  · cases h
  generalize absorb 0 digits = absorbed at h ⊢
  split at h
  · rename_i hcons
    obtain ⟨rfl, rfl⟩ := List.cons.inj hcons
    exact steady_readFraction _ _ _ h left more
  · rename_i hcons
    obtain ⟨rfl, rfl⟩ := List.cons.inj hcons
    exact steady_readTail _ _ _ h left more
  · rename_i hcons
    obtain ⟨rfl, rfl⟩ := List.cons.inj hcons
    exact steady_readTail _ _ _ h left more
  · rename_i h46 h101 h69
    split
    · rename_i hcons
      exact (h46 t (by rw [(List.cons.inj hcons).1])).elim
    · rename_i hcons
      exact (h101 t (by rw [(List.cons.inj hcons).1])).elim
    · rename_i hcons
      exact (h69 t (by rw [(List.cons.inj hcons).1])).elim
    split at h
    · rename_i hall
      obtain ⟨_, hx, h⟩ := bind_eq_ok_iff.mp h
      cases h
      rw [if_pos hall]
      exact bind_eq_ok_iff.mpr ⟨_, hx, rfl⟩
    · rename_i hall
      rw [if_neg hall]
      exact steady_readTail _ _ _ h left more

end Number

theorem steady_readDegrees : Steady readDegrees := by
  intro s a rest h left more
  refine afterSpace_append (fun _ => rfl) h fun c t h => ?_
  split at h
  · rename_i hminus
    obtain ⟨⟨n, u⟩, hread, h⟩ := bind_eq_ok_iff.mp h
    obtain ⟨_, hdegrees, h⟩ := bind_eq_ok_iff.mp h
    cases h
    rw [if_pos hminus]
    exact bind_eq_ok_iff.mpr ⟨_, Number.steady_read _ hread left more,
      bind_eq_ok_iff.mpr ⟨_, hdegrees, rfl⟩⟩
  rename_i hminus
  rw [if_neg hminus]
  split at h
  · rename_i hdigit
    obtain ⟨⟨n, u⟩, hread, h⟩ := bind_eq_ok_iff.mp h
    obtain ⟨_, hdegrees, h⟩ := bind_eq_ok_iff.mp h
    cases h
    rw [if_pos hdigit]
    exact bind_eq_ok_iff.mpr ⟨_, Number.steady_read _ hread left more,
      bind_eq_ok_iff.mpr ⟨_, hdegrees, rfl⟩⟩
  · cases h

theorem steady_readDegrees? : Steady readDegrees? := by
  intro s a rest h left more
  unfold readDegrees? at h ⊢
  split at h
  · rename_i t hs
    obtain ⟨_, hspell, h⟩ := bind_eq_ok_iff.mp h
    cases h
    rw [skipSpace_append_of_cons hs]
    exact bind_eq_ok_iff.mpr ⟨_, spell_ok_append hspell more, rfl⟩
  · rename_i hnull
    obtain ⟨⟨a, t⟩, hread, h⟩ := bind_eq_ok_iff.mp h
    cases h
    have hspace : skipSpace s ≠ [] := by
      intro hspace
      rw [hspace] at hread
      cases hread
    rw [skipSpace_append hspace]
    split
    · rename_i t hs
      obtain ⟨c, u, hcu⟩ := List.exists_cons_of_ne_nil hspace
      rw [hcu, List.cons_append] at hs
      exact (hnull u (by rw [hcu, (List.cons.inj hs).1])).elim
    · exact bind_eq_ok_iff.mpr ⟨_, steady_readDegrees hread left more, rfl⟩

end Aerial.Json
