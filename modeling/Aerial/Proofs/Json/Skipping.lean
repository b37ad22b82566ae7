import Aerial.Proofs.Json.Strings

/-! # Every value is skipped whole

The skipper passes over a value of any kind and depth and stops right after it. The induction is on
the value, with whatever brackets are open around it and whatever text comes after: in the end the
skipper stands after a value inside the innermost bracket, or is done. A number alone does not show
its end, so what comes after must not go on with it. -/

namespace Aerial.Json

namespace Skip

/-- Going on after a value: it ends here, or a bracket is still open. -/
def resume : List Bracket → Octets → Except ReadError Octets
  | [], s => .ok s
  | bracket :: stack, s => run .after (bracket :: stack) s

theorem run_ended {mode : Mode} {stack around : List Bracket} {c : UInt8}
    (h : step mode stack c = ended around) (s : Octets) :
    run mode stack (c :: s) = resume around s := by
  cases around with
  | nil => simp only [run, h, ended, resume]
  | cons bracket around => simp only [run, h, ended, resume]

theorem run_go {mode mode' : Mode} {stack stack' : List Bracket} {c : UInt8}
    (h : step mode stack c = .go mode' stack') (s : Octets) :
    run mode stack (c :: s) = run mode' stack' s := by
  simp only [run, h]

/-! ## Space -/

/-- Between two tokens. After a value this is so only inside a bracket. -/
inductive Waits : Mode → List Bracket → Prop
  | value (stack : List Bracket) : Waits .value stack
  | after (bracket : Bracket) (stack : List Bracket) : Waits .after (bracket :: stack)
  | firstElement (stack : List Bracket) : Waits .firstElement stack
  | firstKey (stack : List Bracket) : Waits .firstKey stack
  | key (stack : List Bracket) : Waits .key stack
  | colon (stack : List Bracket) : Waits .colon stack

theorem Waits.step_space {mode : Mode} {stack : List Bracket} (h : Waits mode stack) {c : UInt8}
    (hc : isSpace c = true) : step mode stack c = .go mode stack := by
  cases h with
  | value => simp [step, begin, hc]
  | after => simp [step, between, hc]
  | firstElement => simp [step, hc]
  | firstKey => simp [step, hc]
  | key => simp [step, hc]
  | colon => simp [step, hc]

theorem Waits.run_gap {mode : Mode} {stack : List Bracket} (h : Waits mode stack) {g : Octets}
    (hg : Gap g) (s : Octets) : run mode stack (g ++ s) = run mode stack s := by
  induction g with
  | nil => rfl
  | cons c g ih =>
    rw [List.cons_append, run_go (h.step_space (hg c List.mem_cons_self)),
      ih fun b hb => hg b (List.mem_cons_of_mem c hb)]

/-! ## Words and strings -/

theorem run_word {word : Octets} (hne : word ≠ []) (stack : List Bracket) (s : Octets) :
    run (.word word) stack (word ++ s) = resume stack s := by
  induction word with
  | nil => exact absurd rfl hne
  | cons w word ih =>
    cases word with
    | nil => exact run_ended (by simp [step]) s
    | cons v word =>
      have hstep : step (.word (w :: v :: word)) stack w = .go (.word (v :: word)) stack := by
        simp [step]
      rw [List.cons_append, run_go hstep]
      exact ih (by simp)

section

variable (isKey : Bool) (stack : List Bracket)

theorem step_plain {b : UInt8} (h : IsPlain b) :
    step (.text isKey) stack b = .go (.text isKey) stack := by
  obtain ⟨hprintable, hquote, hbackslash⟩ := h
  simp only [step, if_neg hquote, if_neg hbackslash, if_neg (UInt8.not_lt.mpr hprintable)]

theorem step_backslash : step (.text isKey) stack 92 = .go (.escaped isKey) stack := rfl

theorem step_letter {letter : UInt8} {code : Nat} (h : (letter, code) ∈ shortEscapes) :
    step (.escaped isKey) stack letter = .go (.text isKey) stack := by
  obtain ⟨hletter, hescape, -⟩ := simpleEscape?_of_mem h
  simp [step, hletter, hescape]

theorem step_digit {n : Nat} {b : UInt8} (h : SpellsDigit n b) (index : Nat) :
    step (.hex isKey index) stack b =
      if index < 3 then .go (.hex isKey (index + 1)) stack else .go (.text isKey) stack := by
  simp [step, hexDigit?_of_spellsDigit h]

theorem run_unit {n : Nat} {u : Octets} (h : SpellsUnit n u) (s : Octets) :
    run (.text isKey) stack (u ++ s) = run (.text isKey) stack s := by
  obtain ⟨hi, hj, hk, hl⟩ := h
  have hu : step (.escaped isKey) stack 117 = .go (.hex isKey 0) stack := rfl
  simp only [List.cons_append, List.nil_append]
  rw [run_go (step_backslash isKey stack), run_go hu, run_go (step_digit isKey stack hi 0),
    run_go (step_digit isKey stack hj 1), run_go (step_digit isKey stack hk 2),
    run_go (step_digit isKey stack hl 3)]

theorem run_body {body : Octets} (h : IsBody body) (s : Octets) :
    run (.text isKey) stack (body ++ s) = run (.text isKey) stack s := by
  induction h with
  | nil => rfl
  | byte printable quote backslash _ ih =>
    rw [List.cons_append, run_go (step_plain isKey stack ⟨printable, quote, backslash⟩), ih]
  | short hcode _ ih =>
    rw [List.cons_append, List.cons_append, run_go (step_backslash isKey stack),
      run_go (step_letter isKey stack hcode), ih]
  | unit hu _ ih => rw [List.append_assoc, run_unit isKey stack hu, ih]

end

/-- A string, after its opening quote. -/
theorem run_text {body : Octets} (h : IsBody body) (stack : List Bracket) (s : Octets) :
    run (.text false) stack (body ++ 34 :: s) = resume stack s := by
  rw [run_body false stack h]
  exact run_ended (by simp [step]) s

/-- The key of a member, after its opening quote. -/
theorem run_keyText {body : Octets} (h : IsBody body) (stack : List Bracket) (s : Octets) :
    run (.text true) stack (body ++ 34 :: s) = run .colon stack s := by
  have hquote : step (.text true) stack 34 = .go .colon stack := rfl
  rw [run_body true stack h, run_go hquote]

/-! ## Numbers -/

theorem run_digits {n : Numeral} (hn : n = .whole ∨ n = .fraction ∨ n = .power) {ds : Octets}
    (hds : ∀ d ∈ ds, Octets.isDigit d = true) (stack : List Bracket) (s : Octets) :
    run (.number n) stack (ds ++ s) = run (.number n) stack s := by
  induction ds with
  | nil => rfl
  | cons d ds ih =>
    have hd := hds d List.mem_cons_self
    have hstep : step (.number n) stack d = .go (.number n) stack := by
      rcases hn with rfl | rfl | rfl <;> simp [step, Numeral.next, hd]
    rw [List.cons_append, run_go hstep, ih fun x hx => hds x (List.mem_cons_of_mem d hx)]

theorem isDigit_fails {b : UInt8} (h : b = 43 ∨ b = 45 ∨ b = 46 ∨ b = 69 ∨ b = 101) :
    Octets.isDigit b = false := by
  rcases h with rfl | rfl | rfl | rfl | rfl <;> decide

/-- Digits after a point, after a letter or after the sign of an exponent. -/
theorem run_someDigits {n m : Numeral} {ds : Octets} (hds : IsDigits ds)
    (hnm : n = .point ∧ m = .fraction ∨ (n = .letter ∨ n = .powerSign) ∧ m = .power)
    (stack : List Bracket) (s : Octets) :
    run (.number n) stack (ds ++ s) = run (.number m) stack s := by
  obtain ⟨hne, hdigits⟩ := hds
  obtain ⟨d, ds, rfl⟩ := List.exists_cons_of_ne_nil hne
  have hd := hdigits d List.mem_cons_self
  have hsign : d ≠ 43 ∧ d ≠ 45 := by
    constructor <;> (rintro rfl; simp [Octets.isDigit] at hd)
  have hstep : step (.number n) stack d = .go (.number m) stack := by
    rcases hnm with ⟨rfl, rfl⟩ | ⟨rfl | rfl, rfl⟩ <;> simp [step, Numeral.next, hd, hsign]
  have hm : m = .whole ∨ m = .fraction ∨ m = .power := by
    rcases hnm with ⟨-, rfl⟩ | ⟨-, rfl⟩
    · exact .inr (.inl rfl)
    · exact .inr (.inr rfl)
  rw [List.cons_append, run_go hstep,
    run_digits hm fun x hx => hdigits x (List.mem_cons_of_mem d hx)]

/-- The digits before the point, with or without a sign in front. -/
theorem run_whole (n : Nat) : ∃ m, (m = Numeral.zero ∨ m = .whole) ∧ ∀ stack s,
    run .value stack (Octets.ofNat n ++ s) = run (.number m) stack s ∧
      run (.number .sign) stack (Octets.ofNat n ++ s) = run (.number m) stack s := by
  obtain ⟨d, ds, hds, hzero⟩ := Octets.ofNat_eq_cons n
  have hall := Octets.isDigit_of_mem_ofNat n
  rw [hds] at hall
  have hd := hall d List.mem_cons_self
  have hrest : ∀ x ∈ ds, Octets.isDigit x = true := fun x hx => hall x (List.mem_cons_of_mem d hx)
  by_cases h48 : d = 48
  · subst h48
    obtain ⟨rfl, -⟩ := hzero rfl
    refine ⟨.zero, .inl rfl, fun stack s => ?_⟩
    rw [hds]
    exact ⟨run_go (by simp [step, begin, isSpace]) s, run_go (by simp [step, Numeral.next]) s⟩
  · have hspace := isSpace_of_isDigit hd
    have hletter : d ≠ 110 ∧ d ≠ 116 ∧ d ≠ 102 ∧ d ≠ 45 := by
      refine ⟨?_, ?_, ?_, ?_⟩ <;> (rintro rfl; simp [Octets.isDigit] at hd)
    refine ⟨.whole, .inr rfl, fun stack s => ?_⟩
    rw [hds, List.cons_append]
    rw [run_go (show step .value stack d = .go (.number .whole) stack by
      simp [step, begin, hspace, hletter, h48, hd])]
    rw [run_go (show step (.number .sign) stack d = .go (.number .whole) stack by
      simp [step, Numeral.next, h48, hd])]
    exact ⟨run_digits (.inl rfl) hrest stack s, run_digits (.inl rfl) hrest stack s⟩

theorem run_fraction {m : Numeral} (hm : m = .zero ∨ m = .whole) {w : Octets} (h : IsFraction w) :
    ∃ m', (m' = Numeral.zero ∨ m' = .whole ∨ m' = .fraction) ∧ ∀ stack s,
      run (.number m) stack (w ++ s) = run (.number m') stack s := by
  rcases h with rfl | ⟨ds, hds, rfl⟩
  · exact ⟨m, by rcases hm with rfl | rfl <;> simp, fun _ _ => rfl⟩
  · refine ⟨.fraction, by simp, fun stack s => ?_⟩
    have hstep : step (.number m) stack 46 = .go (.number .point) stack := by
      rcases hm with rfl | rfl <;> simp [step, Numeral.next, isDigit_fails]
    rw [List.cons_append, run_go hstep, run_someDigits hds (.inl ⟨rfl, rfl⟩)]

theorem run_exponent {m : Numeral} (hm : m = .zero ∨ m = .whole ∨ m = .fraction) {w : Octets}
    (h : IsExponent w) : ∃ m' : Numeral, m'.complete = true ∧ ∀ stack s,
      run (.number m) stack (w ++ s) = run (.number m') stack s := by
  rcases h with rfl | ⟨letter, sign, ds, hletter, hsign, hds, rfl⟩
  · exact ⟨m, by rcases hm with rfl | rfl | rfl <;> rfl, fun _ _ => rfl⟩
  · refine ⟨.power, rfl, fun stack s => ?_⟩
    have hstep : step (.number m) stack letter = .go (.number .letter) stack := by
      rcases hletter with rfl | rfl <;> rcases hm with rfl | rfl | rfl <;>
        simp [step, Numeral.next, isDigit_fails]
    rw [List.cons_append, run_go hstep, List.append_assoc]
    have hsigned : ∀ c, c = 43 ∨ c = 45 →
        step (.number .letter) stack c = .go (.number .powerSign) stack := by
      intro c hc
      simp [step, Numeral.next, hc]
    rcases hsign with rfl | rfl | rfl
    · exact run_someDigits hds (.inr ⟨.inl rfl, rfl⟩) stack s
    · rw [List.cons_append, List.nil_append, run_go (hsigned 43 (.inl rfl))]
      exact run_someDigits hds (.inr ⟨.inr rfl, rfl⟩) stack s
    · rw [List.cons_append, List.nil_append, run_go (hsigned 45 (.inr rfl))]
      exact run_someDigits hds (.inr ⟨.inr rfl, rfl⟩) stack s

/-- A number that may end here does so. -/
theorem run_complete {m : Numeral} (hm : m.complete = true) (stack : List Bracket) {s : Octets}
    (hs : NumberStops s) : run (.number m) stack s = resume stack s := by
  cases s with
  | nil =>
    cases stack with
    | nil => simp [run, atEnd, hm, resume]
    | cons bracket stack => simp [run, atEnd, hm, resume]
  | cons c s =>
    obtain ⟨hdigit, hpoint, hlower, hupper⟩ := hs c rfl
    have hnext : m.next c = none := by
      cases m with
      | sign => cases hm
      | zero => simp [Numeral.next, hpoint, hlower, hupper]
      | whole => simp [Numeral.next, hdigit, hpoint, hlower, hupper]
      | point => cases hm
      | fraction => simp [Numeral.next, hdigit, hlower, hupper]
      | letter => cases hm
      | powerSign => cases hm
      | power => simp [Numeral.next, hdigit]
    cases stack with
    | nil => simp [run, step, hnext, afterNumeral, hm, hdigit, resume]
    | cons bracket stack => simp [run, step, hnext, afterNumeral, hm, hdigit, resume]

theorem run_number {w : Octets} (h : IsNumber w) (stack : List Bracket) {s : Octets}
    (hs : NumberStops s) : run .value stack (w ++ s) = resume stack s := by
  obtain ⟨n, hsign, hfraction, hexponent⟩ := h
  obtain ⟨m, hm, hwhole⟩ := run_whole n
  obtain ⟨m', hm', hfrac⟩ := run_fraction hm hfraction
  obtain ⟨m'', hcomplete, hexp⟩ := run_exponent hm' hexponent
  have hminus : step .value stack 45 = .go (.number .sign) stack := rfl
  simp only [List.append_assoc]
  rcases hsign with rfl | rfl
  · rw [List.nil_append, (hwhole _ _).1, hfrac, hexp, run_complete hcomplete stack hs]
  · rw [List.cons_append, List.nil_append, run_go hminus, (hwhole _ _).2, hfrac, hexp,
      run_complete hcomplete stack hs]

/-! ## Arrays and objects -/

/-- The skipper takes this text for a value and stops right after it. -/
def Skips (v : Octets) : Prop :=
  ∀ stack s, NumberStops s → run .value stack (v ++ s) = resume stack s

theorem Skips.spaced {v w : Octets} (h : Skips v) (hw : Spaced v w) (bracket : Bracket)
    (stack : List Bracket) {s : Octets} (hs : NumberStops s) :
    run .value (bracket :: stack) (w ++ s) = run .after (bracket :: stack) s := by
  obtain ⟨before, after, hbefore, hafter, rfl⟩ := hw
  rw [List.append_assoc, List.append_assoc, (Waits.value _).run_gap hbefore,
    h _ _ (numberStops_gap hafter hs)]
  exact (Waits.after bracket stack).run_gap hafter s

theorem run_comma_element (stack : List Bracket) (s : Octets) :
    run .after (.array :: stack) (44 :: s) = run .value (.array :: stack) s := run_go rfl s

theorem run_array_end (stack : List Bracket) (s : Octets) :
    run .after (.array :: stack) (93 :: s) = resume stack s :=
  run_ended (by simp [step, between, isSpace]) s

theorem run_comma_member (stack : List Bracket) (s : Octets) :
    run .after (.object :: stack) (44 :: s) = run .key (.object :: stack) s := run_go rfl s

theorem run_object_end (stack : List Bracket) (s : Octets) :
    run .after (.object :: stack) (125 :: s) = resume stack s :=
  run_ended (by simp [step, between, isSpace]) s

theorem run_elements {vs : List Octets} {w : Octets} (h : Separated Spaced vs w)
    (hvs : ∀ v ∈ vs, Skips v) (stack : List Bracket) (s : Octets) :
    run .value (.array :: stack) (w ++ 93 :: s) = resume stack s := by
  induction h with
  | one hv =>
    rw [(hvs _ List.mem_cons_self).spaced hv .array stack (numberStops_cons (.inr (.inr rfl)) s),
      run_array_end]
  | more hv _ ih =>
    rw [List.append_assoc, List.cons_append,
      (hvs _ List.mem_cons_self).spaced hv .array stack (numberStops_cons (.inl rfl) _),
      run_comma_element]
    exact ih fun v hmem => hvs v (List.mem_cons_of_mem _ hmem)

/-- Before the first element there may be none. One that begins as a value does is one. -/
theorem run_firstElement {g v : Octets} (hg : Gap g) (hv : BeginsItem v) (stack : List Bracket)
    (s : Octets) : run .firstElement stack (g ++ (v ++ s)) = run .value stack (g ++ (v ++ s)) := by
  obtain ⟨c, t, rfl, hspace, hclose⟩ := hv
  rw [(Waits.firstElement stack).run_gap hg, (Waits.value stack).run_gap hg]
  simp only [List.cons_append, run, step, hspace, if_neg hclose, Bool.false_eq_true, if_false]

theorem run_array {vs : List Octets} {w : Octets} (h : RendersArray vs w)
    (hvs : ∀ v ∈ vs, Skips v) (hbegin : ∀ v ∈ vs, BeginsItem v) : Skips w := by
  obtain ⟨inside, h, rfl⟩ := h
  intro stack s _
  have hopen : step .value stack 91 = .go .firstElement (.array :: stack) := rfl
  rw [List.cons_append, run_go hopen, List.append_assoc, List.singleton_append]
  cases h with
  | empty hg =>
    rw [(Waits.firstElement _).run_gap hg]
    exact run_ended (by simp [step, isSpace]) s
  | items h =>
    rw [← run_elements h hvs stack s]
    obtain ⟨v, hv, w, t, ⟨before, after, hbefore, -, rfl⟩, rfl⟩ := h.first
    simp only [List.append_assoc]
    exact run_firstElement hbefore (hbegin v hv) _ _

/-- A member, from its key to the end of its value. -/
theorem run_member {m : Octets × Octets} {w : Octets} (h : RendersMember Eq m w)
    (hkey : IsQuoted m.1) (hvalue : Skips m.2) {mode : Mode}
    (hmode : mode = .firstKey ∨ mode = .key) (stack : List Bracket) {s : Octets}
    (hs : NumberStops s) :
    run mode (.object :: stack) (w ++ s) = run .after (.object :: stack) s := by
  obtain ⟨_, u, v, rfl, ⟨before, after, hbefore, hafter, rfl⟩, hv, rfl⟩ := h
  obtain ⟨body, hbody, hquoted⟩ := hkey
  have hwaits : Waits mode (.object :: stack) := by
    rcases hmode with rfl | rfl
    · exact .firstKey _
    · exact .key _
  have hquote : step mode (.object :: stack) 34 = .go (.text true) (.object :: stack) := by
    rcases hmode with rfl | rfl <;> rfl
  have hcolon : step .colon (.object :: stack) 58 = .go .value (.object :: stack) := rfl
  rw [hquoted]
  simp only [List.append_assoc, List.cons_append, List.nil_append]
  rw [hwaits.run_gap hbefore, run_go hquote, run_keyText hbody, (Waits.colon _).run_gap hafter,
    run_go hcolon, hvalue.spaced hv .object stack hs]

theorem run_members {ms : List (Octets × Octets)} {w : Octets}
    (h : Separated (RendersMember Eq) ms w) (hkeys : ∀ m ∈ ms, IsQuoted m.1)
    (hvalues : ∀ m ∈ ms, Skips m.2) {mode : Mode} (hmode : mode = .firstKey ∨ mode = .key)
    (stack : List Bracket) (s : Octets) :
    run mode (.object :: stack) (w ++ 125 :: s) = resume stack s := by
  induction h generalizing mode with
  | one hm =>
    rw [run_member hm (hkeys _ List.mem_cons_self) (hvalues _ List.mem_cons_self) hmode stack
      (numberStops_cons (.inr (.inl rfl)) s), run_object_end]
  | more hm _ ih =>
    rw [List.append_assoc, List.cons_append,
      run_member hm (hkeys _ List.mem_cons_self) (hvalues _ List.mem_cons_self) hmode stack
        (numberStops_cons (.inl rfl) _), run_comma_member]
    exact ih (fun m hmem => hkeys m (List.mem_cons_of_mem _ hmem))
      (fun m hmem => hvalues m (List.mem_cons_of_mem _ hmem)) (.inr rfl)

theorem run_object {ms : List (Octets × Octets)} {w : Octets} (h : RendersObject Eq ms w)
    (hkeys : ∀ m ∈ ms, IsQuoted m.1) (hvalues : ∀ m ∈ ms, Skips m.2) : Skips w := by
  obtain ⟨inside, h, rfl⟩ := h
  intro stack s _
  have hopen : step .value stack 123 = .go .firstKey (.object :: stack) := rfl
  rw [List.cons_append, run_go hopen, List.append_assoc, List.singleton_append]
  cases h with
  | empty hg =>
    rw [(Waits.firstKey _).run_gap hg]
    exact run_ended (by simp [step, isSpace]) s
  | items h => exact run_members h hkeys hvalues (.inl rfl) stack s

end Skip

/-! ## Values -/

theorem ofNat_begins (n : Nat) : ∃ d ds, Octets.ofNat n = d :: ds ∧ Octets.isDigit d = true := by
  obtain ⟨d, ds, hds, -⟩ := Octets.ofNat_eq_cons n
  exact ⟨d, ds, hds, Octets.isDigit_of_mem_ofNat n d (by rw [hds]; exact List.mem_cons_self)⟩

theorem IsNumber.begins {w : Octets} (h : IsNumber w) :
    ∃ c t, w = c :: t ∧ (c = 45 ∨ Octets.isDigit c = true) := by
  obtain ⟨n, hsign, -, -⟩ := h
  rcases hsign with rfl | rfl
  · obtain ⟨d, ds, hds, hd⟩ := ofNat_begins n
    exact ⟨d, _, by rw [hds]; rfl, .inr hd⟩
  · exact ⟨45, _, rfl, .inl rfl⟩

/-- No number begins with one of the bytes that other values begin with. -/
theorem begins_ne {c : UInt8} (hc : c = 45 ∨ Octets.isDigit c = true) :
    ∀ b ∈ [32, 9, 10, 13, 93, 110, 116, 102, 34, 91, 123], c ≠ b := by
  have hnone : ∀ b ∈ [32, 9, 10, 13, 93, 110, 116, 102, 34, 91, 123],
      ¬(b = 45 ∨ Octets.isDigit b = true) := by simp [Octets.isDigit]
  rintro b hb rfl
  exact hnone c hb hc

/-- The first byte of a value tells its kind. -/
structure Heads (c : UInt8) (v : Octets) : Prop where
  item : isSpace c = false ∧ c ≠ 93
  null : c = 110 → v = writeNull
  flag : c = 116 ∨ c = 102 → ∃ b, v = writeFlag b
  number : c = 45 ∨ Octets.isDigit c = true → IsNumber v
  text : c = 34 → IsQuoted v
  array : c = 91 → ∃ vs, IsArray vs v
  object : c = 123 → ∃ ms : List (Octets × Octets),
    RendersObject Eq ms v ∧ (∀ m ∈ ms, IsQuoted m.1) ∧ ∀ m ∈ ms, IsValue m.2

theorem Heads.of_number {c : UInt8} {v : Octets} (h : IsNumber v)
    (hc : c = 45 ∨ Octets.isDigit c = true) : Heads c v := by
  have hother := begins_ne hc
  simp only [List.forall_mem_cons] at hother
  constructor <;> simp [isSpace, hother, h]

theorem IsValue.heads {v : Octets} (h : IsValue v) : ∃ c t, v = c :: t ∧ Heads c v := by
  cases h with
  | null =>
    refine ⟨110, ull, writeNull_eq, ?_⟩
    constructor <;> simp [isSpace, Octets.isDigit]
  | flag b =>
    have hflag : ∃ b', writeFlag b = writeFlag b' := ⟨b, rfl⟩
    cases b with
    | true =>
      refine ⟨116, rue, writeFlag_true, ?_⟩
      constructor <;> simp [isSpace, Octets.isDigit, hflag]
    | false =>
      refine ⟨102, alse, writeFlag_false, ?_⟩
      constructor <;> simp [isSpace, Octets.isDigit, hflag]
  | number h =>
    obtain ⟨c, t, hv, hc⟩ := h.begins
    exact ⟨c, t, hv, .of_number h hc⟩
  | text h =>
    obtain ⟨body, hbody, rfl⟩ := id h
    refine ⟨34, _, rfl, ?_⟩
    constructor <;> simp [isSpace, Octets.isDigit, h]
  | array h values =>
    obtain ⟨inside, hinside, rfl⟩ := id h
    refine ⟨91, _, rfl, ?_⟩
    constructor <;> simp [isSpace, Octets.isDigit]
    exact ⟨_, h, values⟩
  | object h keys values =>
    obtain ⟨inside, hinside, rfl⟩ := id h
    refine ⟨123, _, rfl, ?_⟩
    constructor <;> simp [isSpace, Octets.isDigit, -Prod.forall]
    exact ⟨_, h, keys, values⟩

theorem IsValue.begins {v : Octets} (h : IsValue v) : BeginsItem v := by
  obtain ⟨c, t, hv, hc⟩ := h.heads
  exact ⟨c, t, hv, hc.item⟩

/-- Every value is skipped whole, in whatever brackets it stands. -/
theorem IsValue.skips {v : Octets} (h : IsValue v) : Skip.Skips v := by
  induction h with
  | null =>
    intro stack s _
    have hword : Skip.step .value stack 110 = .go (.word ull) stack := rfl
    rw [writeNull_eq, List.cons_append, Skip.run_go hword]
    exact Skip.run_word (by decide) stack s
  | flag b =>
    intro stack s _
    cases b with
    | true =>
      have hword : Skip.step .value stack 116 = .go (.word rue) stack := rfl
      rw [writeFlag_true, List.cons_append, Skip.run_go hword]
      exact Skip.run_word (by decide) stack s
    | false =>
      have hword : Skip.step .value stack 102 = .go (.word alse) stack := rfl
      rw [writeFlag_false, List.cons_append, Skip.run_go hword]
      exact Skip.run_word (by decide) stack s
  | number h => exact fun stack s hs => Skip.run_number h stack hs
  | text h =>
    obtain ⟨body, hbody, rfl⟩ := h
    intro stack s _
    have hquote : Skip.step .value stack 34 = .go (.text false) stack := rfl
    rw [enclosed_append, Skip.run_go hquote]
    exact Skip.run_text hbody stack s
  | array h values ih => exact Skip.run_array h ih fun v hv => (values v hv).begins
  | object h keys _ ih => exact Skip.run_object h keys ih

theorem skipValue_value {g v rest : Octets} (hg : Gap g) (hv : IsValue v)
    (hr : NumberStops rest) : Skip.skipValue (g ++ (v ++ rest)) = .ok rest := by
  rw [Skip.skipValue, (Skip.Waits.value []).run_gap hg]
  exact hv.skips [] rest hr

end Aerial.Json
