import Aerial.Proofs.Json.Members
import Aerial.Wire.Notice

/-! # Kinds of notices in any rendering

The kind of a notice is its name, or an object with the name as its only key and `null` as the
value. The reader of kinds decides: whatever else stands there is refused, also an object that goes
on after its first member. -/

namespace Aerial.Wire
open Aerial.Json

theorem patient_readKind : Patient readKind := by
  intro g s hg
  rw [readKind, readKind, skipSpace_gap hg]

/-! ## Names -/

theorem gives_readKindName {s rest : Octets} {o : Option String}
    (h : Gives (Text.read s) rest o) :
    Gives (readKindName s) rest (o.bind Notice.Kind.ofName?) := by
  refine h.bind fun name _ => ?_
  dsimp only
  cases Notice.Kind.ofName? name with
  | some k => exact .takes rfl
  | none => exact .refuses rfl

theorem judges_readKind_quoted {w : Octets} {o : Option String} (hw : IsQuoted w)
    (h : Judges readText w o) : Judges readKind w (o.bind Notice.Kind.ofName?) := by
  obtain ⟨body, -, rfl⟩ := hw
  intro rest hr
  have hread := h rest hr
  rw [enclosed_append, readText_quote] at hread
  rw [enclosed_append, readKind, skipSpace_cons (by decide)]
  exact gives_readKindName hread

/-! ## Objects -/

/-- Of all values, only `null` is nothing. -/
theorem readNothing_value {g v : Octets} (hg : Gap g) (hv : IsValue v) :
    v = writeNull ∧ (∀ rest, readNothing (g ++ (v ++ rest)) = .ok rest) ∨
      v ≠ writeNull ∧ ∀ rest, ∃ e, readNothing (g ++ (v ++ rest)) = .error e := by
  by_cases heq : v = writeNull
  · refine .inl ⟨heq, fun rest => ?_⟩
    rw [heq, writeNull_eq, readNothing, skipSpace_gap hg, List.cons_append,
      skipSpace_cons (by decide)]
    exact spell_append ull rest
  · obtain ⟨c, t, rfl, hc⟩ := hv.heads
    refine .inr ⟨heq, fun rest => ?_⟩
    rw [readNothing, skipSpace_gap hg, List.cons_append, skipSpace_cons hc.item.1]
    split
    · rename_i hcons
      exact absurd (hc.null (List.cons.inj hcons).1) heq
    · exact ⟨_, rfl⟩

theorem readKindEnd_gap {g : Octets} (hg : Gap g) (rest : Octets) :
    readKindEnd (g ++ 125 :: rest) = .ok rest := by
  rw [readKindEnd, skipSpace_gap_cons hg (by decide)]
  rfl

theorem readKindEnd_comma {g : Octets} (hg : Gap g) (s : Octets) :
    readKindEnd (g ++ 44 :: s) = .error .malformed := by
  rw [readKindEnd, skipSpace_gap_cons hg (by decide)]
  rfl

section

variable {κ : Type} {spells : κ → Octets → Prop} {key? : κ → Option String}

/-- The kind that an object of one member is. -/
def kindOf (key? : κ → Option String) (m : κ × Octets) : Option Notice.Kind :=
  ((key? m.1).bind Notice.Kind.ofName?).bind fun k => if m.2 = writeNull then some k else none

/-- A member whose key is a kind, after the opening quote. -/
def readKindMember (s : Octets) : Except ReadError (Notice.Kind × Octets) := do
  let (k, s) ← readKindName s
  let s ← readColon s
  let s ← readNothing s
  pure (k, s)

theorem readKindObject_quote {g : Octets} (hg : Gap g) (s : Octets) :
    readKindObject (g ++ 34 :: s) = (do
      let (k, s) ← readKindMember s
      pure (k, ← readKindEnd s)) := by
  rw [readKindObject, skipSpace_gap_cons hg (by decide)]
  simp only [if_true, readKindMember, bind_assoc, pure_bind]

theorem gives_readKindMember {m : κ × Octets} {w : Octets} (hkey : TellsKeys spells key? m.1)
    (hvalue : IsValue m.2) (h : RendersMember spells m w) :
    ∃ before text after, Gap before ∧ Gap after ∧ w = before ++ 34 :: text ∧
      ∀ rest, Gives (readKindMember (text ++ rest)) (after ++ rest) (kindOf key? m) := by
  obtain ⟨before, text, ahead, after, hbefore, hahead, hafter, hw, hparts⟩ := h.apart hkey
  refine ⟨before, text, after, hbefore, hafter, hw, fun rest => ?_⟩
  obtain ⟨s, hread, hcolon⟩ := hparts rest
  refine (gives_readKindName hread).bind fun k _ => ?_
  dsimp only
  rw [hcolon]
  rcases readNothing_value hahead hvalue with ⟨heq, hnothing⟩ | ⟨hne, hnothing⟩
  · rw [if_pos heq]
    exact .takes (by simp only [bind, Except.bind, pure, Except.pure, hnothing])
  · obtain ⟨e, he⟩ := hnothing (after ++ rest)
    rw [if_neg hne]
    exact .refuses (by simp only [bind, Except.bind, he]; rfl)

/-- An object is a kind if its only member says so. -/
def kindOfMembers (key? : κ → Option String) : List (κ × Octets) → Option Notice.Kind
  | [m] => kindOf key? m
  | _ => none

theorem judges_readKind_object {ms : List (κ × Octets)} {w : Octets}
    (h : RendersObject spells ms w) (hkeys : ∀ m ∈ ms, TellsKeys spells key? m.1)
    (hvalues : ∀ m ∈ ms, IsValue m.2) : Judges readKind w (kindOfMembers key? ms) := by
  obtain ⟨inside, hinside, rfl⟩ := h
  intro rest _
  rw [enclosed_append, readKind, skipSpace_cons (by decide)]
  show Gives (readKindObject (inside ++ 125 :: rest)) rest (kindOfMembers key? ms)
  cases hinside with
  | empty hg =>
    rw [readKindObject, skipSpace_gap_cons hg (by decide)]
    exact .refuses rfl
  | items hitems =>
    cases hitems with
    | one hm =>
      obtain ⟨before, text, after, hbefore, hafter, rfl, hread⟩ := gives_readKindMember
        (hkeys _ List.mem_cons_self) (hvalues _ List.mem_cons_self) hm
      have hmember := hread (125 :: rest)
      rw [List.append_assoc, List.cons_append, readKindObject_quote hbefore, kindOfMembers,
        ← Option.bind_fun_some (kindOf key? _)]
      refine hmember.bind fun k _ => ?_
      dsimp only
      rw [readKindEnd_gap hafter]
      exact .takes rfl
    | @more m ms w v hm hitems =>
      obtain ⟨before, text, after, hbefore, hafter, rfl, hread⟩ := gives_readKindMember
        (hkeys _ List.mem_cons_self) (hvalues _ List.mem_cons_self) hm
      have hmember := hread (44 :: (v ++ 125 :: rest))
      have htext : before ++ 34 :: text ++ 44 :: v ++ 125 :: rest
          = before ++ 34 :: (text ++ 44 :: (v ++ 125 :: rest)) := by simp
      have hseveral : kindOfMembers key? (m :: ms) = none := by
        cases hitems <;> rfl
      rw [htext, readKindObject_quote hbefore, hseveral, ← Option.bind_fun_none (kindOf key? m)]
      refine hmember.bind fun k _ => ?_
      dsimp only
      rw [readKindEnd_comma hafter]
      exact .refuses rfl

end

theorem decides_readKind : Decides readKind := by
  intro v hv
  obtain ⟨c, t, rfl, hc⟩ := hv.heads
  by_cases hquote : c = 34
  · have hquoted := hc.text hquote
    exact ⟨_, judges_readKind_quoted hquoted (decides_readText.judges (.text hquoted))⟩
  by_cases hobject : c = 123
  · obtain ⟨ms, hrenders, hkeys, hvalues⟩ := hc.object hobject
    have htells := fun m hm => tellsKeys_quoted (hkeys m hm)
    exact ⟨_, judges_readKind_object hrenders htells hvalues⟩
  · refine ⟨none, fun rest _ => ?_⟩
    rw [List.cons_append, readKind, skipSpace_cons hc.item.1]
    simp only [if_neg hquote, if_neg hobject]
    exact .refuses rfl

end Aerial.Wire
