import Aerial.Proofs.Json.Objects

/-! # What a record is read as

A record is read from an object as its members say and from an array as the members in declared
order would. It is refused if a known member comes twice, if the value of one is refused, or if
what was read does not make a record. Of an accepted object every known member is found under its
key, wherever it stood. -/

namespace Aerial.Json

variable {α γ κ : Type}

namespace Record

variable (r : Record γ α)

def assembled (cells : Cells γ) : Option α := (r.assemble fun key => cells.lookup key).toOption

/-- The record that an object of these members is. -/
def ofMembers (key? : κ → Option String) (ms : List (κ × Octets)) : Option α :=
  (takeMembers key? r.members [] ms).bind r.assembled

/-- Whether an array of this length may be such a record. -/
def Fits (n : Nat) : Prop := n ≤ r.members.length ∧ (r.optional = false → n = r.members.length)

instance (n : Nat) : Decidable (r.Fits n) := by unfold Fits; infer_instance

/-- The record that an array of these elements is. -/
def ofElements (vs : List Octets) : Option α :=
  if r.Fits vs.length then (takeElements r.members vs).bind r.assembled else none

def names : List String := r.members.map Member.name

variable {r}

theorem gives_build (cells : Cells γ) {rest : Octets} {f : α → Except ReadError (α × Octets)}
    (hf : ∀ a, f a = .ok (a, rest)) : Gives (r.build cells >>= f) rest (r.assembled cells) := by
  unfold build assembled
  cases r.assemble fun key => cells.lookup key with
  | ok a => exact .takes (hf a)
  | error why => exact .refuses rfl

theorem patient_read : Patient r.read := by
  intro g s hg
  rw [Record.read, Record.read, skipSpace_gap hg]

/-! ## Objects -/

theorem judges_members {spells : κ → Octets → Prop} {key? : κ → Option String}
    (hready : Ready r.members) {ms : List (κ × Octets)} {w : Octets}
    (h : RendersObject spells ms w) (hkeys : ∀ m ∈ ms, TellsKeys spells key? m.1)
    (hvalues : ∀ m ∈ ms, IsValue m.2) : Judges r.read w (r.ofMembers key? ms) := by
  obtain ⟨inside, hinside, rfl⟩ := h
  intro rest _
  have hmembers := gives_readMembers_inside hready hinside hkeys hvalues rest
  rw [enclosed_append, Record.read, skipSpace_cons (by decide)]
  exact hmembers.bind fun cells _ => gives_build cells fun _ => rfl

/-- An object is the record that its members are, in whatever rendering. -/
theorem judges_object (hready : Ready r.members) {ms : List (String × Octets)} {w : Octets}
    (h : IsObject ms w) : Judges r.read w (r.ofMembers some ms) :=
  judges_members hready h.renders (fun m _ => tellsKeys_text m.1) h.values

/-! ## Arrays -/

theorem length_takeElements {members : List (Member γ)} {vs : List Octets} {cells : Cells γ}
    (h : takeElements members vs = some cells) : cells.length = min members.length vs.length := by
  induction members generalizing vs cells with
  | nil =>
    cases h
    simp
  | cons m members ih =>
    cases vs with
    | nil =>
      cases h
      simp
    | cons v vs =>
      obtain ⟨c, -, h⟩ := Option.bind_eq_some_iff.mp h
      obtain ⟨cells, hcells, rfl⟩ := Option.map_eq_some_iff.mp h
      simp only [List.length_cons, ih hcells]
      omega

theorem gives_readElements_inside {members : List (Member γ)}
    (hdecides : ∀ m ∈ members, Decides m.read) {vs : List Octets} {w : Octets}
    (h : Inside Spaced vs w) (hvalues : ∀ v ∈ vs, IsValue v) (rest : Octets) :
    ∃ after, EndsArray members vs after rest ∧
      Gives (readElements members true (w ++ 93 :: rest)) after (takeElements members vs) := by
  cases h with
  | empty hg =>
    refine ⟨w ++ 93 :: rest, ⟨fun _ => readArrayEnd_gap hg rest, fun hlt => by simp at hlt⟩, ?_⟩
    rw [readElements_end members true hg]
    cases members <;> exact .takes rfl
  | items h => exact gives_readElements h hvalues hdecides (.first gap_nil) rest

/-- An array is the record that its elements are. There must be enough of them and not too
many. -/
theorem judges_array (hready : Ready r.members) {vs : List Octets} {w : Octets}
    (h : IsArray vs w) : Judges r.read w (r.ofElements vs) := by
  obtain ⟨⟨inside, hinside, rfl⟩, hvalues⟩ := h
  intro rest _
  obtain ⟨after, hafter, helements⟩ := gives_readElements_inside
    (fun m hm => (hready m hm).1) hinside hvalues rest
  rw [enclosed_append, Record.read, skipSpace_cons (by decide)]
  show Gives (r.readArray (inside ++ 93 :: rest)) rest (r.ofElements vs)
  have hofElements : r.ofElements vs = (takeElements r.members vs).bind fun cells =>
      if r.Fits vs.length then r.assembled cells else none := by
    unfold ofElements
    split
    · rfl
    · simp
  rw [hofElements]
  refine helements.bind fun cells hcells => ?_
  have hlength := length_takeElements hcells
  dsimp only
  split
  · rename_i hshort
    simp only [Bool.and_eq_true, Bool.not_eq_true', decide_eq_true_eq] at hshort
    have hfits : ¬r.Fits vs.length := by
      rintro ⟨-, hall⟩
      have := hall hshort.1
      omega
    rw [if_neg hfits]
    exact .refuses rfl
  · rename_i hlong
    simp only [Bool.and_eq_true, Bool.not_eq_true', decide_eq_true_eq, not_and, Nat.not_lt] at hlong
    by_cases hmore : r.members.length < vs.length
    · have hfits : ¬r.Fits vs.length := fun hfits => absurd hfits.1 (by omega)
      rw [if_neg hfits, hafter.more hmore]
      cases r.build cells with
      | error e => exact .refuses rfl
      | ok a => exact .refuses rfl
    · have hfits : r.Fits vs.length := ⟨by omega, fun hall => by have := hlong hall; omega⟩
      rw [if_pos hfits]
      exact gives_build cells fun a => by rw [hafter.closed (by omega)]; rfl

/-- A record decides, since its members do. -/
theorem decides_read (hready : Ready r.members) : Decides r.read := by
  intro v hv
  obtain ⟨c, t, rfl, hc⟩ := hv.heads
  by_cases hobject : c = 123
  · obtain ⟨ms, hrenders, hkeys, hvalues⟩ := hc.object hobject
    have htells := fun m hm => tellsKeys_quoted (hkeys m hm)
    exact ⟨_, judges_members hready hrenders htells hvalues⟩
  by_cases harray : c = 91
  · obtain ⟨vs, hvs⟩ := hc.array harray
    exact ⟨_, judges_array hready hvs⟩
  · refine ⟨none, fun rest _ => ?_⟩
    rw [List.cons_append, Record.read, skipSpace_cons hc.item.1]
    simp only [if_neg hobject, if_neg harray]
    exact .refuses rfl

end Record

end Aerial.Json
