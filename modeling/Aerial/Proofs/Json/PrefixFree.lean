import Aerial.Json.Record
import Aerial.Proofs.Json.Grammar
import Aerial.Proofs.Json.Locality
import Mathlib.Data.List.TakeWhile

/-! # No accepted text begins another

A member of an object is followed by a comma or the closing brace, and an element of an
array by a comma or the closing bracket. So it is enough that the readers of the members are
steady for the record to be closed. A text that is accepted as a record is then accepted with
more behind it only if that is space, and as the same record: no message is a part of
another. -/

namespace Aerial.Json

variable {α γ : Type}

/-! ## Members -/

theorem nextKey_append {first : Bool} {s : Octets} {key : Option Octets}
    (h : nextKey first s = .ok key) (more : Octets) :
    nextKey first (s ++ more) = .ok (key.map (· ++ more)) := by
  refine afterSpace_append (fun _ => rfl) h fun c t h => ?_
  split at h
  · rename_i hend
    cases h
    rw [if_pos hend]
    rfl
  rename_i hend
  rw [if_neg hend]
  split at h
  · rename_i hfirst
    rw [if_pos hfirst]
    split at h
    · rename_i hquote
      cases h
      rw [if_pos hquote]
      rfl
    · cases h
  rename_i hfirst
  rw [if_neg hfirst]
  split at h
  · rename_i hcomma
    rw [if_pos hcomma]
    split at h
    · cases h
    · rename_i ht
      rw [skipSpace_append_of_cons ht]
      dsimp only
      split at h
      · rename_i hquote
        cases h
        rw [if_pos hquote]
        rfl
      · cases h
  · cases h

section

variable {members : List (Member γ)}

theorem steady_readMember (h : ∀ m ∈ members, Steady m.read) (cells : Cells γ) :
    Steady (readMember members cells) := by
  intro s cells' rest hread left more
  unfold readMember at hread ⊢
  obtain ⟨⟨key, t⟩, hkey, hread⟩ := bind_eq_ok_iff.mp hread
  refine bind_eq_ok_iff.mpr ⟨_, Text.closed_read hkey more, ?_⟩
  dsimp only at hread ⊢
  split at hread
  · rename_i m hfind
    split at hread
    · cases hread
    rename_i hnew
    obtain ⟨u, hcolon, hread⟩ := bind_eq_ok_iff.mp hread
    obtain ⟨⟨c, v⟩, hvalue, hread⟩ := bind_eq_ok_iff.mp hread
    cases hread
    have hsteady := h m (List.mem_of_find?_eq_some hfind)
    rw [if_neg hnew]
    exact bind_eq_ok_iff.mpr ⟨_, readColon_append hcolon more,
      bind_eq_ok_iff.mpr ⟨_, hsteady hvalue left more, rfl⟩⟩
  · obtain ⟨u, hcolon, hread⟩ := bind_eq_ok_iff.mp hread
    obtain ⟨v, hskip, hread⟩ := bind_eq_ok_iff.mp hread
    cases hread
    exact bind_eq_ok_iff.mpr ⟨_, readColon_append hcolon more,
      bind_eq_ok_iff.mpr ⟨_, Skip.skipValue_append hskip left more, rfl⟩⟩

/-- The members of an object end before its closing brace. -/
theorem readMembers_append (h : ∀ m ∈ members, Steady m.read) {rounds s rest : Octets}
    {first : Bool} {cells cells' : Cells γ}
    (hread : readMembers members rounds first cells s = .ok (cells', rest)) (extra more : Octets) :
    rest ≠ [] ∧
      readMembers members (rounds ++ extra) first cells (s ++ more) = .ok (cells', rest ++ more) := by
  induction rounds generalizing first cells s with
  | nil => cases hread
  | cons r rounds ih =>
    unfold readMembers at hread
    rw [List.cons_append, readMembers]
    obtain ⟨key, hkey, hread⟩ := bind_eq_ok_iff.mp hread
    cases key with
    | none =>
      cases hread
      have hspace : skipSpace s ≠ [] := by
        intro hspace
        rw [nextKey, hspace] at hkey
        cases hkey
      refine ⟨hspace, bind_eq_ok_iff.mpr ⟨_, nextKey_append hkey more, ?_⟩⟩
      rw [skipSpace_append hspace]
      rfl
    | some t =>
      obtain ⟨⟨cells₁, u⟩, hmember, hread⟩ := bind_eq_ok_iff.mp hread
      -- the object goes on after the member, if only to its end
      have hu : u ≠ [] := by
        rintro rfl
        cases rounds <;> cases hread
      obtain ⟨hrest, hread'⟩ := ih hread
      exact ⟨hrest, bind_eq_ok_iff.mpr ⟨_, nextKey_append hkey more,
        bind_eq_ok_iff.mpr ⟨_, steady_readMember h _ hmember hu more, hread'⟩⟩⟩

theorem nextElement_append {first : Bool} {s : Octets} {next : Option Octets}
    (h : nextElement first s = .ok next) (more : Octets) :
    nextElement first (s ++ more) = .ok (next.map (· ++ more)) := by
  refine afterSpace_append (fun _ => rfl) h fun c t h => ?_
  split at h
  · rename_i hend
    cases h
    rw [if_pos hend]
    rfl
  rename_i hend
  rw [if_neg hend]
  split at h
  · rename_i hfirst
    cases h
    rw [if_pos hfirst]
    rfl
  rename_i hfirst
  rw [if_neg hfirst]
  split at h
  · rename_i hcomma
    rw [if_pos hcomma]
    split at h
    · cases h
    · rename_i ht
      rw [skipSpace_append_of_cons ht]
      dsimp only
      split at h
      · cases h
      · rename_i hclose
        cases h
        rw [if_neg hclose]
        rfl
  · cases h

theorem readElements_nil {first : Bool} {cells : Cells γ} {rest : Octets}
    (hread : readElements members first [] = .ok (cells, rest)) : rest = [] := by
  cases members with
  | nil =>
    cases hread
    rfl
  | cons m members => cases hread

theorem readElements_append (h : ∀ m ∈ members, Steady m.read) {s rest : Octets}
    {first : Bool} {cells : Cells γ}
    (hread : readElements members first s = .ok (cells, rest)) (left : rest ≠ []) (more : Octets) :
    readElements members first (s ++ more) = .ok (cells, rest ++ more) := by
  induction members generalizing first s cells with
  | nil =>
    cases hread
    rfl
  | cons m members ih =>
    unfold readElements at hread ⊢
    obtain ⟨next, hnext, hread⟩ := bind_eq_ok_iff.mp hread
    refine bind_eq_ok_iff.mpr ⟨_, nextElement_append hnext more, ?_⟩
    cases next with
    | none =>
      cases hread
      rfl
    | some t =>
      obtain ⟨⟨c, u⟩, hvalue, hread⟩ := bind_eq_ok_iff.mp hread
      obtain ⟨⟨cells', v⟩, helements, hread⟩ := bind_eq_ok_iff.mp hread
      cases hread
      have hu : u ≠ [] := by
        rintro rfl
        exact left (readElements_nil helements)
      have hsteady := h m List.mem_cons_self
      have hrest := ih (fun m' hm' => h m' (List.mem_cons_of_mem m hm')) helements
      exact bind_eq_ok_iff.mpr ⟨_, hsteady hvalue hu more, bind_eq_ok_iff.mpr ⟨_, hrest, rfl⟩⟩

end

/-! ## Records -/

namespace Record

variable {r : Record γ α}

theorem closed_readObject (h : ∀ m ∈ r.members, Steady m.read) : Closed r.readObject := by
  intro s a rest hread more
  obtain ⟨⟨cells, t⟩, hmembers, hread⟩ := bind_eq_ok_iff.mp hread
  obtain ⟨_, hbuild, hread⟩ := bind_eq_ok_iff.mp hread
  cases hread
  obtain ⟨ht, hmembers⟩ := readMembers_append h hmembers more more
  refine bind_eq_ok_iff.mpr ⟨_, hmembers, bind_eq_ok_iff.mpr ⟨_, hbuild, ?_⟩⟩
  obtain ⟨c, u, rfl⟩ := List.exists_cons_of_ne_nil ht
  rfl

theorem closed_readArray (h : ∀ m ∈ r.members, Steady m.read) : Closed r.readArray := by
  intro s a rest hread more
  obtain ⟨⟨cells, t⟩, helements, hread⟩ := bind_eq_ok_iff.mp hread
  dsimp only at hread
  split at hread
  · cases hread
  rename_i hlength
  obtain ⟨_, hbuild, hread⟩ := bind_eq_ok_iff.mp hread
  obtain ⟨_, hend, hread⟩ := bind_eq_ok_iff.mp hread
  cases hread
  obtain ⟨ht, hend⟩ := expect_append (fun _ => rfl) hend more
  refine bind_eq_ok_iff.mpr ⟨_, readElements_append h helements ht more, ?_⟩
  dsimp only
  rw [if_neg hlength]
  exact bind_eq_ok_iff.mpr ⟨_, hbuild, bind_eq_ok_iff.mpr ⟨_, hend, rfl⟩⟩

/-- What is put after a record does not change it, however its members end. -/
theorem closed_read (h : ∀ m ∈ r.members, Steady m.read) : Closed r.read := by
  intro s a rest hread more
  refine afterSpace_append (fun _ => rfl) hread fun c t hread => ?_
  split at hread
  · rename_i hobject
    rw [if_pos hobject]
    exact closed_readObject h hread more
  rename_i hobject
  rw [if_neg hobject]
  split at hread
  · rename_i harray
    rw [if_pos harray]
    exact closed_readArray h hread more
  · cases hread

/-- A record begins with a bracket. -/
theorem opens {s : Octets} {p : α × Octets} (h : r.read s = .ok p) :
    ∃ c t, skipSpace s = c :: t ∧ (c = 123 ∨ c = 91) := by
  unfold Record.read at h
  cases hs : skipSpace s with
  | nil =>
    rw [hs] at h
    cases h
  | cons c t =>
    rw [hs] at h
    dsimp only at h
    split at h
    · rename_i hobject
      exact ⟨c, t, rfl, .inl hobject⟩
    split at h
    · rename_i harray
      exact ⟨c, t, rfl, .inr harray⟩
    · cases h

end Record

/-! ## Lists -/

/-- The elements of a list end before its closing bracket. -/
theorem readItems_append {read : Octets → Except ReadError (α × Octets)} (h : Steady read)
    {rounds s rest : Octets} {first : Bool} {as : List α}
    (hread : readItems read rounds first s = .ok (as, rest)) (extra more : Octets) :
    readItems read (rounds ++ extra) first (s ++ more) = .ok (as, rest ++ more) := by
  induction rounds generalizing first as s with
  | nil => cases hread
  | cons r rounds ih =>
    unfold readItems at hread
    rw [List.cons_append, readItems]
    obtain ⟨next, hnext, hread⟩ := bind_eq_ok_iff.mp hread
    refine bind_eq_ok_iff.mpr ⟨_, nextElement_append hnext more, ?_⟩
    cases next with
    | none =>
      cases hread
      rfl
    | some t =>
      obtain ⟨⟨a, u⟩, hitem, hread⟩ := bind_eq_ok_iff.mp hread
      obtain ⟨⟨as', v⟩, hitems, hread⟩ := bind_eq_ok_iff.mp hread
      cases hread
      -- the list goes on after its element, if only to its end
      have hu : u ≠ [] := by
        rintro rfl
        cases rounds <;> cases hitems
      exact bind_eq_ok_iff.mpr ⟨_, h hitem hu more, bind_eq_ok_iff.mpr ⟨_, ih hitems, rfl⟩⟩

theorem closed_readList {read : Octets → Except ReadError (α × Octets)} (h : Steady read) :
    Closed (readList read) := by
  intro s as rest hread more
  unfold readList at *
  split at hread
  · rename_i t hs
    obtain ⟨⟨items, u⟩, hitems, hread⟩ := bind_eq_ok_iff.mp hread
    obtain ⟨_, hend, hread⟩ := bind_eq_ok_iff.mp hread
    cases hread
    obtain ⟨-, hend⟩ := expect_append (fun _ => rfl) hend more
    rw [skipSpace_append_of_cons hs]
    exact bind_eq_ok_iff.mpr ⟨_, readItems_append h hitems more more,
      bind_eq_ok_iff.mpr ⟨_, hend, rfl⟩⟩
  · cases hread

/-! ## Whole texts -/

theorem decode_eq_ok_iff {read : Octets → Except ReadError (α × Octets)} {s : Octets} {a : α} :
    decode read s = .ok a ↔ ∃ rest, read s = .ok (a, rest) ∧ skipSpace rest = [] := by
  rw [decode, bind_eq_ok_iff]
  constructor
  · rintro ⟨⟨a', rest⟩, hread, h⟩
    dsimp only at h
    split at h
    · rename_i hrest
      cases h
      exact ⟨rest, hread, hrest⟩
    · cases h
  · rintro ⟨rest, hread, hrest⟩
    exact ⟨_, hread, if_pos hrest⟩

theorem skipSpace_eq_nil_iff {s : Octets} : skipSpace s = [] ↔ Gap s := List.dropWhile_eq_nil_iff

/-- If a text is accepted, just space may be put after it, and it does not matter. -/
theorem decode_append_iff {read : Octets → Except ReadError (α × Octets)} (closed : Closed read)
    {s more : Octets} {a b : α} (h : decode read s = .ok a) :
    decode read (s ++ more) = .ok b ↔ Gap more ∧ b = a := by
  obtain ⟨rest, hread, hrest⟩ := decode_eq_ok_iff.mp h
  have hspace : skipSpace (rest ++ more) = skipSpace more := by
    rw [skipSpace, List.dropWhile_append, if_pos (by simpa [skipSpace] using hrest)]
  rw [decode_eq_ok_iff, closed hread more, ← skipSpace_eq_nil_iff]
  constructor
  · rintro ⟨rest', heq, hrest'⟩
    cases heq
    exact ⟨hspace ▸ hrest', rfl⟩
  · rintro ⟨hmore, rfl⟩
    exact ⟨_, rfl, hspace.trans hmore⟩

/-- No accepted text is the beginning of another, but for the space after it. -/
structure PrefixFree (decode : Octets → Except ReadError α) : Prop where
  /-- Put after an accepted text, space changes nothing, and anything else is refused. -/
  extended : ∀ {t a}, decode t = .ok a → ∀ u b, decode (t ++ u) = .ok b ↔ Gap u ∧ b = a
  /-- No part that an accepted text begins with is accepted, unless only space is missing. -/
  truncated : ∀ {v w a}, decode (v ++ w) = .ok a → ¬Gap w → ∃ e, decode v = .error e

theorem Closed.prefixFree {read : Octets → Except ReadError (α × Octets)} (closed : Closed read) :
    PrefixFree (decode read) := by
  refine ⟨fun h u b => decode_append_iff closed h, fun {v w a} h hw => ?_⟩
  cases hv : decode read v with
  | error e => exact ⟨e, rfl⟩
  | ok b => exact absurd ((decode_append_iff closed hv).mp h).1 hw

end Aerial.Json
