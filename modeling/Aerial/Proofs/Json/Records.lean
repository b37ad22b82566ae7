import Aerial.Json.Record
import Aerial.Proofs.Json.Scalars

/-! # Records and lists are read back as they were written

`Spells read w a` says that a reader takes `w` for `a` and leaves what follows. It
lifts from values to records and lists: a record written with members it knows, each
once and each spelling its cell, is read as exactly these cells in their order, and
a list of spelled items as the list of what they spell. -/

namespace Aerial.Json

variable {γ α : Type}

/-- The reader takes `w` for `a`, whatever a value may be followed by. -/
def Spells (read : Octets → Except ReadError (α × Octets)) (w : Octets) (a : α) : Prop :=
  ∀ rest, NumberStops rest → read (w ++ rest) = .ok (a, rest)

theorem numberStops_nil : NumberStops [] := by simp [NumberStops]

theorem numberStops_cons {c : UInt8} (h : c = 44 ∨ c = 125 ∨ c = 93) (rest : Octets) :
    NumberStops (c :: rest) := by
  intro d hd
  simp only [List.head?_cons, Option.mem_def, Option.some.injEq] at hd
  subst hd
  rcases h with rfl | rfl | rfl <;> decide

theorem decode_of_spells {read : Octets → Except ReadError (α × Octets)} {w : Octets} {a : α}
    (h : Spells read w a) : decode read w = .ok a := by
  have hread := h [] numberStops_nil
  rw [List.append_nil] at hread
  simp [decode, hread, bind, Except.bind, pure, Except.pure, skipSpace]

/-! ## Separated texts -/

/-- Texts with a comma before each. -/
def afterCommas (ws : List Octets) : Octets := ws.flatMap (44 :: ·)

theorem afterCommas_cons (w : Octets) (ws : List Octets) (rest : Octets) :
    afterCommas (w :: ws) ++ rest = 44 :: (w ++ (afterCommas ws ++ rest)) := by
  simp [afterCommas]

theorem commaSeparated_cons (w : Octets) (ws : List Octets) :
    commaSeparated (w :: ws) = w ++ afterCommas ws := by
  induction ws generalizing w with
  | nil => simp [commaSeparated, afterCommas]
  | cons v ws ih =>
    have hcons : commaSeparated (w :: v :: ws) = w ++ 44 :: commaSeparated (v :: ws) := by
      simp [commaSeparated, List.intercalate]
    rw [hcons, ih v]
    simp [afterCommas]

theorem length_le_afterCommas (ws : List Octets) : ws.length ≤ (afterCommas ws).length := by
  induction ws with
  | nil => simp
  | cons w ws ih =>
    simp only [afterCommas, List.flatMap_cons, List.length_append, List.length_cons] at ih ⊢
    omega

/-- Neither a further text nor the closing bracket continues a number. -/
theorem numberStops_afterCommas {close : UInt8} (h : close = 125 ∨ close = 93) (ws : List Octets)
    (rest : Octets) : NumberStops (afterCommas ws ++ close :: rest) := by
  cases ws with
  | nil => exact numberStops_cons (.inr h) rest
  | cons w ws => exact numberStops_cons (.inl rfl) _

/-! ## Objects -/

/-- A member as it is written, and the cell it is to be read as. -/
structure Entry (γ : Type) where
  key : String
  written : Octets
  cell : γ

namespace Entry

/-- The entry's key is known, and its text spells its cell. -/
def Fits (members : List (Member γ)) (e : Entry γ) : Prop :=
  ∃ m, members.find? (·.name = e.key) = some m ∧ Spells m.read e.written e.cell

def text (e : Entry γ) : Octets := writeMember e.key e.written

/-- The text of an entry after the opening quote of its key. -/
theorem text_append (e : Entry γ) (rest : Octets) :
    e.text ++ rest =
      34 :: ((Octets.ofString e.key).flatMap escapeByte ++ 34 :: 58 :: (e.written ++ rest)) := by
  simp [Entry.text, writeMember, writeText]

end Entry

def cellsOf (es : List (Entry γ)) : Cells γ := es.map fun e => (e.key, e.cell)

theorem lookup_eq_none {cells : Cells γ} {key : String} (h : key ∉ cells.map Prod.fst) :
    cells.lookup key = none := by
  rw [List.lookup_eq_none_iff]
  intro p hp
  simp only [bne_iff_ne, ne_eq]
  rintro rfl
  exact h (List.mem_map_of_mem hp)

theorem readColon_cons (rest : Octets) : readColon (58 :: rest) = .ok rest := by
  simp [readColon, skipSpace_cons (show isSpace 58 = false by decide)]

theorem readMember_entry {members : List (Member γ)} {cells : Cells γ} {e : Entry γ}
    {rest : Octets} (h : e.Fits members) (hnew : e.key ∉ cells.map Prod.fst)
    (hr : NumberStops rest) :
    readMember members cells
        ((Octets.ofString e.key).flatMap escapeByte ++ 34 :: 58 :: (e.written ++ rest))
      = .ok (cells ++ [(e.key, e.cell)], rest) := by
  obtain ⟨m, hfind, hspells⟩ := h
  simp [readMember, Text.read_written, bind, Except.bind, pure, Except.pure, hfind,
    lookup_eq_none hnew, readColon_cons, hspells rest hr]

theorem nextKey_end (first : Bool) (rest : Octets) : nextKey first (125 :: rest) = .ok none := by
  simp [nextKey, skipSpace_cons (show isSpace 125 = false by decide)]

theorem nextKey_first (s : Octets) : nextKey true (34 :: s) = .ok (some s) := by
  simp [nextKey, skipSpace_cons (show isSpace 34 = false by decide)]

theorem nextKey_later (s : Octets) : nextKey false (44 :: 34 :: s) = .ok (some s) := by
  simp [nextKey, skipSpace_cons (show isSpace 44 = false by decide),
    skipSpace_cons (show isSpace 34 = false by decide)]

theorem readMembers_later {members : List (Member γ)} :
    ∀ (es : List (Entry γ)) (rounds : Octets) (cells : Cells γ) (rest : Octets),
      es.length < rounds.length → (∀ e ∈ es, e.Fits members) →
      (cells.map Prod.fst ++ es.map Entry.key).Nodup →
      readMembers members rounds false cells (afterCommas (es.map Entry.text) ++ 125 :: rest)
        = .ok (cells ++ cellsOf es, 125 :: rest)
  | _, [], _, _, h, _, _ => by simp at h
  | [], _ :: _, cells, rest, _, _, _ => by
    simp [readMembers, nextKey_end, bind, Except.bind, pure, Except.pure, cellsOf, afterCommas,
      skipSpace_cons (show isSpace 125 = false by decide)]
  | e :: es, _ :: rounds, cells, rest, hlen, hfits, hnodup => by
    have hnew : e.key ∉ cells.map Prod.fst := fun hmem =>
      (List.nodup_append.mp hnodup).2.2 _ hmem _ (by simp) rfl
    have ih := readMembers_later es rounds (cells ++ [(e.key, e.cell)]) rest (by simpa using hlen)
      (fun x hx => hfits x (by simp [hx])) (by simpa using hnodup)
    have hread := readMember_entry (hfits e (by simp)) hnew
      (numberStops_afterCommas (.inl rfl) (es.map Entry.text) rest)
    rw [List.map_cons, afterCommas_cons, Entry.text_append]
    simp only [readMembers, nextKey_later, bind, Except.bind, hread]
    rw [ih]
    simp [cellsOf]

/-- An object of known members, each written once, is read as their cells. The text has a
round for each of them. -/
theorem readMembers_entries {members : List (Member γ)} {e : Entry γ} {es : List (Entry γ)}
    {rest : Octets} (hfits : ∀ x ∈ e :: es, x.Fits members)
    (hnodup : ((e :: es).map Entry.key).Nodup) :
    readMembers members (commaSeparated ((e :: es).map Entry.text) ++ 125 :: rest) true []
        (commaSeparated ((e :: es).map Entry.text) ++ 125 :: rest)
      = .ok (cellsOf (e :: es), 125 :: rest) := by
  have hnew : e.key ∉ ([] : Cells γ).map Prod.fst := by simp
  have hread := readMember_entry (hfits e (by simp)) hnew
    (numberStops_afterCommas (.inl rfl) (es.map Entry.text) rest)
  rw [List.map_cons, commaSeparated_cons, List.append_assoc, Entry.text_append]
  simp only [readMembers, nextKey_first, bind, Except.bind, hread]
  rw [readMembers_later]
  · simp [cellsOf]
  · have := length_le_afterCommas (es.map Entry.text)
    simp only [List.length_append, List.length_cons, List.length_map] at this ⊢
    omega
  · intro x hx
    exact hfits x (by simp [hx])
  · simpa using hnodup

/-- A record is assembled from the cells that its members were written for. -/
theorem Record.spells_writeObject {r : Record γ α} {a : α} (es : List (Entry γ)) (hne : es ≠ [])
    (hfits : ∀ e ∈ es, e.Fits r.members) (hnodup : (es.map Entry.key).Nodup)
    (hbuild : r.build (cellsOf es) = .ok a) :
    Spells r.read (writeObject (es.map fun e => (e.key, e.written))) a := by
  intro rest _
  obtain ⟨e, es, rfl⟩ := List.exists_cons_of_ne_nil hne
  have hwritten : writeObject ((e :: es).map fun e => (e.key, e.written)) ++ rest
      = 123 :: (commaSeparated ((e :: es).map Entry.text) ++ 125 :: rest) := by
    simp only [writeObject, List.map_map, List.cons_append, List.append_assoc, List.nil_append]
    rfl
  rw [hwritten, Record.read, skipSpace_cons (by decide)]
  simp only [if_true, Record.readObject, bind, Except.bind, pure, Except.pure,
    readMembers_entries hfits hnodup, hbuild, List.drop_succ_cons, List.drop_zero]

/-! ## Lists -/

/-- An item of a list begins with a byte that neither is space nor closes the list. -/
def BeginsItem (w : Octets) : Prop := ∃ c t, w = c :: t ∧ isSpace c = false ∧ c ≠ 93

theorem nextElement_end (first : Bool) (rest : Octets) :
    nextElement first (93 :: rest) = .ok none := by
  simp [nextElement, skipSpace_cons (show isSpace 93 = false by decide)]

theorem nextElement_first {w : Octets} (h : BeginsItem w) (rest : Octets) :
    nextElement true (w ++ rest) = .ok (some (w ++ rest)) := by
  obtain ⟨c, t, rfl, hspace, hne⟩ := h
  simp [nextElement, skipSpace_cons hspace, hne]

theorem nextElement_later {w : Octets} (h : BeginsItem w) (rest : Octets) :
    nextElement false (44 :: (w ++ rest)) = .ok (some (w ++ rest)) := by
  obtain ⟨c, t, rfl, hspace, hne⟩ := h
  simp [nextElement, skipSpace_cons (show isSpace 44 = false by decide), skipSpace_cons hspace, hne]

theorem readItems_later {read : Octets → Except ReadError (α × Octets)} :
    ∀ (items : List (Octets × α)) (rounds rest : Octets), items.length < rounds.length →
      (∀ p ∈ items, BeginsItem p.1 ∧ Spells read p.1 p.2) →
      readItems read rounds false (afterCommas (items.map Prod.fst) ++ 93 :: rest)
        = .ok (items.map Prod.snd, 93 :: rest)
  | _, [], _, h, _ => by simp at h
  | [], _ :: _, rest, _, _ => by
    simp [readItems, nextElement_end, bind, Except.bind, pure, Except.pure, afterCommas]
  | p :: items, _ :: rounds, rest, hlen, hitems => by
    have ih := readItems_later items rounds rest (by simpa using hlen)
      (fun x hx => hitems x (by simp [hx]))
    obtain ⟨hbegins, hspells⟩ := hitems p (by simp)
    have hread := hspells _ (numberStops_afterCommas (.inr rfl) (items.map Prod.fst) rest)
    rw [List.map_cons, afterCommas_cons]
    simp only [readItems, nextElement_later hbegins, bind, Except.bind, pure, Except.pure,
      hread, ih, List.map_cons]

theorem readItems_items {read : Octets → Except ReadError (α × Octets)} {items : List (Octets × α)}
    {rest : Octets} (h : ∀ p ∈ items, BeginsItem p.1 ∧ Spells read p.1 p.2) :
    readItems read (commaSeparated (items.map Prod.fst) ++ 93 :: rest) true
        (commaSeparated (items.map Prod.fst) ++ 93 :: rest)
      = .ok (items.map Prod.snd, 93 :: rest) := by
  cases items with
  | nil => simp [commaSeparated, readItems, nextElement_end, bind, Except.bind, pure, Except.pure]
  | cons p items =>
    obtain ⟨hbegins, hspells⟩ := h p (by simp)
    have hread := hspells _ (numberStops_afterCommas (.inr rfl) (items.map Prod.fst) rest)
    have hnext := nextElement_first hbegins (afterCommas (items.map Prod.fst) ++ 93 :: rest)
    obtain ⟨c, t, hct, _⟩ := hbegins
    rw [List.map_cons, commaSeparated_cons, List.append_assoc]
    rw [hct, List.cons_append] at hread hnext ⊢
    simp only [readItems, hnext, bind, Except.bind, pure, Except.pure, hread]
    rw [readItems_later]
    · rfl
    · have := length_le_afterCommas (items.map Prod.fst)
      simp only [List.length_append, List.length_cons, List.length_map] at this ⊢
      omega
    · intro x hx
      exact h x (by simp [hx])

/-- A list is read item by item. -/
theorem spells_writeArray {read : Octets → Except ReadError (α × Octets)}
    {items : List (Octets × α)} (h : ∀ p ∈ items, BeginsItem p.1 ∧ Spells read p.1 p.2) :
    Spells (readList read) (writeArray (items.map Prod.fst)) (items.map Prod.snd) := by
  intro rest _
  have hwritten : writeArray (items.map Prod.fst) ++ rest
      = 91 :: (commaSeparated (items.map Prod.fst) ++ 93 :: rest) := by
    simp [writeArray]
  rw [hwritten, readList, skipSpace_cons (by decide)]
  simp only [readItems_items h, bind, Except.bind, pure, Except.pure, readArrayEnd,
    skipSpace_cons (show isSpace 93 = false by decide), if_true]

end Aerial.Json
