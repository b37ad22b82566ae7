import Aerial.Proofs.Bus.Readers

/-! # What a reader is due

Beside the ring there is a simpler account of one reader: the list of all that was published since
it came and that it has not been told of, however old. A position in the ring is such a list, with
the items that the ring has given up in front. What a receive yields follows from the list and the
number of slots alone. If the list is longer than the ring, the reader is told by how much, and the
ring still holds the rest; else it gets the first item. Nothing in this account is about other
readers. -/

namespace Aerial.Bus

variable {κ α : Type}

/-! ## The ring -/

/-- The ring gives nothing up before it is full, and stays full then. -/
structure Ring (b : Bus κ α) : Prop where
  room : 0 < b.slots
  fits : b.kept.length ≤ b.slots
  full : 0 < b.gone → b.kept.length = b.slots

theorem ring_create (capacity : Nat) : (create capacity : Bus κ α).Ring :=
  ⟨slotsFor_pos capacity, Nat.zero_le _, fun h => absurd h (Nat.lt_irrefl 0)⟩

theorem Ring.publishAll {b : Bus κ α} (h : b.Ring) (as : List α) : (b.publishAll as).Ring := by
  have hfits := h.fits
  have hfull := h.full
  refine ⟨h.room, ?_, fun hgone => ?_⟩
  · simp only [Bus.publishAll, List.length_drop, List.length_append]
    omega
  · simp only [Bus.publishAll, List.length_drop, List.length_append] at hgone ⊢
    omega

/-- Who reads and whether the bus is open is not for the ring. -/
theorem Ring.readers {b : Bus κ α} (h : b.Ring) (readers : List (κ × Nat)) (isOpen : Bool) :
    Ring { b with readers := readers, isOpen := isOpen } :=
  ⟨h.room, h.fits, h.full⟩

/-- Publishing nothing changes nothing. -/
theorem Ring.publishAll_nil {b : Bus κ α} (h : b.Ring) : b.publishAll [] = b := by
  simp only [Bus.publishAll, List.append_nil, Nat.sub_eq_zero_of_le h.fits, List.drop_zero,
    Nat.add_zero]

/-! ## Accounts -/

/-- The items tell of these events in their order, of some only how many they are. -/
inductive Covers : List (Item α) → List α → Prop where
  | nil : Covers [] []
  | event (a : α) {items : List (Item α)} {as : List α} (h : Covers items as) :
      Covers (.event a :: items) (a :: as)
  | lagged (lost : List α) {items : List (Item α)} {as : List α} (h : Covers items as) :
      Covers (.lagged lost.length :: items) (lost ++ as)

theorem Covers.append {items more : List (Item α)} {as bs : List α} (h : Covers items as)
    (h' : Covers more bs) : Covers (items ++ more) (as ++ bs) := by
  induction h with
  | nil => exact h'
  | event a _ ih => exact ih.event a
  | lagged lost _ ih =>
    rw [List.append_assoc]
    exact ih.lagged lost

theorem covers_events (as : List α) : Covers (as.map .event) as := by
  induction as with
  | nil => exact .nil
  | cons a as ih => exact ih.event a

/-- Of these unread events, those that there are no slots for: the oldest. -/
def lapsed (slots : Nat) (unread : List α) : List α := unread.take (unread.length - slots)

def retained (slots : Nat) (unread : List α) : List α := unread.drop (unread.length - slots)

/-- The next receive of a reader with these unread events, and what is unread after it. -/
def due (slots : Nat) (isOpen : Bool) (unread : List α) : Received α × List α :=
  if slots < unread.length then (.item (.lagged (unread.length - slots)), retained slots unread)
  else match unread with
    | a :: rest => (.item (.event a), rest)
    | [] => (if isOpen then .empty else .closed, [])

/-- All receives of a reader with these unread events, until it runs empty. -/
def allDue (slots : Nat) (unread : List α) : List (Item α) :=
  (if slots < unread.length then [.lagged (unread.length - slots)] else [])
    ++ (retained slots unread).map .event

/-- The items of a receive: one, or none at the end. -/
def Received.items : Received α → List (Item α)
  | .item i => [i]
  | .empty | .closed => []

theorem covers_lagged {slots : Nat} {unread : List α} (h : slots < unread.length) :
    Covers [.lagged (unread.length - slots)] (lapsed slots unread) := by
  have hcovers := Covers.nil.lagged (lapsed slots unread)
  have hlength : (lapsed slots unread).length = unread.length - slots := by
    rw [lapsed, List.length_take]
    omega
  rwa [List.append_nil, hlength] at hcovers

theorem covers_due (slots : Nat) (isOpen : Bool) (unread : List α) :
    ∃ read, unread = read ++ (due slots isOpen unread).2 ∧
      Covers (due slots isOpen unread).1.items read := by
  unfold due
  split
  · rename_i h
    exact ⟨lapsed slots unread, (List.take_append_drop ..).symm, covers_lagged h⟩
  · cases unread with
    | cons a rest => exact ⟨[a], rfl, .event a .nil⟩
    | nil => exact ⟨[], rfl, by cases isOpen <;> exact .nil⟩

theorem covers_allDue (slots : Nat) (unread : List α) : Covers (allDue slots unread) unread := by
  rw [allDue]
  split
  · rename_i h
    have hall := (covers_lagged h).append (covers_events (retained slots unread))
    rwa [lapsed, retained, List.take_append_drop] at hall
  · rename_i h
    rw [retained, Nat.sub_eq_zero_of_le (by omega)]
    exact covers_events unread

variable [DecidableEq κ]

/-- Reader `k` has yet to read `unread`, the part that the ring has given up included. -/
def Awaits (b : Bus κ α) (k : κ) (unread : List α) : Prop :=
  ∃ p given, b.position? k = some p ∧ p ≤ b.tip ∧ given.length = b.gone - p ∧
    unread = given ++ b.pending p

/-- The ring has given up what there are no slots for, and keeps the rest. -/
theorem Awaits.position {b : Bus κ α} {k : κ} {unread : List α} (ring : b.Ring)
    (h : b.Awaits k unread) :
    ∃ p, b.position? k = some p ∧ p ≤ b.tip ∧ b.gone - p = unread.length - b.slots ∧
      b.pending p = retained b.slots unread := by
  obtain ⟨p, given, hp, htip, hgiven, rfl⟩ := h
  have hfits := ring.fits
  have hfull := ring.full
  have hlength : given.length = (given ++ b.pending p).length - b.slots := by
    simp only [List.length_append, pending, List.length_drop]
    omega
  refine ⟨p, hp, htip, hgiven ▸ hlength, ?_⟩
  rw [retained, ← hlength, List.drop_left]

/-- A reader that has fallen behind is left with all that the ring keeps. -/
theorem Awaits.retained_eq_kept {b : Bus κ α} {k : κ} {unread : List α} (ring : b.Ring)
    (h : b.Awaits k unread) (behind : b.slots < unread.length) :
    retained b.slots unread = b.kept := by
  obtain ⟨p, -, -, hlost, hpending⟩ := h.position ring
  rw [← hpending, pending, Nat.sub_eq_zero_of_le (by omega)]
  rfl

/-! ## Publishing -/

theorem Awaits.publishAll {b : Bus κ α} {k : κ} {unread : List α} (h : b.Awaits k unread)
    (as : List α) : (b.publishAll as).Awaits k (unread ++ as) := by
  obtain ⟨p, given, hp, htip, hgiven, rfl⟩ := h
  have hgone := b.gone_le_publishAll as
  -- what the ring gives up now was pending, or is not even kept
  have hlost : (b.publishAll as).gone - max p b.gone ≤ (b.pending p ++ as).length := by
    simp only [tip] at htip
    simp only [Bus.publishAll, pending, List.length_append, List.length_drop]
    omega
  refine ⟨p, given ++ (b.pending p ++ as).take ((b.publishAll as).gone - max p b.gone), hp, ?_, ?_,
    ?_⟩
  · rw [tip_publishAll]
    omega
  · rw [List.length_append, List.length_take, Nat.min_eq_left hlost]
    omega
  · rw [pending_publishAll htip, List.append_assoc, List.append_assoc, List.take_append_drop]

/-! ## Readers beside each other -/

theorem position?_unsubscribe_of_ne (b : Bus κ α) {k other : κ} (h : k ≠ other) :
    (b.unsubscribe other).position? k = b.position? k := by
  simp only [position?, unsubscribe]
  induction b.readers with
  | nil => rfl
  | cons r readers ih =>
    obtain ⟨name, p⟩ := r
    by_cases hr : name = other
    · subst hr
      simpa [List.lookup_cons, beq_false_of_ne h] using ih
    · simp only [List.filter_cons, List.lookup_cons, ne_eq, hr, not_false_eq_true, decide_true,
        if_true, ih]

theorem position?_place_of_ne (b : Bus κ α) {k other : κ} (h : k ≠ other) (p : Nat) :
    (b.place other p).position? k = b.position? k := by
  have hlast : List.lookup k [(other, p)] = none := by
    rw [List.lookup_cons, beq_false_of_ne h]
    rfl
  rw [← b.position?_unsubscribe_of_ne h, place, position?, List.lookup_append, hlast,
    Option.or_none]
  rfl

def names (b : Bus κ α) : List κ := b.readers.map Prod.fst

theorem names_unsubscribe (b : Bus κ α) (k : κ) :
    (b.unsubscribe k).names = b.names.filter fun other => other ≠ k := by
  rw [names, names, unsubscribe, List.filter_map]
  rfl

theorem names_place (b : Bus κ α) (k : κ) (p : Nat) :
    (b.place k p).names = (b.names.filter fun other => other ≠ k) ++ [k] := by
  rw [← names_unsubscribe, names, place, List.map_append]
  rfl

theorem mem_names_place {b : Bus κ α} {k other : κ} {p : Nat} :
    other ∈ (b.place k p).names ↔ other = k ∨ other ∈ b.names := by
  rw [names_place, List.mem_append, List.mem_filter, List.mem_singleton]
  by_cases h : other = k <;> simp [h]

theorem nodup_names_place {b : Bus κ α} (h : b.names.Nodup) (k : κ) (p : Nat) :
    (b.place k p).names.Nodup := by
  rw [names_place, List.nodup_append]
  refine ⟨h.filter _, by simp, fun a ha c hc heq => ?_⟩
  have hne := (List.mem_filter.mp ha).2
  exact of_decide_eq_true hne (heq.trans (List.mem_singleton.mp hc))

theorem mem_names_of_position {b : Bus κ α} {k : κ} {p : Nat} (h : b.position? k = some p) :
    k ∈ b.names := by
  obtain ⟨before, rest, hreaders, -⟩ := List.lookup_eq_some_iff.mp h
  rw [names, hreaders]
  simp

/-- To move a reader that is there makes no new one. -/
theorem mem_names_moved {b : Bus κ α} {k other : κ} {p q : Nat} (h : b.position? k = some q) :
    other ∈ (b.place k p).names ↔ other ∈ b.names := by
  rw [mem_names_place]
  exact ⟨fun hother => hother.elim (fun heq => heq ▸ mem_names_of_position h) id, .inr⟩

/-- A bus that differs in its readers only, and not in reader `k`. -/
structure Beside (b : Bus κ α) (k : κ) (b' : Bus κ α) : Prop where
  slots : b'.slots = b.slots
  gone : b'.gone = b.gone
  kept : b'.kept = b.kept
  isOpen : b'.isOpen = b.isOpen
  position : b'.position? k = b.position? k

theorem Beside.refl (b : Bus κ α) (k : κ) : b.Beside k b := ⟨rfl, rfl, rfl, rfl, rfl⟩

theorem beside_place (b : Bus κ α) {k other : κ} (h : k ≠ other) (p : Nat) :
    b.Beside k (b.place other p) := ⟨rfl, rfl, rfl, rfl, b.position?_place_of_ne h p⟩

theorem beside_unsubscribe (b : Bus κ α) {k other : κ} (h : k ≠ other) :
    b.Beside k (b.unsubscribe other) := ⟨rfl, rfl, rfl, rfl, b.position?_unsubscribe_of_ne h⟩

theorem Awaits.beside {b b' : Bus κ α} {k : κ} {unread : List α} (h : b.Awaits k unread)
    (hb : b.Beside k b') : b'.Awaits k unread := by
  obtain ⟨p, given, hp, htip, hgiven, rfl⟩ := h
  refine ⟨p, given, hb.position.trans hp, ?_, hb.gone ▸ hgiven, ?_⟩
  · rwa [tip, hb.gone, hb.kept]
  · rw [pending, pending, hb.gone, hb.kept]

theorem Ring.beside {b b' : Bus κ α} {k : κ} (h : b.Ring) (hb : b.Beside k b') : b'.Ring := by
  obtain ⟨hroom, hfits, hfull⟩ := h
  exact ⟨hb.slots ▸ hroom, hb.slots ▸ hb.kept ▸ hfits, hb.slots ▸ hb.kept ▸ hb.gone ▸ hfull⟩

theorem awaits_place {b : Bus κ α} {k : κ} {p : Nat} {unread : List α} (low : b.gone ≤ p)
    (high : p ≤ b.tip) (hpending : b.pending p = unread) : (b.place k p).Awaits k unread :=
  ⟨p, [], position?_place .., high, (Nat.sub_eq_zero_of_le low).symm, hpending.symm⟩

theorem awaits_subscribe (b : Bus κ α) (k : κ) : (b.subscribe k).Awaits k [] :=
  awaits_place (Nat.le_add_right ..) (Nat.le_refl _) b.pending_tip

/-! ## Receiving -/

/-- A receive yields what is due, and moves the reader over it. -/
theorem Awaits.receive {b : Bus κ α} {k : κ} {unread : List α} (ring : b.Ring)
    (h : b.Awaits k unread) :
    ∃ p, b.receive? k = some ((due b.slots b.isOpen unread).1, b.place k p) ∧
      (b.place k p).Awaits k (due b.slots b.isOpen unread).2 := by
  obtain ⟨p, hp, htip, hlost, hpending⟩ := h.position ring
  rw [receive?_eq hp]
  by_cases hgone : p < b.gone
  · have hlong : b.slots < unread.length := by omega
    have hdue : due b.slots b.isOpen unread =
        (.item (.lagged (unread.length - b.slots)), retained b.slots unread) := if_pos hlong
    rw [pending_of_le (Nat.le_of_lt hgone)] at hpending
    rw [next_lagged hgone, hdue, hlost]
    exact ⟨b.gone, rfl, awaits_place (Nat.le_refl _) (Nat.le_add_right ..) hpending⟩
  · have hshort : ¬b.slots < unread.length := by omega
    have hall : retained b.slots unread = unread := by
      rw [retained, Nat.sub_eq_zero_of_le (by omega)]
      rfl
    rw [hall] at hpending
    unfold due
    rw [if_neg hshort]
    cases unread with
    | nil =>
      rw [next_none (by omega) hpending]
      exact ⟨p, rfl, awaits_place (by omega) htip hpending⟩
    | cons a rest =>
      obtain ⟨hnext, hrest⟩ := next_event (by omega) hpending
      have hlen : 0 < (b.pending p).length := by simp [hpending]
      simp only [pending, List.length_drop] at hlen
      rw [hnext]
      exact ⟨p + 1, rfl, awaits_place (by omega) (by simp only [tip]; omega) hrest⟩

theorem drain?_eq {b : Bus κ α} {k : κ} {p : Nat} (h : b.position? k = some p) :
    b.drain? k = some (b.unread p, b.place k (max p b.tip)) := by
  rw [drain?, h]
  rfl

/-- To drain is to receive all that is due. -/
theorem Awaits.drain {b : Bus κ α} {k : κ} {unread : List α} (ring : b.Ring)
    (h : b.Awaits k unread) :
    ∃ p, b.drain? k = some (allDue b.slots unread, b.place k p) ∧ (b.place k p).Awaits k [] := by
  obtain ⟨p, hp, htip, hlost, hpending⟩ := h.position ring
  have hlagged : p < b.gone ↔ b.slots < unread.length := by omega
  have hunread : b.unread p = allDue b.slots unread := by
    rw [Bus.unread, allDue, ← hpending, hlost]
    simp only [hlagged]
    rfl
  refine ⟨max p b.tip, ?_, ?_⟩
  · rw [drain?_eq hp, hunread]
  · rw [Nat.max_eq_right htip]
    exact b.awaits_subscribe k

end Aerial.Bus
