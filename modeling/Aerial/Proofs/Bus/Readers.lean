import Aerial.Bus

/-! # What a reader has read

The protected quantity is everything published since a reader came: it is what the
reader has read, then what the ring has given up before the reader got to it, then what
is still kept for it. Publishing moves the oldest kept items to the lost ones when the
ring is full, and a receive moves the oldest kept item to the read ones. While nothing
is lost, a reader has read a prefix of what was published. -/

namespace Aerial.Bus

variable {κ α : Type}

/-- What is kept for a reader at `position`. -/
def pending (b : Bus κ α) (position : Nat) : List α := b.kept.drop (position - b.gone)

theorem pending_tip (b : Bus κ α) : b.pending b.tip = [] := by
  simp [pending, tip]

/-- Two positions that the ring has given up have the same items before them. -/
theorem pending_of_le {b : Bus κ α} {p : Nat} (h : p ≤ b.gone) :
    b.pending p = b.pending b.gone := by
  rw [pending, pending, Nat.sub_eq_zero_of_le h, Nat.sub_self]

/-! ## Slots -/

/-- The slots are the least power of two that is not below the capacity, nor below one. -/
theorem slotsFor_least (capacity : Nat) :
    (slotsFor capacity).isPowerOfTwo ∧ max capacity 1 ≤ slotsFor capacity ∧
      ∀ n : Nat, n.isPowerOfTwo → max capacity 1 ≤ n → slotsFor capacity ≤ n := by
  rw [slotsFor]
  split
  · exact ⟨⟨0, rfl⟩, by omega, fun n _ hn => by omega⟩
  · rename_i hcapacity
    have hlog := Nat.lt_log2_self (n := capacity - 1)
    rw [Nat.one_shiftLeft]
    refine ⟨⟨_, rfl⟩, by omega, ?_⟩
    rintro n ⟨e, rfl⟩ he
    refine Nat.pow_le_pow_right (by omega) ?_
    exact (Nat.log2_lt (by omega)).mpr (by omega)

theorem slotsFor_pos (capacity : Nat) : 0 < slotsFor capacity := by
  have hleast := (slotsFor_least capacity).2.1
  omega

/-! ## Publishing -/

@[simp] theorem tip_publishAll (b : Bus κ α) (as : List α) :
    (b.publishAll as).tip = b.tip + as.length := by
  simp only [publishAll, tip, List.length_drop, List.length_append]
  omega

theorem gone_le_publishAll (b : Bus κ α) (as : List α) : b.gone ≤ (b.publishAll as).gone :=
  Nat.le_add_right ..

/-- A full ring gives up its oldest items, and the reader loses those that it was not past. -/
theorem pending_publishAll {b : Bus κ α} {p : Nat} (h : p ≤ b.tip) (as : List α) :
    (b.publishAll as).pending p =
      (b.pending p ++ as).drop ((b.publishAll as).gone - max p b.gone) := by
  have hlen : p - b.gone ≤ b.kept.length := by
    simp only [tip] at h
    omega
  simp only [pending, publishAll, List.drop_drop]
  rw [← List.drop_append_of_le_length hlen, List.drop_drop]
  congr 1
  omega

@[simp] theorem tip_publish (b : Bus κ α) (a : α) : (b.publish a).tip = b.tip + 1 :=
  tip_publishAll ..

theorem gone_le_publish (b : Bus κ α) (a : α) : b.gone ≤ (b.publish a).gone :=
  gone_le_publishAll ..

theorem pending_publish {b : Bus κ α} {p : Nat} (h : p ≤ b.tip) (a : α) :
    (b.publish a).pending p = (b.pending p ++ [a]).drop ((b.publish a).gone - max p b.gone) :=
  pending_publishAll h [a]

/-- With room for at least one item the newest is always kept. -/
theorem pending_publish_getLast? {b : Bus κ α} {p : Nat} (room : 0 < b.slots) (h : p ≤ b.tip)
    (a : α) : ((b.publish a).pending p).getLast? = some a := by
  have hlost : (b.publish a).gone - max p b.gone ≤ (b.pending p).length := by
    simp only [tip] at h
    simp only [publish, publishAll, pending, List.length_append, List.length_cons, List.length_nil,
      List.length_drop]
    omega
  rw [pending_publish h, List.drop_append_of_le_length hlost]
  simp

/-! ## Receiving -/

theorem next_lagged {b : Bus κ α} {p : Nat} (h : p < b.gone) :
    b.next p = (.item (.lagged (b.gone - p)), b.gone) := if_pos h

theorem next_event {b : Bus κ α} {p : Nat} {a : α} {rest : List α} (h : b.gone ≤ p)
    (kept : b.pending p = a :: rest) :
    b.next p = (.item (.event a), p + 1) ∧ b.pending (p + 1) = rest := by
  have hget : b.kept[p - b.gone]? = some a := by
    rw [← List.head?_drop]
    exact congrArg List.head? kept
  have hnext : p + 1 - b.gone = (p - b.gone) + 1 := by omega
  constructor
  · rw [next, if_neg (by omega), hget]
  · rw [pending, hnext, ← List.tail_drop]
    exact congrArg List.tail kept

theorem next_none {b : Bus κ α} {p : Nat} (h : b.gone ≤ p) (kept : b.pending p = []) :
    b.next p = (if b.isOpen then .empty else .closed, p) := by
  have hget : b.kept[p - b.gone]? = none := by
    rw [← List.head?_drop]
    exact congrArg List.head? kept
  rw [next, if_neg (by omega), hget]

variable [DecidableEq κ]

@[simp] theorem position?_publish (b : Bus κ α) (a : α) (k : κ) :
    (b.publish a).position? k = b.position? k := rfl

theorem position?_unsubscribe (b : Bus κ α) (k : κ) : (b.unsubscribe k).position? k = none := by
  rw [position?, List.lookup_eq_none_iff]
  intro r hr
  have hne := (List.mem_filter.mp hr).2
  rw [decide_eq_true_eq] at hne
  exact bne_iff_ne.mpr hne.symm

@[simp] theorem position?_place (b : Bus κ α) (k : κ) (p : Nat) :
    (b.place k p).position? k = some p := by
  rw [place, position?, List.lookup_append, ← position?, b.position?_unsubscribe k]
  simp

theorem receive?_eq {b : Bus κ α} {k : κ} {p : Nat} (h : b.position? k = some p) :
    b.receive? k = some ((b.next p).1, b.place k (b.next p).2) := by
  rw [receive?, h]
  rfl

@[simp] theorem pending_place (b : Bus κ α) (k : κ) (p q : Nat) :
    (b.place k p).pending q = b.pending q := rfl

/-- An event is received from the front of what is kept for the reader. -/
theorem received_event {b b' : Bus κ α} {k : κ} {p : Nat} {a : α} (hp : b.position? k = some p)
    (received : b.receive? k = some (.item (.event a), b')) :
    b.gone ≤ p ∧ p + 1 ≤ b.tip ∧ b.pending p = a :: b.pending (p + 1) ∧
      b' = b.place k (p + 1) := by
  rw [receive?_eq hp] at received
  by_cases hgone : p < b.gone
  · simp [next_lagged hgone] at received
  have hge : b.gone ≤ p := by omega
  cases hkept : b.pending p with
  | nil =>
    rw [next_none hge hkept] at received
    cases hopen : b.isOpen <;> simp [hopen] at received
  | cons a' rest =>
    obtain ⟨hnext, hrest⟩ := next_event hge hkept
    simp only [hnext, Option.some.injEq, Prod.mk.injEq, Received.item.injEq, Item.event.injEq]
      at received
    obtain ⟨rfl, rfl⟩ := received
    have hlen : 0 < (b.pending p).length := by simp [hkept]
    simp only [pending, List.length_drop] at hlen
    refine ⟨hge, ?_, by rw [hrest], rfl⟩
    simp only [tip]
    omega

/-- A reader that fell behind is told so, and goes on with the oldest item kept. -/
theorem received_lagged {b b' : Bus κ α} {k : κ} {p n : Nat} (hp : b.position? k = some p)
    (received : b.receive? k = some (.item (.lagged n), b')) :
    p < b.gone ∧ n = b.gone - p ∧ b' = b.place k b.gone := by
  rw [receive?_eq hp] at received
  by_cases hgone : p < b.gone
  · simp only [next_lagged hgone, Option.some.injEq, Prod.mk.injEq, Received.item.injEq,
      Item.lagged.injEq] at received
    exact ⟨hgone, received.1.symm, received.2.symm⟩
  have hge : b.gone ≤ p := by omega
  cases hkept : b.pending p with
  | nil =>
    rw [next_none hge hkept] at received
    cases hopen : b.isOpen <;> simp [hopen] at received
  | cons a' rest => simp [(next_event hge hkept).1] at received

/-! ## The account of a reader -/

/-- Reader `k` has read `read` of what was published since it came. -/
def Reads (b : Bus κ α) (k : κ) (published read : List α) : Prop :=
  ∃ (p : Nat) (lost : List α), b.position? k = some p ∧ p ≤ b.tip ∧
    published = read ++ lost ++ b.pending p ∧ (b.gone ≤ p → lost = [])

theorem reads_at_tip {b : Bus κ α} {k : κ} (h : b.position? k = some b.tip) : b.Reads k [] [] :=
  ⟨b.tip, [], h, Nat.le_refl _, by simp [pending_tip], fun _ => rfl⟩

theorem Reads.publish {b : Bus κ α} {k : κ} {published read : List α}
    (h : b.Reads k published read) (a : α) : (b.publish a).Reads k (published ++ [a]) read := by
  obtain ⟨p, lost, hp, htip, rfl, hlost⟩ := h
  have hgone := gone_le_publish b a
  refine ⟨p, lost ++ (b.pending p ++ [a]).take ((b.publish a).gone - max p b.gone), hp, ?_, ?_, ?_⟩
  · rw [tip_publish]
    omega
  · rw [pending_publish htip]
    simp only [List.append_assoc, List.take_append_drop]
  · intro hkept
    have hnone : (b.publish a).gone - max p b.gone = 0 := by omega
    rw [hlost (by omega), hnone]
    rfl

/-- An event that is received is the next one in the order of publication. -/
theorem Reads.event {b b' : Bus κ α} {k : κ} {published read : List α} {a : α}
    (h : b.Reads k published read) (received : b.receive? k = some (.item (.event a), b')) :
    b'.Reads k published (read ++ [a]) := by
  obtain ⟨p, lost, hp, -, rfl, hlost⟩ := h
  obtain ⟨hge, htip, hkept, rfl⟩ := received_event hp received
  refine ⟨p + 1, [], by simp, htip, ?_, fun _ => rfl⟩
  rw [hlost hge, hkept, pending_place]
  simp

/-- When a reader has caught up it has read everything that was published. -/
theorem Reads.eq {b : Bus κ α} {k : κ} {published read : List α} (h : b.Reads k published read)
    (caughtUp : b.position? k = some b.tip) : read = published := by
  obtain ⟨p, lost, hp, -, rfl, hlost⟩ := h
  obtain rfl : p = b.tip := by simpa [hp] using caughtUp
  rw [pending_tip, hlost (by simp [tip])]
  simp

theorem Reads.isPrefix {b : Bus κ α} {k : κ} {published read : List α}
    (h : b.Reads k published read) : read <+: published := by
  obtain ⟨p, lost, -, -, rfl, -⟩ := h
  exact ⟨lost ++ b.pending p, by simp⟩

end Aerial.Bus
