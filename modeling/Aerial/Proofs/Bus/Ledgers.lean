import Aerial.Proofs.Bus.Operations

/-! # Every reader gets what it is due

Any operations are performed on a bus, for any number of readers. For one of them a `Ledger` is kept:
whether the bus is open, and what the reader has yet to read. It is made from the operations for this
reader and from those that are for nobody. `Keeps` ties it to the bus, operation by operation, while
the other readers come, read and go. So the outcomes for a reader are those of its ledger, and the
others have no part in them. -/

namespace Aerial.Bus

variable {κ α : Type}

/-! ## Ledgers -/

/-- What is known of one reader: whether the bus is open, and what the reader has yet to read, if it
is one. -/
structure Ledger (α : Type) where
  isOpen : Bool
  unread : Option (List α)

namespace Ledger

variable (slots : Nat) (l : Ledger α)

/-- The outcome of an operation for the reader. -/
def outcome : Op κ α → Outcome α
  | .subscribe _ => if l.isOpen then .done else .noBus
  | .receive _ => (l.unread.map fun u => .received (due slots l.isOpen u).1).getD .noReceiver
  | .drain _ => (l.unread.map fun u => .drained (allDue slots u)).getD .noReceiver
  | .unsubscribe _ => .whether l.unread.isSome
  | .publish _ | .close => .done

/-- The ledger after an operation for the reader or for nobody. -/
def next : Op κ α → Ledger α
  | .subscribe _ => if l.isOpen then { l with unread := some [] } else l
  | .receive _ => { l with unread := l.unread.map fun u => (due slots l.isOpen u).2 }
  | .drain _ => { l with unread := l.unread.map fun _ => [] }
  | .unsubscribe _ => { l with unread := none }
  | .publish as => if l.isOpen then { l with unread := l.unread.map (· ++ as) } else l
  | .close => { l with isOpen := false }

/-- The outcomes for the reader, if there is no other. -/
def outcomes : Ledger α → List (Op κ α) → List (Outcome α)
  | _, [] => []
  | l, o :: ops =>
    (if o.reader?.isSome then [l.outcome slots o] else []) ++ outcomes (l.next slots o) ops

def after (ops : List (Op κ α)) : Ledger α := ops.foldl (fun l o => l.next slots o) l

end Ledger

/-! ## The account of a ledger -/

/-- The items that an outcome hands to a reader. -/
def Outcome.items : Outcome α → List (Item α)
  | .received r => r.items
  | .drained items => items
  | _ => []

/-- An operation by which the reader stays. It reads some of what it has yet to read, or that
grows. -/
theorem Ledger.account_next (slots : Nat) (isOpen : Bool) (u : List α) {o : Op κ α}
    (stays : ∀ k, o ≠ .subscribe k ∧ o ≠ .unsubscribe k) :
    ∃ read rest, u ++ (if isOpen then o.published else []) = read ++ rest ∧
      Covers ((if o.reader?.isSome then [outcome slots ⟨isOpen, some u⟩ o] else []).flatMap
        Outcome.items) read ∧
      next slots ⟨isOpen, some u⟩ o = ⟨isOpen && !o.closes, some rest⟩ := by
  cases o with
  | subscribe k => exact absurd rfl (stays k).1
  | unsubscribe k => exact absurd rfl (stays k).2
  | receive k =>
    obtain ⟨read, hread, hcovers⟩ := covers_due slots isOpen u
    refine ⟨read, _, by simpa [Op.published] using hread, ?_, by simp [next, Op.closes]⟩
    simpa [Op.reader?, outcome, Outcome.items] using hcovers
  | drain k =>
    refine ⟨u, [], by simp [Op.published], ?_, by simp [next, Op.closes]⟩
    simpa [Op.reader?, outcome, Outcome.items] using covers_allDue slots u
  | publish as =>
    refine ⟨[], _, (List.nil_append _).symm, .nil, ?_⟩
    cases isOpen with
    | true => rfl
    | false => exact congrArg (Ledger.mk false ∘ some) (List.append_nil u).symm
  | close => exact ⟨[], u, by simp [Op.published], .nil, by simp [next, Op.closes]⟩

/-- While the reader stays, it has read or has yet to read all that is published. -/
theorem Ledger.account (slots : Nat) (isOpen : Bool) (u : List α) {ops : List (Op κ α)}
    (stays : ∀ o ∈ ops, ∀ k, o ≠ .subscribe k ∧ o ≠ .unsubscribe k) :
    ∃ read rest, u ++ (if isOpen then published ops else []) = read ++ rest ∧
      Covers ((outcomes slots ⟨isOpen, some u⟩ ops).flatMap Outcome.items) read ∧
      (after slots ⟨isOpen, some u⟩ ops).unread = some rest := by
  induction ops generalizing isOpen u with
  | nil => exact ⟨[], u, by simp [published], .nil, rfl⟩
  | cons o ops ih =>
    obtain ⟨first, u', hfirst, hcovers, hnext⟩ :=
      account_next slots isOpen u (stays o List.mem_cons_self)
    obtain ⟨read, rest, hread, hmore, hafter⟩ :=
      ih (isOpen && !o.closes) u' fun o ho => stays o (List.mem_cons_of_mem _ ho)
    refine ⟨first ++ read, rest, ?_, ?_, ?_⟩
    · rw [List.append_assoc, ← hread, ← List.append_assoc, ← hfirst, List.append_assoc, published]
      cases isOpen <;> cases o.closes <;> rfl
    · rw [outcomes, hnext, List.flatMap_append]
      exact hcovers.append hmore
    · rw [after, List.foldl_cons, hnext]
      exact hafter

/-! ## The ledger along a run -/

variable [DecidableEq κ]

/-- The outcomes of a run for one reader. -/
def outcomesFor (k : κ) (b : Bus κ α) (ops : List (Op κ α)) : List (Outcome α) :=
  ((ops.zip (b.outcomes ops)).filter (·.1.reader? = some k)).map Prod.snd

theorem outcomesFor_cons (k : κ) (b : Bus κ α) (o : Op κ α) (ops : List (Op κ α)) :
    outcomesFor k b (o :: ops) =
      (if o.reader? = some k then [(b.perform o).1] else [])
        ++ outcomesFor k (b.perform o).2 ops := by
  simp only [outcomesFor, outcomes, List.zip_cons_cons, List.filter_cons, decide_eq_true_eq]
  split <;> rfl

/-- The ledger of reader `k` is that of a reader of this bus. -/
structure Keeps (slots : Nat) (b : Bus κ α) (k : κ) (l : Ledger α) : Prop where
  ring : b.Ring
  slots : b.slots = slots
  isOpen : b.isOpen = l.isOpen
  unread : match l.unread with
    | some u => b.Awaits k u
    | none => b.position? k = none

theorem keeps_create (capacity : Nat) (k : κ) :
    Keeps (slotsFor capacity) (create capacity : Bus κ α) k ⟨true, none⟩ :=
  ⟨ring_create capacity, rfl, rfl, rfl⟩

theorem Keeps.beside {slots : Nat} {b b' : Bus κ α} {k : κ} {l : Ledger α} (h : Keeps slots b k l)
    (hb : b.Beside k b') : Keeps slots b' k l := by
  obtain ⟨isOpen, unread⟩ := l
  refine ⟨h.ring.beside hb, hb.slots.trans h.slots, hb.isOpen.trans h.isOpen, ?_⟩
  have hunread := h.unread
  cases unread with
  | some u => exact Awaits.beside hunread hb
  | none => exact hb.position.trans hunread

/-- An operation for the reader turns out as its ledger says. -/
theorem Keeps.own {slots : Nat} {b : Bus κ α} {k : κ} {l : Ledger α} (h : Keeps slots b k l)
    {o : Op κ α} (ho : o.reader? = some k) :
    (b.perform o).1 = l.outcome slots o ∧ Keeps slots (b.perform o).2 k (l.next slots o) := by
  obtain ⟨isOpen, unread⟩ := l
  obtain ⟨ring, rfl, rfl, hunread⟩ := h
  cases o with
  | subscribe r =>
    cases ho
    cases hopen : b.isOpen with
    | true =>
      have hsubscribed : b.perform (.subscribe k) = (.done, b.subscribe k) := by
        rw [perform, if_pos hopen]
      rw [hsubscribed]
      exact ⟨rfl, ring.readers _ _, rfl, hopen, b.awaits_subscribe k⟩
    | false =>
      have hrefused : b.perform (.subscribe k) = (.noBus, b) := by
        rw [perform, if_neg (by simp [hopen])]
      rw [hrefused]
      exact ⟨rfl, ring, rfl, hopen, hunread⟩
  | receive r =>
    cases ho
    cases unread with
    | none =>
      rw [perform_receive_none hunread]
      exact ⟨rfl, ring, rfl, rfl, hunread⟩
    | some u =>
      obtain ⟨p, hreceive, hafter⟩ := Awaits.receive ring hunread
      rw [perform_receive_some hreceive]
      exact ⟨rfl, ring.readers _ _, rfl, rfl, hafter⟩
  | drain r =>
    cases ho
    cases unread with
    | none =>
      rw [perform_drain_none hunread]
      exact ⟨rfl, ring, rfl, rfl, hunread⟩
    | some u =>
      obtain ⟨p, hdrain, hafter⟩ := Awaits.drain ring hunread
      rw [perform_drain_some hdrain]
      exact ⟨rfl, ring.readers _ _, rfl, rfl, hafter⟩
  | unsubscribe r =>
    cases ho
    refine ⟨?_, ring.readers _ _, rfl, rfl, b.position?_unsubscribe k⟩
    cases unread with
    | none => exact congrArg (fun p => Outcome.whether p.isSome) hunread
    | some u =>
      obtain ⟨p, -, hp, -⟩ := hunread
      exact congrArg (fun p => Outcome.whether p.isSome) hp
  | publish as => cases ho
  | close => cases ho

/-- Publishing and closing are seen by every reader. -/
theorem Keeps.common {slots : Nat} {b : Bus κ α} {k : κ} {l : Ledger α} (h : Keeps slots b k l)
    {o : Op κ α} (ho : o.reader? = none) : Keeps slots (b.perform o).2 k (l.next slots o) := by
  obtain ⟨isOpen, unread⟩ := l
  obtain ⟨ring, rfl, rfl, hunread⟩ := h
  cases o with
  | publish as =>
    cases hopen : b.isOpen with
    | true =>
      rw [perform_publish ring hopen]
      refine ⟨ring.publishAll _, rfl, hopen, ?_⟩
      cases unread with
      | none => exact hunread
      | some u => exact Awaits.publishAll hunread as
    | false =>
      have hrefused : b.perform (.publish as) = (.noBus, b) := by
        rw [perform, if_pos (by simp [hopen])]
      rw [hrefused]
      exact ⟨ring, rfl, hopen, hunread⟩
  | close =>
    refine ⟨ring.readers _ _, rfl, rfl, ?_⟩
    cases unread with
    | none => exact hunread
    | some u => exact hunread
  | subscribe r => cases ho
  | receive r => cases ho
  | drain r => cases ho
  | unsubscribe r => cases ho

/-- The others have no part in the outcomes for a reader. -/
theorem Keeps.along {slots : Nat} {b : Bus κ α} {k : κ} {l : Ledger α} (h : Keeps slots b k l)
    (ops : List (Op κ α)) :
    outcomesFor k b ops = l.outcomes slots (ops.filter (·.concerns k)) ∧
      Keeps slots (b.after ops) k (l.after slots (ops.filter (·.concerns k))) := by
  induction ops generalizing b l with
  | nil => exact ⟨rfl, h⟩
  | cons o ops ih =>
    rw [outcomesFor_cons, List.filter_cons]
    cases ho : o.reader? with
    | none =>
      have hconcerns : o.concerns k = true := by
        rw [Op.concerns, ho]
        rfl
      obtain ⟨houtcomes, hafter⟩ := ih (h.common ho)
      rw [if_pos hconcerns, Ledger.outcomes, ho, houtcomes]
      exact ⟨rfl, hafter⟩
    | some other =>
      by_cases hother : other = k
      · subst hother
        have hconcerns : o.concerns other = true := by
          rw [Op.concerns, ho]
          exact decide_eq_true rfl
        obtain ⟨houtcome, hnext⟩ := h.own ho
        obtain ⟨houtcomes, hafter⟩ := ih hnext
        rw [if_pos hconcerns, Ledger.outcomes, ho, houtcomes, houtcome]
        exact ⟨by simp, hafter⟩
      · -- what is for another reader is left out, and has changed nothing for this one
        have hconcerns : o.concerns k = false := by
          rw [Op.concerns, ho]
          exact decide_eq_false hother
        obtain ⟨houtcomes, hafter⟩ := ih (h.beside (beside_perform ho (Ne.symm hother)))
        rw [hconcerns, if_neg (by simp [hother]), houtcomes]
        exact ⟨rfl, hafter⟩

/-! ## What is due next -/

/-- What the next receives of reader `k` yield, for each state of what it has yet to read. -/
structure Due (b : Bus κ α) (k : κ) (unread : List α) : Prop where
  /-- More than fits the ring: how much more, and then the oldest that the ring keeps. -/
  lagged : b.slots < unread.length → ∃ oldest, b.kept.head? = some oldest ∧
    unread[unread.length - b.slots]? = some oldest ∧
    b.outcomes [.receive k, .receive k] =
      [.received (.item (.lagged (unread.length - b.slots))), .received (.item (.event oldest))]
  event : unread.length ≤ b.slots → ∀ a rest, unread = a :: rest →
    (b.perform (.receive k)).1 = .received (.item (.event a))
  ended : unread = [] →
    (b.perform (.receive k)).1 = .received (if b.isOpen then .empty else .closed)
  /-- To drain is to receive all of this at once. -/
  drained : (b.perform (.drain k)).1 = .drained (allDue b.slots unread)

theorem due_of_length_le {slots : Nat} {isOpen : Bool} {a : α} {rest : List α}
    (h : (a :: rest).length ≤ slots) : due slots isOpen (a :: rest) = (.item (.event a), rest) := by
  rw [due, if_neg (by omega)]

/-- A reader that is behind. After the lag just as much is unread as fits the ring, so an event
comes next. -/
theorem Keeps.lagged {slots : Nat} {b : Bus κ α} {k : κ} {unread : List α}
    (h : Keeps slots b k ⟨b.isOpen, some unread⟩) (behind : b.slots < unread.length) :
    ∃ oldest, b.kept.head? = some oldest ∧ unread[unread.length - b.slots]? = some oldest ∧
      b.outcomes [.receive k, .receive k] =
        [.received (.item (.lagged (unread.length - b.slots))), .received (.item (.event oldest))] := by
  obtain ⟨ring, rfl, -, hunread⟩ := id h
  have hdue : Bus.due b.slots b.isOpen unread =
      (.item (.lagged (unread.length - b.slots)), retained b.slots unread) := if_pos behind
  have hkept := Awaits.retained_eq_kept ring hunread behind
  have hlength : (retained b.slots unread).length = b.slots := by
    rw [retained, List.length_drop]
    omega
  obtain ⟨oldest, rest, hretained⟩ :=
    List.exists_cons_of_length_pos (Nat.lt_of_lt_of_eq ring.room hlength.symm)
  obtain ⟨hfirst, hkeeps⟩ := h.own (o := .receive k) rfl
  rw [Ledger.next, Option.map_some, hdue, hretained] at hkeeps
  have hsecond := (hkeeps.own (o := .receive k) rfl).1
  have hfits : (oldest :: rest).length ≤ b.slots := hretained ▸ Nat.le_of_eq hlength
  rw [Ledger.outcome, Option.map_some, due_of_length_le hfits] at hsecond
  refine ⟨oldest, by rw [← hkept, hretained]; rfl, ?_, ?_⟩
  · rw [← List.head?_drop, ← retained, hretained]
    rfl
  · have hrun : b.outcomes [.receive k, .receive k] =
        [(b.perform (.receive k)).1, ((b.perform (.receive k)).2.perform (.receive k)).1] := rfl
    rw [hrun, hsecond, hfirst, Ledger.outcome, Option.map_some, hdue]
    rfl

theorem Keeps.due {slots : Nat} {b : Bus κ α} {k : κ} {l : Ledger α} (h : Keeps slots b k l)
    {unread : List α} (hl : l.unread = some unread) : Due b k unread := by
  obtain ⟨isOpen, u⟩ := l
  obtain rfl : u = some unread := hl
  obtain ⟨-, rfl, rfl, -⟩ := id h
  have hreceive := (h.own (o := .receive k) rfl).1
  refine ⟨h.lagged, fun fits a rest heq => ?_, fun heq => ?_, (h.own (o := .drain k) rfl).1⟩
  · subst heq
    rw [hreceive, Ledger.outcome, Option.map_some, due_of_length_le fits]
    rfl
  · subst heq
    exact hreceive

/-! ## Everything together -/

/-- A reader that has just come has nothing to read. -/
theorem Keeps.came {slots : Nat} {b : Bus κ α} {k : κ} {l : Ledger α} (h : Keeps slots b k l)
    (isOpen : b.isOpen = true) : Keeps slots (b.perform (.subscribe k)).2 k ⟨true, some []⟩ := by
  have hcame := (h.own (o := .subscribe k) rfl).2
  obtain ⟨l, unread⟩ := l
  obtain rfl : l = true := h.isOpen.symm.trans isOpen
  exact hcame

/-- While a reader stays, nothing that concerns it brings or removes a reader. -/
theorem stays_of_concerns {k : κ} {o : Op κ α} (ho : o.concerns k = true)
    (came : o ≠ .subscribe k) (gone : o ≠ .unsubscribe k) (r : κ) :
    o ≠ .subscribe r ∧ o ≠ .unsubscribe r := by
  constructor
  · rintro rfl
    exact came (congrArg _ (of_decide_eq_true ho))
  · rintro rfl
    exact gone (congrArg _ (of_decide_eq_true ho))

/-- What holds of reader `k` after some operations, since the bus was `came` when it had just come:
it has been told of a first part of what was published, and has yet to read the rest. -/
structure Accounted (slots : Nat) (k : κ) (came : Bus κ α) (later : List (Op κ α)) : Prop where
  slots : (came.after later).slots = slots
  isOpen : (came.after later).isOpen = true ↔ .close ∉ later
  account : ∃ read unread, published later = read ++ unread ∧
    Covers ((outcomesFor k came later).flatMap Outcome.items) read ∧
    Due (came.after later) k unread

/-- A reader that comes while the bus is open, until it goes. -/
theorem Keeps.accounted {slots : Nat} {b : Bus κ α} {k : κ} {l : Ledger α}
    (h : Keeps slots b k l) (isOpen : b.isOpen = true) {later : List (Op κ α)}
    (stays : .subscribe k ∉ later ∧ .unsubscribe k ∉ later) :
    Accounted slots k (b.perform (.subscribe k)).2 later := by
  have hcame : (b.perform (.subscribe k)).2.isOpen = true := by
    rw [isOpen_perform, isOpen]
    rfl
  obtain ⟨houtcomes, hafter⟩ := (h.came isOpen).along later
  have hown : ∀ o ∈ later.filter (·.concerns k), ∀ r, o ≠ .subscribe r ∧ o ≠ .unsubscribe r := by
    intro o ho
    obtain ⟨hlater, hconcerns⟩ := List.mem_filter.mp ho
    exact stays_of_concerns hconcerns (fun h => stays.1 (h ▸ hlater)) fun h => stays.2 (h ▸ hlater)
  obtain ⟨read, unread, hread, hcovers, hunread⟩ := Ledger.account slots true [] hown
  rw [List.nil_append, if_pos rfl, published_concerns] at hread
  exact ⟨hafter.slots, (isOpen_after _ later).trans (and_iff_right hcame),
    read, unread, hread, houtcomes ▸ hcovers, hafter.due hunread⟩

/-- The slots are the capacity, at least one, rounded up to a power of two. The account of a reader
holds from when it comes until it goes, whatever is done on the bus. Every item goes out to as many
readers as there are, and what a reader gets does not depend on the others. -/
theorem accounts_hold (capacity : Nat) :
    ((slotsFor capacity).isPowerOfTwo ∧ max capacity 1 ≤ slotsFor capacity ∧
      ∀ n : Nat, n.isPowerOfTwo → max capacity 1 ≤ n → slotsFor capacity ≤ n) ∧
    (∀ (k : κ) (before later : List (Op κ α)), .close ∉ before → .subscribe k ∉ later →
      .unsubscribe k ∉ later →
      Accounted (slotsFor capacity) k
        (((create capacity).after before).perform (.subscribe k)).2 later) ∧
    (∀ (ops : List (Op κ α)) (as : List α), .close ∉ ops → as ≠ [] → ∃ live : List κ, live.Nodup ∧
      (∀ k, k ∈ live ↔ Attends ops k) ∧
      (((create capacity).after ops).perform (.publish as)).1 = .audience (some live.length)) ∧
    ∀ (k : κ) (ops : List (Op κ α)), outcomesFor k (create capacity) ops =
      outcomesFor k (create capacity) (ops.filter (·.concerns k)) := by
  refine ⟨slotsFor_least capacity, ?_, ?_, ?_⟩
  · intro k before later running came gone
    have hopen := (isOpen_after (create capacity) before).mpr ⟨rfl, running⟩
    exact ((keeps_create capacity k).along before).2.accounted hopen ⟨came, gone⟩
  · intro ops as running nonempty
    have hopen := (isOpen_after (create capacity) ops).mpr ⟨rfl, running⟩
    obtain ⟨hunique, hnames⟩ := names_after (b := create capacity) rfl .nil running
    refine ⟨_, hunique, fun k => ?_, perform_publish_audience hopen nonempty⟩
    rw [hnames]
    simp [names, create]
  · intro k ops
    have hkeeps := keeps_create (α := α) capacity k
    rw [(hkeeps.along ops).1, (hkeeps.along _).1, List.filter_filter]
    simp only [Bool.and_self]

/-- Two readers of a ring with four slots. Six items go by the second one before it receives, and
then two more before the bus is closed. -/
theorem accounts_hold_overrun :
    let came := (((create 3).after [.publish [0], .subscribe "b"]).perform (.subscribe "a")).2
    let later := [.publish [1, 2, 3, 4, 5, 6], .receive "a", .publish [7, 8], .close]
    outcomesFor "a" came later = [.received (.item (.lagged 2))] ∧ Accounted 4 "a" came later ∧
      ∃ live : List String, live.Nodup ∧
        (∀ k, k ∈ live ↔ Attends [.publish [0], .subscribe "b", .subscribe "a"] k) ∧
        (came.perform (.publish [1])).1 = .audience (some live.length) := by
  intro came later
  obtain ⟨-, haccount, haudience, -⟩ := accounts_hold (κ := String) (α := Nat) 3
  refine ⟨rfl, ?_, ?_⟩
  · exact haccount "a" [.publish [0], .subscribe "b"] later (by simp) (by simp [later])
      (by simp [later])
  · exact haudience [.publish [0], .subscribe "b", .subscribe "a"] [1] (by simp) (by simp)

end Aerial.Bus
