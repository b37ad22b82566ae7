/-! # The bus

Changes reach their readers over a bus with a bounded ring. The bus keeps the
newest `slots` items; each reader is a position in the sequence of everything
published, so a reader that falls behind the ring is told how many items it
missed and goes on with the oldest one still kept. Readers do not affect each
other: one reads by moving its own position only. -/

namespace Aerial

structure Bus (κ α : Type) where
  slots : Nat
  /-- How many items have left the ring. -/
  gone : Nat
  /-- The items still in the ring, oldest first. -/
  kept : List α
  readers : List (κ × Nat)
  isOpen : Bool

namespace Bus

variable {κ α : Type}

inductive Item (α : Type) where
  | event (a : α)
  | lagged (missed : Nat)
deriving DecidableEq

inductive Received (α : Type) where
  | item (i : Item α)
  | empty
  | closed
deriving DecidableEq

/-- At least `capacity` slots: a power of two, and never none. -/
def slotsFor (capacity : Nat) : Nat :=
  if capacity ≤ 1 then 1 else 1 <<< ((capacity - 1).log2 + 1)

def create (capacity : Nat) : Bus κ α := ⟨slotsFor capacity, 0, [], [], true⟩

/-- The position after the newest item. -/
def tip (b : Bus κ α) : Nat := b.gone + b.kept.length

/-- Appends `as`, oldest first, and gives up as many of the oldest items as the ring has
no slots for. -/
def publishAll (b : Bus κ α) (as : List α) : Bus κ α :=
  let all := b.kept ++ as
  let excess := all.length - b.slots
  { b with kept := all.drop excess, gone := b.gone + excess }

def publish (b : Bus κ α) (a : α) : Bus κ α := b.publishAll [a]

/-- The number of readers that a published item is meant for. -/
def audience (b : Bus κ α) : Nat := b.readers.length

def close (b : Bus κ α) : Bus κ α := { b with isOpen := false }

/-- What a reader at `position` gets next, and its position afterwards. -/
def next (b : Bus κ α) (position : Nat) : Received α × Nat :=
  if position < b.gone then (.item (.lagged (b.gone - position)), b.gone)
  else match b.kept[position - b.gone]? with
    | some a => (.item (.event a), position + 1)
    | none => (if b.isOpen then .empty else .closed, position)

/-- Everything a reader at `position` gets before it runs empty. -/
def unread (b : Bus κ α) (position : Nat) : List (Item α) :=
  (if position < b.gone then [.lagged (b.gone - position)] else [])
    ++ (b.kept.drop (position - b.gone)).map .event

/-! ## Named readers -/

variable [DecidableEq κ]

def position? (b : Bus κ α) (k : κ) : Option Nat := b.readers.lookup k

def unsubscribe (b : Bus κ α) (k : κ) : Bus κ α :=
  { b with readers := b.readers.filter fun r => r.1 ≠ k }

/-- Moves the reader `k` to `position`; it becomes a reader if it was none. -/
def place (b : Bus κ α) (k : κ) (position : Nat) : Bus κ α :=
  { b with readers := (b.unsubscribe k).readers ++ [(k, position)] }

/-- A reader sees what is published after it subscribed. -/
def subscribe (b : Bus κ α) (k : κ) : Bus κ α := b.place k b.tip

/-- One receive of reader `k`; `none` if there is no such reader. -/
def receive? (b : Bus κ α) (k : κ) : Option (Received α × Bus κ α) :=
  (b.position? k).map fun p => ((b.next p).1, b.place k (b.next p).2)

/-- All receives of reader `k` up to the first that finds nothing. -/
def drain? (b : Bus κ α) (k : κ) : Option (List (Item α) × Bus κ α) :=
  (b.position? k).map fun p => (b.unread p, b.place k (max p b.tip))

/-! ## Operations -/

/-- What can be done on a bus. Whoever has closed it cannot publish on it or offer it to
readers any more. -/
inductive Op (κ α : Type) where
  | subscribe (reader : κ)
  | publish (items : List α)
  | receive (reader : κ)
  | drain (reader : κ)
  | unsubscribe (reader : κ)
  | close

inductive Outcome (α : Type) where
  | done
  /-- How many readers the last of some items had; of no items none is the last. -/
  | audience (readers : Option Nat)
  | received (r : Received α)
  | drained (items : List (Item α))
  | whether (b : Bool)
  | noBus
  | noReceiver

def perform (b : Bus κ α) : Op κ α → Outcome α × Bus κ α
  | .subscribe k => if b.isOpen then (.done, b.subscribe k) else (.noBus, b)
  | .publish as =>
    if !b.isOpen then (.noBus, b)
    else if as.isEmpty then (.audience none, b)
    else (.audience (some b.audience), b.publishAll as)
  | .receive k =>
    match b.receive? k with
    | some (r, b) => (.received r, b)
    | none => (.noReceiver, b)
  | .drain k =>
    match b.drain? k with
    | some (items, b) => (.drained items, b)
    | none => (.noReceiver, b)
  | .unsubscribe k => (.whether (b.position? k).isSome, b.unsubscribe k)
  | .close => (.whether b.isOpen, b.close)

/-- The outcomes of some operations, one after the other. -/
def outcomes : Bus κ α → List (Op κ α) → List (Outcome α)
  | _, [] => []
  | b, o :: ops =>
    let (outcome, b) := b.perform o
    outcome :: b.outcomes ops

end Bus

end Aerial
