import Aerial.Proofs.Bus.Accounts

/-! # What one operation does on a bus

An operation is for one reader, or for nobody: publishing and closing. One that is for a reader may
bring it, move it or take it away, and has nothing to do with the others. So who the readers are
follows from who came and who went, and every publication is meant for all who are there. -/

namespace Aerial.Bus

variable {κ α : Type}

namespace Op

/-- The reader that an operation is for. Publishing and closing are for nobody. -/
def reader? : Op κ α → Option κ
  | subscribe k | receive k | drain k | unsubscribe k => some k
  | publish _ | close => none

/-- What is published, if the bus is open. -/
def published : Op κ α → List α
  | publish as => as
  | _ => []

def closes : Op κ α → Bool
  | close => true
  | _ => false

variable [DecidableEq κ]

/-- An operation for this reader, or for nobody. -/
def concerns (k : κ) (o : Op κ α) : Bool := o.reader?.all (· = k)

end Op

/-- What these operations publish on an open bus: nothing after it is closed. -/
def published : List (Op κ α) → List α
  | [] => []
  | o :: ops => o.published ++ if o.closes then [] else published ops

/-- Reader `k` has come and has not gone since. -/
def Attends (ops : List (Op κ α)) (k : κ) : Prop :=
  ∃ before later, ops = before ++ .subscribe k :: later ∧ .unsubscribe k ∉ later

theorem attends_cons {o : Op κ α} {ops : List (Op κ α)} {k : κ} :
    Attends (o :: ops) k ↔ o = .subscribe k ∧ .unsubscribe k ∉ ops ∨ Attends ops k := by
  constructor
  · intro ⟨before, later, heq, hstays⟩
    cases before with
    | nil =>
      obtain ⟨rfl, rfl⟩ := List.cons_eq_cons.mp heq
      exact .inl ⟨rfl, hstays⟩
    | cons o' before =>
      obtain ⟨rfl, rfl⟩ := List.cons_eq_cons.mp heq
      exact .inr ⟨before, later, rfl, hstays⟩
  · rintro (⟨rfl, hstays⟩ | ⟨before, later, rfl, hstays⟩)
    · exact ⟨[], ops, rfl, hstays⟩
    · exact ⟨o :: before, later, rfl, hstays⟩

variable [DecidableEq κ]

/-- Everything that is published is for everyone. -/
theorem published_concerns (k : κ) (ops : List (Op κ α)) :
    published (ops.filter (·.concerns k)) = published ops := by
  induction ops with
  | nil => rfl
  | cons o ops ih =>
    rw [List.filter_cons, published]
    split
    · rw [published, ih]
    · rename_i ho
      rw [ih]
      cases o <;> first | rfl | exact absurd rfl ho

def after (b : Bus κ α) (ops : List (Op κ α)) : Bus κ α := ops.foldl (fun b o => (b.perform o).2) b

/-! ## Receiving and draining -/

theorem perform_receive_some {b b' : Bus κ α} {k : κ} {r : Received α}
    (h : b.receive? k = some (r, b')) : b.perform (.receive k) = (.received r, b') := by
  rw [perform, h]

theorem perform_receive_none {b : Bus κ α} {k : κ} (h : b.position? k = none) :
    b.perform (.receive k) = (.noReceiver, b) := by
  rw [perform, receive?, h]
  rfl

theorem perform_drain_some {b b' : Bus κ α} {k : κ} {items : List (Item α)}
    (h : b.drain? k = some (items, b')) : b.perform (.drain k) = (.drained items, b') := by
  rw [perform, h]

theorem perform_drain_none {b : Bus κ α} {k : κ} (h : b.position? k = none) :
    b.perform (.drain k) = (.noReceiver, b) := by
  rw [perform, drain?, h]
  rfl

/-- Reader `k`, if it is one, may have been moved, and nothing else. -/
def Moved (b : Bus κ α) (k : κ) (b' : Bus κ α) : Prop :=
  b' = b ∨ ∃ p q, b.position? k = some p ∧ b' = b.place k q

theorem moved_receive (b : Bus κ α) (k : κ) : b.Moved k (b.perform (.receive k)).2 := by
  cases hp : b.position? k with
  | none => exact .inl (congrArg Prod.snd (perform_receive_none hp))
  | some p => exact .inr ⟨p, _, hp, congrArg Prod.snd (perform_receive_some (receive?_eq hp))⟩

theorem moved_drain (b : Bus κ α) (k : κ) : b.Moved k (b.perform (.drain k)).2 := by
  cases hp : b.position? k with
  | none => exact .inl (congrArg Prod.snd (perform_drain_none hp))
  | some p => exact .inr ⟨p, _, hp, congrArg Prod.snd (perform_drain_some (drain?_eq hp))⟩

theorem Moved.beside {b b' : Bus κ α} {k other : κ} (h : b.Moved other b') (hne : k ≠ other) :
    b.Beside k b' := by
  obtain rfl | ⟨p, q, -, rfl⟩ := h
  · exact .refl ..
  · exact b.beside_place hne q

theorem Moved.isOpen {b b' : Bus κ α} {k : κ} (h : b.Moved k b') : b'.isOpen = b.isOpen := by
  obtain rfl | ⟨p, q, -, rfl⟩ := h
  · rfl
  · rfl

theorem Moved.names {b b' : Bus κ α} {k : κ} (h : b.Moved k b') (unique : b.names.Nodup) :
    b'.names.Nodup ∧ ∀ other, other ∈ b'.names ↔ other ∈ b.names := by
  obtain rfl | ⟨p, q, hp, rfl⟩ := h
  · exact ⟨unique, fun _ => .rfl⟩
  · exact ⟨nodup_names_place unique k q, fun _ => mem_names_moved hp⟩

/-! ## Publishing and closing -/

theorem perform_publish {b : Bus κ α} (ring : b.Ring) (isOpen : b.isOpen = true) (as : List α) :
    (b.perform (.publish as)).2 = b.publishAll as := by
  rw [perform, isOpen]
  cases as with
  | nil => exact ring.publishAll_nil.symm
  | cons a as => rfl

theorem perform_publish_audience {b : Bus κ α} (isOpen : b.isOpen = true) {as : List α}
    (nonempty : as ≠ []) : (b.perform (.publish as)).1 = .audience (some b.names.length) := by
  rw [perform, isOpen, if_neg (by simp), if_neg (by simpa using nonempty), names, List.length_map]
  rfl

theorem isOpen_perform (b : Bus κ α) (o : Op κ α) :
    (b.perform o).2.isOpen = (b.isOpen && !o.closes) := by
  cases o with
  | subscribe k =>
    rw [perform]
    split <;> simp [Op.closes, subscribe, place]
  | receive k => exact (moved_receive b k).isOpen.trans (Bool.and_true b.isOpen).symm
  | drain k => exact (moved_drain b k).isOpen.trans (Bool.and_true b.isOpen).symm
  | unsubscribe k => exact (Bool.and_true b.isOpen).symm
  | publish as =>
    rw [perform]
    split
    · exact (Bool.and_true b.isOpen).symm
    · split <;> exact (Bool.and_true b.isOpen).symm
  | close => exact (Bool.and_false b.isOpen).symm

theorem isOpen_after (b : Bus κ α) (ops : List (Op κ α)) :
    (b.after ops).isOpen = true ↔ b.isOpen = true ∧ .close ∉ ops := by
  induction ops generalizing b with
  | nil => simp [after]
  | cons o ops ih =>
    rw [after, List.foldl_cons, ← after, ih, isOpen_perform]
    cases o <;> simp [Op.closes]

/-! ## Readers -/

/-- What is for one reader leaves the others alone. -/
theorem beside_perform {b : Bus κ α} {k other : κ} {o : Op κ α} (ho : o.reader? = some other)
    (h : k ≠ other) : b.Beside k (b.perform o).2 := by
  cases o with
  | subscribe r =>
    cases ho
    rw [perform]
    split
    · exact b.beside_place h _
    · exact .refl ..
  | receive r =>
    cases ho
    exact (moved_receive b other).beside h
  | drain r =>
    cases ho
    exact (moved_drain b other).beside h
  | unsubscribe r =>
    cases ho
    exact b.beside_unsubscribe h
  | publish as => cases ho
  | close => cases ho

theorem names_perform {b : Bus κ α} (isOpen : b.isOpen = true) (unique : b.names.Nodup)
    (o : Op κ α) :
    (b.perform o).2.names.Nodup ∧ ∀ k, k ∈ (b.perform o).2.names ↔
      o = .subscribe k ∨ k ∈ b.names ∧ o ≠ .unsubscribe k := by
  cases o with
  | subscribe r =>
    have hcame : (b.perform (.subscribe r)).2 = b.place r b.tip := by
      rw [perform, if_pos isOpen]
      rfl
    rw [hcame]
    exact ⟨nodup_names_place unique r _, fun k => by simp [mem_names_place, eq_comm]⟩
  | receive r =>
    obtain ⟨hunique, hnames⟩ := (moved_receive b r).names unique
    exact ⟨hunique, fun k => by simp [hnames]⟩
  | drain r =>
    obtain ⟨hunique, hnames⟩ := (moved_drain b r).names unique
    exact ⟨hunique, fun k => by simp [hnames]⟩
  | unsubscribe r =>
    rw [perform, names_unsubscribe]
    refine ⟨unique.filter _, fun k => ?_⟩
    rw [List.mem_filter, decide_eq_true_eq]
    simp [eq_comm (a := r)]
  | publish as =>
    have hnames : (b.perform (.publish as)).2.names = b.names := by
      rw [perform, isOpen]
      split
      · rfl
      · split <;> rfl
    rw [hnames]
    exact ⟨unique, fun k => by simp⟩
  | close =>
    have hnames : (b.perform .close).2.names = b.names := rfl
    rw [hnames]
    exact ⟨unique, fun k => by simp⟩

/-- While the bus is open, those that attend have their places in it. -/
theorem names_after {b : Bus κ α} (isOpen : b.isOpen = true) (unique : b.names.Nodup)
    {ops : List (Op κ α)} (running : .close ∉ ops) :
    (b.after ops).names.Nodup ∧
      ∀ k, k ∈ (b.after ops).names ↔ Attends ops k ∨ k ∈ b.names ∧ .unsubscribe k ∉ ops := by
  induction ops generalizing b with
  | nil => exact ⟨unique, fun k => by simp [after, Attends]⟩
  | cons o ops ih =>
    obtain ⟨hunique, hnames⟩ := names_perform isOpen unique o
    obtain ⟨hopen, hrunning⟩ := (isOpen_after b (o :: ops)).mpr ⟨isOpen, running⟩ |>
      (isOpen_after (b.perform o).2 ops).mp
    obtain ⟨hunique', hnames'⟩ := ih hopen hunique hrunning
    refine ⟨hunique', fun k => ?_⟩
    rw [after, List.foldl_cons, ← after, hnames', hnames, attends_cons, List.mem_cons]
    grind

end Aerial.Bus
