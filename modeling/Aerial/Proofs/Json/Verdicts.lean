import Aerial.Proofs.Json.Grammar
import Aerial.Proofs.Json.PrefixFree
import Aerial.Proofs.Json.Records

/-! # What a reader makes of a text

A reader judges a text if what follows the text has no say in it: either it takes the text for
something and leaves what follows, or it refuses, though with which fault may depend on what
follows. A reader decides if it judges every JSON value, of whatever kind. Judgements compose as
readers do, so a record decides because its members do. -/

namespace Aerial.Json

variable {α β : Type}

/-! ## Space -/

theorem skipSpace_gap {g : Octets} (hg : Gap g) (s : Octets) : skipSpace (g ++ s) = skipSpace s :=
  List.dropWhile_append_of_pos hg

theorem skipSpace_gap_cons {g : Octets} (hg : Gap g) {c : UInt8} (hc : isSpace c = false)
    (s : Octets) : skipSpace (g ++ c :: s) = c :: s := by
  rw [skipSpace_gap hg, skipSpace_cons hc]

theorem gap_nil : Gap [] := fun _ h => nomatch h

theorem gap_space : Gap [32] := List.forall_mem_singleton.mpr (by decide)

/-- The reader does not mind space before what it reads. -/
def Patient {β : Type} (read : Octets → β) : Prop := ∀ g s, Gap g → read (g ++ s) = read s

theorem numberStops_gap {g rest : Octets} (hg : Gap g) (hr : NumberStops rest) :
    NumberStops (g ++ rest) := by
  cases g with
  | nil => exact hr
  | cons b g =>
    intro c hc
    cases hc
    have hspace := hg b List.mem_cons_self
    simp only [isSpace, Bool.or_eq_true, decide_eq_true_eq] at hspace
    rcases hspace with ((rfl | rfl) | rfl) | rfl <;> decide

theorem numberStops_of_gap {g : Octets} (hg : Gap g) : NumberStops g := by
  have hstops := numberStops_gap hg numberStops_nil
  rwa [List.append_nil] at hstops

/-! ## Words and items -/

theorem writeNull_eq : writeNull = 110 :: ull := by decide

theorem writeFlag_true : writeFlag true = 116 :: rue := by decide

theorem writeFlag_false : writeFlag false = 102 :: alse := by decide

theorem Separated.first {ι : Type} {renders : ι → Octets → Prop} {is : List ι} {w : Octets}
    (h : Separated renders is w) : ∃ i ∈ is, ∃ v t, renders i v ∧ w = v ++ t := by
  cases h with
  | one hi => exact ⟨_, List.mem_cons_self, w, [], hi, (List.append_nil w).symm⟩
  | more hi _ => exact ⟨_, List.mem_cons_self, _, _, hi, rfl⟩

/-! ## Judgements -/

/-- A success that leaves `rest`, or for `none` a fault. -/
inductive Gives (x : Except ReadError (α × Octets)) (rest : Octets) : Option α → Prop
  | takes {a : α} (h : x = .ok (a, rest)) : Gives x rest (some a)
  | refuses {e : ReadError} (h : x = .error e) : Gives x rest none

theorem Gives.bind {x : Except ReadError (α × Octets)} {mid rest : Octets} {o : Option α}
    {f : α × Octets → Except ReadError (β × Octets)} {p : α → Option β} (hx : Gives x mid o)
    (hf : ∀ a, o = some a → Gives (f (a, mid)) rest (p a)) : Gives (x >>= f) rest (o.bind p) := by
  cases hx with
  | takes h =>
    rw [h]
    exact hf _ rfl
  | refuses h =>
    rw [h]
    exact .refuses rfl

/-- The reader takes the text `w` for what is given, or refuses it, whatever comes after. -/
def Judges (read : Octets → Except ReadError (α × Octets)) (w : Octets) (o : Option α) : Prop :=
  ∀ rest, NumberStops rest → Gives (read (w ++ rest)) rest o

/-- What the reader takes the text for when nothing follows. -/
def verdict (read : Octets → Except ReadError (α × Octets)) (w : Octets) : Option α :=
  match read w with
  | .ok (a, []) => some a
  | _ => none

section

variable {read : Octets → Except ReadError (α × Octets)} {w : Octets} {o : Option α}

theorem Judges.verdict (h : Judges read w o) : verdict read w = o := by
  have hread := h [] numberStops_nil
  rw [List.append_nil] at hread
  unfold Json.verdict
  cases hread with
  | takes hread => rw [hread]
  | refuses hread => rw [hread]

theorem judges_of_spells {a : α} (h : Spells read w a) : Judges read w (some a) :=
  fun rest hr => .takes (h rest hr)

theorem Judges.spells {a : α} (h : Judges read w (some a)) : Spells read w a := by
  intro rest hr
  cases h rest hr with
  | takes h => exact h

theorem Judges.map (f : α → β) (h : Judges read w o) :
    Judges (fun s => do let (a, rest) ← read s; pure (f a, rest)) w (o.map f) := by
  intro rest hr
  rw [Option.map_eq_bind]
  exact (h rest hr).bind fun a _ => .takes rfl

theorem decode_taken {before after : Octets} {a : α} (h : Judges read w (some a))
    (hpatient : Patient read) (hbefore : Gap before) (hafter : Gap after) :
    decode read (before ++ (w ++ after)) = .ok a := by
  rw [decode, hpatient before _ hbefore, h.spells after (numberStops_of_gap hafter)]
  simp [bind, Except.bind, pure, Except.pure, skipSpace_eq_nil_iff.mpr hafter]

theorem decode_refused {before after : Octets} (h : Judges read w none) (hpatient : Patient read)
    (hbefore : Gap before) (hafter : Gap after) :
    ∃ e, decode read (before ++ (w ++ after)) = .error e := by
  rw [decode, hpatient before _ hbefore]
  cases h after (numberStops_of_gap hafter) with
  | refuses hread =>
    rw [hread]
    exact ⟨_, rfl⟩

end

/-- The reader judges every value. -/
def Decides (read : Octets → Except ReadError (α × Octets)) : Prop :=
  ∀ v, IsValue v → ∃ o, Judges read v o

theorem Decides.judges {read : Octets → Except ReadError (α × Octets)} (h : Decides read)
    {v : Octets} (hv : IsValue v) : Judges read v (verdict read v) := by
  obtain ⟨o, ho⟩ := h v hv
  rwa [ho.verdict]

theorem Decides.map {read : Octets → Except ReadError (α × Octets)} (f : α → β) (h : Decides read) :
    Decides (fun s => do let (a, rest) ← read s; pure (f a, rest)) := by
  intro v hv
  obtain ⟨o, ho⟩ := h v hv
  exact ⟨_, ho.map f⟩

end Aerial.Json
