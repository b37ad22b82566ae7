import Aerial.Proofs.Wire.Requests

/-! # Whatever is written is read back

Every kind of text on the wire is read as what it was written for, down to the order that says
nothing. And it is written in bytes that are no control characters: those that a name may hold
are escaped by others. -/

namespace Aerial

namespace Json

/-- No byte of a text is a control character. -/
def Printable (w : Octets) : Prop := ∀ b ∈ w, 32 ≤ b

instance (w : Octets) : Decidable (Printable w) := List.decidableBAll (32 ≤ ·) w

theorem printable_append {w v : Octets} : Printable (w ++ v) ↔ Printable w ∧ Printable v :=
  List.forall_mem_append

theorem printable_cons {b : UInt8} {w : Octets} : Printable (b :: w) ↔ 32 ≤ b ∧ Printable w :=
  List.forall_mem_cons

theorem printable_flatMap {α : Type} {f : α → Octets} {as : List α}
    (h : ∀ a ∈ as, Printable (f a)) : Printable (as.flatMap f) := by
  intro b hb
  obtain ⟨a, ha, hmem⟩ := List.mem_flatMap.mp hb
  exact h a ha b hmem

/-! ## Scalars -/

theorem lowerHex_ge : ∀ n < 16, 32 ≤ lowerHex n := by decide

theorem printable_escapeByte (b : UInt8) : Printable (escapeByte b) := by
  have hhigh := lowerHex_ge (b.toNat / 16) (by have := b.toNat_lt; omega)
  have hlow := lowerHex_ge (b.toNat % 16) (by omega)
  unfold escapeByte
  repeat' split
  any_goals decide
  · simp only [printable_cons]
    exact ⟨by decide, by decide, by decide, by decide, hhigh, hlow, by decide⟩
  · rename_i hcontrol
    simpa [Printable] using hcontrol

theorem printable_writeText (s : String) : Printable (writeText s) :=
  printable_cons.mpr ⟨by decide,
    printable_append.mpr ⟨printable_flatMap fun b _ => printable_escapeByte b, by decide⟩⟩

theorem printable_ofNat (n : Nat) : Printable (Octets.ofNat n) := by
  intro b hb
  have hdigit := Octets.isDigit_of_mem_ofNat n b hb
  simp only [Octets.isDigit, Bool.and_eq_true, decide_eq_true_eq] at hdigit
  exact UInt8.le_trans (by decide) hdigit.1

theorem printable_ofInt (n : Int) : Printable (Octets.ofInt n) := by
  cases n with
  | ofNat n => exact printable_ofNat n
  | negSucc n => exact printable_cons.mpr ⟨by decide, printable_ofNat (n + 1)⟩

theorem printable_writeFlag (b : Bool) : Printable (writeFlag b) := by
  cases b <;> decide

/-! ## Objects and lists -/

theorem printable_commaSeparated {ws : List Octets} (h : ∀ w ∈ ws, Printable w) :
    Printable (commaSeparated ws) := by
  cases ws with
  | nil => decide
  | cons w ws =>
    rw [commaSeparated_cons]
    refine printable_append.mpr ⟨h w List.mem_cons_self, printable_flatMap fun v hv => ?_⟩
    exact printable_cons.mpr ⟨by decide, h v (List.mem_cons_of_mem w hv)⟩

theorem printable_writeObject {members : List (String × Octets)}
    (h : ∀ m ∈ members, Printable m.2) : Printable (writeObject members) := by
  refine printable_cons.mpr ⟨by decide, printable_append.mpr ⟨?_, by decide⟩⟩
  refine printable_commaSeparated fun w hw => ?_
  obtain ⟨m, hm, rfl⟩ := List.mem_map.mp hw
  exact printable_append.mpr ⟨printable_writeText m.1, printable_cons.mpr ⟨by decide, h m hm⟩⟩

theorem printable_writeArray {items : List Octets} (h : ∀ w ∈ items, Printable w) :
    Printable (writeArray items) :=
  printable_cons.mpr ⟨by decide, printable_append.mpr ⟨printable_commaSeparated h, by decide⟩⟩

variable {γ α : Type}

/-- The empty object is read as the record of which nothing was given. -/
theorem Record.spells_empty {r : Record γ α} {a : α} (hbuild : r.build [] = .ok a) :
    Spells r.read (writeObject []) a := by
  intro rest _
  have hmembers : readMembers r.members (125 :: rest) true [] (125 :: rest)
      = .ok ([], 125 :: rest) := by
    simp only [readMembers, nextKey_end, bind, Except.bind, pure, Except.pure,
      skipSpace_cons (show isSpace 125 = false by decide)]
  rw [show writeObject [] ++ rest = 123 :: 125 :: rest from rfl, Record.read,
    skipSpace_cons (by decide)]
  simp only [if_true, Record.readObject, bind, Except.bind, pure, Except.pure, hmembers, hbuild,
    List.drop_succ_cons, List.drop_zero]

end Json

namespace Wire
open Aerial.Json

theorem printable_writeStatus (s : Status) : Printable (writeStatus s) :=
  printable_writeObject (by
    simp [printable_writeText, printable_ofInt, printable_writeFlag])

theorem printable_writeInfo (i : Info) : Printable (writeInfo i) :=
  printable_writeObject (by
    simp [printable_writeText, printable_ofInt, printable_writeFlag])

theorem printable_writeInfos (is : List Info) : Printable (writeInfos is) := by
  refine printable_writeArray fun w hw => ?_
  obtain ⟨i, -, rfl⟩ := List.mem_map.mp hw
  exact printable_writeInfo i

theorem printable_writeNotice (n : Notice) : Printable (writeNotice n) :=
  printable_writeObject (by simp [printable_writeText, printable_writeStatus])

/-! ## Orders -/

/-- The members of an order that say something. -/
def filled (o : Order) : List String :=
  (if o.azimuth.isSome then ["azimuth"] else []) ++ (if o.elevation.isSome then ["elevation"] else [])
    ++ (if o.stopAzimuth then ["stopAzimuth"] else [])
    ++ (if o.stopElevation then ["stopElevation"] else []) ++ if o.stop then ["stop"] else []

theorem keys_orderEntries (o : Order) : (orderEntries o).map Entry.key = filled o := by
  rcases o with ⟨_ | a, _ | e, _ | _, _ | _, _ | _⟩ <;> rfl

theorem printable_writeOrder (o : Order) : Printable (writeOrder o) := by
  refine printable_writeObject ?_
  rcases o with ⟨_ | a, _ | e, _ | _, _ | _, _ | _⟩ <;>
    simp [headingField, flagField, printable_ofInt, printable_writeFlag]

/-- An order arrives as it was sent, also the one that says nothing. -/
theorem decodeOrder_writeOrder (o : Order) : decodeOrder (writeOrder o) = .ok o := by
  refine decode_of_spells ?_
  by_cases hfilled : orderEntries o = []
  · rw [writeOrder_eq, hfilled]
    have hbuild := build_orderEntries o
    rw [hfilled] at hbuild
    exact Record.spells_empty hbuild
  · exact spells_writeOrder hfilled

/-- What is written on the wire is read back as it was, and has no control characters. An order
is written with the members that say something only, and a request survives the way through an
order and back. -/
theorem wire_round_trip :
    (∀ s : Status, decodeStatus (writeStatus s) = .ok s ∧ Printable (writeStatus s)) ∧
    (∀ i : Info, decodeInfo (writeInfo i) = .ok i ∧ Printable (writeInfo i)) ∧
    (∀ is : List Info, decodeInfos (writeInfos is) = .ok is ∧ Printable (writeInfos is)) ∧
    (∀ n : Notice, decodeNotice (writeNotice n) = .ok n ∧ Printable (writeNotice n)) ∧
    (∀ r : Request, decodeRequest (writeRequest r) = .ok r ∧ Printable (writeRequest r) ∧
      r.order.request? = some r) ∧
    (∀ o : Order, decodeOrder (writeOrder o) = .ok o ∧ Printable (writeOrder o) ∧
      ∃ members, writeOrder o = writeObject members ∧ members.map Prod.fst = filled o) := by
  refine ⟨fun s => ⟨decode_of_spells (spells_writeStatus s), printable_writeStatus s⟩,
    fun i => ⟨decode_of_spells (spells_writeInfo i), printable_writeInfo i⟩,
    fun is => ⟨decodeInfos_writeInfos is, printable_writeInfos is⟩,
    fun n => ⟨decodeNotice_writeNotice n, printable_writeNotice n⟩,
    fun r => ⟨decodeRequest_writeRequest r, printable_writeOrder r.order, r.request?_order⟩,
    fun o => ⟨decodeOrder_writeOrder o, printable_writeOrder o, _, writeOrder_eq o, ?_⟩⟩
  rw [List.map_map, ← keys_orderEntries]
  rfl

end Wire

end Aerial
