import Aerial.Proofs.Json.PrefixFree
import Aerial.Proofs.Wire.Statuses
import Aerial.Wire.Request

/-! # Requests on the wire

An order is written with its filled fields only, and each of them spells the cell it is
read as. So an order with anything filled in is read back as it was, and a request, which
fills in one field, arrives as that request. Whether it was written by a link or not, a
request begins with a bracket and ends with the bracket that closes it: it is not blank, and
cut off or gone on with it is no other request. -/

namespace Aerial.Wire
open Aerial.Json

/-! ## Optional members -/

theorem ofInt_begins (a : Degrees) : ∃ d ds, Octets.ofInt a.val = d :: ds ∧ isSpace d = false ∧
    d ≠ 110 := by
  cases a.val with
  | ofNat n =>
    obtain ⟨d, ds, hds, -⟩ := Octets.ofNat_eq_cons n
    have hd := Octets.isDigit_of_mem_ofNat n d (by rw [hds]; simp)
    refine ⟨d, ds, hds, isSpace_of_isDigit hd, ?_⟩
    rintro rfl
    simp [Octets.isDigit] at hd
  | negSucc n => exact ⟨45, _, rfl, by decide, by decide⟩

theorem readDegrees?_ofInt (a : Degrees) {rest : Octets} (hr : NumberStops rest) :
    readDegrees? (Octets.ofInt a.val ++ rest) = .ok (some a, rest) := by
  have hread := readDegrees_ofInt a hr
  obtain ⟨d, ds, hds, hspace, hd⟩ := ofInt_begins a
  rw [hds, List.cons_append] at hread ⊢
  rw [readDegrees?, skipSpace_cons hspace]
  split
  · rename_i heq
    exact absurd (List.cons.inj heq).1 hd
  · simp only [hread, bind, Except.bind, pure, Except.pure]

/-! ## Orders -/

def optionalDegreesEntries (key : String) : Option Degrees → List (Entry Cell)
  | some a => [⟨key, Octets.ofInt a.val, .degrees? (some a)⟩]
  | none => []

def raisedFlagEntries (key : String) : Bool → List (Entry Cell)
  | true => [flagEntry key true]
  | false => []

def orderEntries (o : Order) : List (Entry Cell) :=
  optionalDegreesEntries "azimuth" o.azimuth ++ optionalDegreesEntries "elevation" o.elevation
    ++ raisedFlagEntries "stopAzimuth" o.stopAzimuth
    ++ raisedFlagEntries "stopElevation" o.stopElevation ++ raisedFlagEntries "stop" o.stop

theorem optionalDegreesEntries_fit {members : List (Member Cell)} {key : String}
    (a : Option Degrees) (h : members.find? (·.name = key) = some (optionalDegreesMember key)) :
    ∀ e ∈ optionalDegreesEntries key a, e.Fits members := by
  cases a with
  | none => simp [optionalDegreesEntries]
  | some a =>
    simp only [optionalDegreesEntries, List.forall_mem_singleton]
    exact ⟨_, h, Read.spells_map Cell.degrees? fun _ hr => readDegrees?_ofInt a hr⟩

theorem raisedFlagEntries_fit {members : List (Member Cell)} {key : String} (b : Bool)
    (h : members.find? (·.name = key) = some (flagMember key)) :
    ∀ e ∈ raisedFlagEntries key b, e.Fits members := by
  cases b with
  | false => simp [raisedFlagEntries]
  | true =>
    simp only [raisedFlagEntries, List.forall_mem_singleton]
    exact flagEntry_fits true h

theorem orderEntries_fit (o : Order) : ∀ e ∈ orderEntries o, e.Fits orderRecord.members := by
  simp only [orderEntries, List.forall_mem_append]
  exact ⟨⟨⟨⟨optionalDegreesEntries_fit _ rfl, optionalDegreesEntries_fit _ rfl⟩,
    raisedFlagEntries_fit _ rfl⟩, raisedFlagEntries_fit _ rfl⟩, raisedFlagEntries_fit _ rfl⟩

theorem optionalDegreesEntries_keys (key : String) (a : Option Degrees) :
    ((optionalDegreesEntries key a).map Entry.key).Sublist [key] := by
  cases a with
  | none => exact List.nil_sublist _
  | some a => exact .refl _

theorem raisedFlagEntries_keys (key : String) (b : Bool) :
    ((raisedFlagEntries key b).map Entry.key).Sublist [key] := by
  cases b with
  | false => exact List.nil_sublist _
  | true => exact .refl _

/-- The fields of an order are written in their order, so none is written twice. -/
theorem orderEntries_nodup (o : Order) : ((orderEntries o).map Entry.key).Nodup := by
  have hkeys : ["azimuth", "elevation", "stopAzimuth", "stopElevation", "stop"].Nodup := by decide
  refine hkeys.sublist ?_
  simp only [orderEntries, List.map_append]
  exact ((((optionalDegreesEntries_keys _ _).append (optionalDegreesEntries_keys _ _)).append
    (raisedFlagEntries_keys _ _)).append (raisedFlagEntries_keys _ _)).append
    (raisedFlagEntries_keys _ _)

theorem build_orderEntries (o : Order) : orderRecord.build (cellsOf (orderEntries o)) = .ok o := by
  rcases o with ⟨_ | a, _ | e, _ | _, _ | _, _ | _⟩ <;> rfl

theorem headingField_eq (key : String) (a : Option Degrees) :
    headingField key a = (optionalDegreesEntries key a).map fun e => (e.key, e.written) := by
  cases a <;> rfl

theorem flagField_eq (key : String) (b : Bool) :
    flagField key b = (raisedFlagEntries key b).map fun e => (e.key, e.written) := by
  cases b <;> rfl

theorem writeOrder_eq (o : Order) :
    writeOrder o = writeObject ((orderEntries o).map fun e => (e.key, e.written)) := by
  simp only [writeOrder, orderEntries, headingField_eq, flagField_eq, List.map_append]

theorem spells_writeOrder {o : Order} (filled : orderEntries o ≠ []) :
    Spells orderRecord.read (writeOrder o) o := by
  rw [writeOrder_eq]
  exact Record.spells_writeObject (orderEntries o) filled (orderEntries_fit o)
    (orderEntries_nodup o) (build_orderEntries o)

/-! ## Requests -/

theorem spells_writeRequest (r : Request) : Spells readRequest (writeRequest r) r := by
  intro rest hr
  have hfilled : orderEntries r.order ≠ [] := by
    cases r <;> simp [orderEntries, Request.order, Order.blank, optionalDegreesEntries,
      raisedFlagEntries]
  have hread := spells_writeOrder hfilled rest hr
  rw [readRequest, writeRequest, hread]
  simp only [bind, Except.bind, r.request?_order, pure, Except.pure]

/-- A request arrives as it was sent. -/
theorem decodeRequest_writeRequest (r : Request) : decodeRequest (writeRequest r) = .ok r :=
  decode_of_spells (spells_writeRequest r)

/-! ## Texts of requests -/

theorem Read.steady_map {α β : Type} (f : α → β) {read : Read α} (h : Steady read) :
    Steady (Read.map f read) := by
  intro s b rest hread left more
  obtain ⟨⟨a, t⟩, ha, hread⟩ := bind_eq_ok_iff.mp hread
  cases hread
  exact bind_eq_ok_iff.mpr ⟨_, h ha left more, rfl⟩

theorem closed_readOrder : Closed orderRecord.read := by
  refine Record.closed_read fun m hm => ?_
  simp only [orderRecord, List.mem_cons, List.not_mem_nil, or_false] at hm
  rcases hm with rfl | rfl | rfl | rfl | rfl
  · exact Read.steady_map _ steady_readDegrees?
  · exact Read.steady_map _ steady_readDegrees?
  · exact Read.steady_map _ closed_readFlag.steady
  · exact Read.steady_map _ closed_readFlag.steady
  · exact Read.steady_map _ closed_readFlag.steady

theorem closed_readRequest : Closed readRequest := by
  intro s r rest h more
  obtain ⟨⟨o, t⟩, ho, h⟩ := bind_eq_ok_iff.mp h
  refine bind_eq_ok_iff.mpr ⟨_, closed_readOrder ho more, ?_⟩
  dsimp only at h ⊢
  split at h
  · cases h
    rfl
  · cases h

/-- A request that is gone on with is the same request or none. -/
theorem decodeRequest_append {s more : Octets} {r r' : Request} (h : decodeRequest s = .ok r)
    (longer : decodeRequest (s ++ more) = .ok r') : r = r' :=
  ((decode_append_iff closed_readRequest h).mp longer).2.symm

theorem not_blank_of_decodes {payload : Octets} {r : Request} (h : decodeRequest payload = .ok r) :
    payload.all Octets.isBlank = false := by
  obtain ⟨_, hrequest, -⟩ := bind_eq_ok_iff.mp h
  obtain ⟨_, horder, -⟩ := bind_eq_ok_iff.mp hrequest
  obtain ⟨c, t, hspace, hc⟩ := Record.opens horder
  have hmem : c ∈ payload := by
    refine (List.dropWhile_sublist isSpace).mem (?_ : c ∈ skipSpace payload)
    rw [hspace]
    exact List.mem_cons_self
  have hbracket : Octets.isBlank c = false := by
    rcases hc with rfl | rfl <;> decide
  exact List.all_eq_false.mpr ⟨c, hmem, by rw [hbracket]; decide⟩

end Aerial.Wire
