import Aerial.Proofs.Json.Members
import Aerial.Proofs.Wire.Requests

/-! # A request is told by its members

What a payload is decoded as depends on what its members say and on nothing else: not on space, on
the spelling of keys, on the order of members, or on members that an order does not know. A heading
that no `Degrees` can hold is refused, however many digits it has. Otherwise the first of five
things that is asked for is done: a full stop, a stop of one axis, a move of one axis. -/

namespace Aerial.Wire
open Aerial.Json

/-! ## Members of a record -/

theorem Read.patient_map {α β : Type} (f : α → β) {read : Read α} (h : Patient read) :
    Patient (Read.map f read) := by
  intro g s hg
  rw [Read.map, Read.map, h g s hg]

theorem Read.decides_map {α β : Type} (f : α → β) {read : Read α} (h : Decides read) :
    Decides (Read.map f read) := h.map f

theorem Read.verdict_map {α β : Type} (f : α → β) {read : Read α} {w : Octets} {o : Option α}
    (h : Judges read w o) : verdict (Read.map f read) w = o.map f := (h.map f).verdict

theorem ready_order : Ready orderRecord.members := by
  have hheading : ∀ key, Decides (optionalDegreesMember key).read ∧
      Patient (optionalDegreesMember key).read := fun _ =>
    ⟨Read.decides_map _ decides_readDegrees?, Read.patient_map _ patient_readDegrees?⟩
  have hflag : ∀ key, Decides (flagMember key).read ∧ Patient (flagMember key).read := fun _ =>
    ⟨Read.decides_map _ decides_readFlag, Read.patient_map _ patient_readFlag⟩
  intro m hm
  simp only [orderRecord, List.mem_cons, List.not_mem_nil, or_false] at hm
  rcases hm with rfl | rfl | rfl | rfl | rfl
  · exact hheading _
  · exact hheading _
  · exact hflag _
  · exact hflag _
  · exact hflag _

/-! ## What is said -/

/-- An order whose headings need not be such. -/
structure Draft where
  azimuth : Option Int
  elevation : Option Int
  stopAzimuth : Bool
  stopElevation : Bool
  stop : Bool

def headingText : Option Int → Octets
  | some n => Octets.ofInt n
  | none => writeNull

/-- The members say what is in the draft. A heading that is left out is `null`, a flag is false. -/
structure Draft.Fills (d : Draft) (ms : List (String × Octets)) : Prop where
  azimuth : (ms.lookup "azimuth").getD writeNull = headingText d.azimuth
  elevation : (ms.lookup "elevation").getD writeNull = headingText d.elevation
  stopAzimuth : (ms.lookup "stopAzimuth").getD (writeFlag false) = writeFlag d.stopAzimuth
  stopElevation : (ms.lookup "stopElevation").getD (writeFlag false) = writeFlag d.stopElevation
  stop : (ms.lookup "stop").getD (writeFlag false) = writeFlag d.stop

def orderDraft (o : Order) : Draft :=
  ⟨o.azimuth.map Degrees.val, o.elevation.map Degrees.val, o.stopAzimuth, o.stopElevation, o.stop⟩

/-- Some heading is beyond 32 bits. -/
def Draft.Exceeds (d : Draft) : Prop :=
  ∃ n, (d.azimuth = some n ∨ d.elevation = some n) ∧ (n < -2147483648 ∨ 2147483647 < n)

theorem order_of_not_exceeds {d : Draft} (h : ¬d.Exceeds) : ∃ o, orderDraft o = d := by
  have hfits : ∀ {said : Option Int}, (∀ n, said = some n → ¬(n < -2147483648 ∨ 2147483647 < n)) →
      ∃ a : Option Degrees, a.map Degrees.val = said := by
    intro said hsaid
    cases said with
    | none => exact ⟨none, rfl⟩
    | some n =>
      obtain ⟨hlow, hhigh⟩ := not_or.mp (hsaid n rfl)
      exact ⟨some ⟨n, by simp only [Degrees.lowest]; omega, by simp only [Degrees.highest]; omega⟩,
        rfl⟩
  obtain ⟨a, ha⟩ := hfits fun n hn hrange => h ⟨n, .inl hn, hrange⟩
  obtain ⟨e, he⟩ := hfits fun n hn hrange => h ⟨n, .inr hn, hrange⟩
  refine ⟨⟨a, e, d.stopAzimuth, d.stopElevation, d.stop⟩, ?_⟩
  rw [orderDraft, ha, he]

def orderKeys : List String := ["azimuth", "elevation", "stopAzimuth", "stopElevation", "stop"]

/-- A text with these members: an object, or an array of their values from the first key on. -/
inductive Presents (ms : List (String × Octets)) (w : Octets) : Prop
  | object (h : IsObject ms w)
  | array {vs : List Octets} (h : IsArray vs w) (short : vs.length ≤ 5)
      (members : ms = orderKeys.zip vs)

/-- The first of five things that is asked for, or the complaint that nothing is. -/
structure Follows (o : Order) (x : Except ReadError Request) : Prop where
  stop : o.stop = true → x = .ok .stop
  stopAzimuth : o.stop = false → o.stopAzimuth = true → x = .ok .stopAzimuth
  stopElevation : o.stop = false → o.stopAzimuth = false → o.stopElevation = true →
    x = .ok .stopElevation
  setAzimuth : o.stop = false → o.stopAzimuth = false → o.stopElevation = false →
    ∀ a, o.azimuth = some a → x = .ok (.setAzimuth a)
  setElevation : o.stop = false → o.stopAzimuth = false → o.stopElevation = false →
    o.azimuth = none → ∀ e, o.elevation = some e → x = .ok (.setElevation e)
  nothing : o.stop = false → o.stopAzimuth = false → o.stopElevation = false →
    o.azimuth = none → o.elevation = none →
      ∃ why, why.message = "request contains no command" ∧ x = .error (.unfit why)

theorem follows_request? (o : Order) :
    Follows o (match o.request? with | some r => .ok r | none => .error (.unfit .noCommand)) where
  stop hs := by simp only [Order.request?, hs, if_true]
  stopAzimuth hs ha := by simp only [Order.request?, hs, ha, Bool.false_eq_true, if_false, if_true]
  stopElevation hs ha he := by
    simp only [Order.request?, hs, ha, he, Bool.false_eq_true, if_false, if_true]
  setAzimuth hs ha he a hazimuth := by
    simp only [Order.request?, hs, ha, he, hazimuth, Bool.false_eq_true, if_false]
  setElevation hs ha he hazimuth e helevation := by
    simp only [Order.request?, hs, ha, he, hazimuth, helevation, Bool.false_eq_true, if_false]
  nothing hs ha he hazimuth helevation := by
    refine ⟨.noCommand, rfl, ?_⟩
    simp only [Order.request?, hs, ha, he, hazimuth, helevation, Bool.false_eq_true, if_false]

/-! ## What is read -/

theorem ofInt_ne_writeNull (n : Int) : Octets.ofInt n ≠ writeNull := by
  obtain ⟨c, t, htext, hc⟩ := (isNumber_ofInt n).begins
  rw [htext, writeNull_eq]
  intro heq
  exact begins_ne hc 110 (by simp) (List.cons.inj heq).1

theorem verdict_heading (key : String) (a : Option Degrees) :
    verdict (optionalDegreesMember key).read (headingText (a.map Degrees.val))
      = some (.degrees? a) := by
  cases a with
  | none => exact Read.verdict_map Cell.degrees? (judges_of_spells spells_null)
  | some a =>
    have h := Read.verdict_map Cell.degrees? (judges_readDegrees?_ofInt a.val)
    rwa [Degrees.ofInt?_val] at h

theorem verdict_exceeding {n : Int} (h : n < -2147483648 ∨ 2147483647 < n) (key : String) :
    verdict (optionalDegreesMember key).read (Octets.ofInt n) = none := by
  have hread := Read.verdict_map Cell.degrees? (judges_readDegrees?_ofInt n)
  rwa [Degrees.ofInt?_eq_none h] at hread

theorem verdict_flag (key : String) (b : Bool) :
    verdict (flagMember key).read (writeFlag b) = some (.flag b) :=
  Read.verdict_map Cell.flag (judges_of_spells (spells_flag b))

theorem writeFlag_injective {b b' : Bool} (h : writeFlag b = writeFlag b') : b = b' := by
  have := verdict_flag "" b
  rw [h, verdict_flag] at this
  cases this
  rfl

theorem judges_presented {ms : List (String × Octets)} {w : Octets} (h : Presents ms w) :
    Judges orderRecord.read w (orderRecord.ofMembers some ms) := by
  cases h with
  | object h => exact Record.judges_object ready_order h
  | array h short members =>
    subst members
    have hfits : orderRecord.Fits _ := ⟨short, fun hall => by cases hall⟩
    rw [show orderKeys = orderRecord.names from rfl,
      ← Record.ofElements_eq (by decide) hfits]
    exact Record.judges_array ready_order h

/-! ## From members to a request -/

section

variable {ms : List (String × Octets)}

theorem lookup_heading {key : String} {a : Option Degrees}
    (h : (ms.lookup key).getD writeNull = headingText (a.map Degrees.val)) :
    Cell.optionalHeading ((ms.lookup key).bind (verdict (optionalDegreesMember key).read)) = a := by
  cases hv : ms.lookup key with
  | none =>
    rw [hv, Option.getD_none] at h
    cases a with
    | none => rfl
    | some a => exact absurd h.symm (ofInt_ne_writeNull a.val)
  | some v =>
    rw [hv, Option.getD_some] at h
    rw [Option.bind_some, h, verdict_heading]
    rfl

theorem lookup_flag {key : String} {b : Bool}
    (h : (ms.lookup key).getD (writeFlag false) = writeFlag b) :
    Cell.optionalFlag ((ms.lookup key).bind (verdict (flagMember key).read)) = b := by
  cases hv : ms.lookup key with
  | none =>
    rw [hv, Option.getD_none] at h
    exact writeFlag_injective h
  | some v =>
    rw [hv, Option.getD_some] at h
    rw [Option.bind_some, h, verdict_flag]
    rfl

theorem acceptable_of_fills {o : Order}
    (once : ∀ key ∈ orderKeys, (ms.map Prod.fst).count key ≤ 1) (h : (orderDraft o).Fills ms) :
    Acceptable orderRecord.members [] ms := by
  intro p hp m hm
  obtain ⟨hmem, hname⟩ := known?_eq_some hm
  have honce : (ms.map Prod.fst).count p.1 ≤ 1 := by
    refine once p.1 ?_
    rw [← hname]
    exact List.mem_map_of_mem (f := Member.name) hmem
  have hpos := List.count_pos_iff.mpr (List.mem_map_of_mem (f := Prod.fst) hp)
  have hlookup := lookup_of_count hp honce
  refine ⟨rfl, by omega, ?_⟩
  have hheading : ∀ {key : String} {a : Option Degrees}, p.1 = key →
      (ms.lookup key).getD writeNull = headingText (a.map Degrees.val) →
      (verdict (optionalDegreesMember key).read p.2).isSome := by
    rintro key a rfl htext
    rw [hlookup, Option.getD_some] at htext
    rw [htext, verdict_heading]
    rfl
  have hflag : ∀ {key : String} {b : Bool}, p.1 = key →
      (ms.lookup key).getD (writeFlag false) = writeFlag b →
      (verdict (flagMember key).read p.2).isSome := by
    rintro key b rfl htext
    rw [hlookup, Option.getD_some] at htext
    rw [htext, verdict_flag]
    rfl
  simp only [orderRecord, List.mem_cons, List.not_mem_nil, or_false] at hmem
  rcases hmem with rfl | rfl | rfl | rfl | rfl
  · exact hheading hname.symm h.azimuth
  · exact hheading hname.symm h.elevation
  · exact hflag hname.symm h.stopAzimuth
  · exact hflag hname.symm h.stopElevation
  · exact hflag hname.symm h.stop

theorem ofMembers_of_fills {o : Order}
    (once : ∀ key ∈ orderKeys, (ms.map Prod.fst).count key ≤ 1) (h : (orderDraft o).Fills ms) :
    orderRecord.ofMembers some ms = some o := by
  obtain ⟨cells, hcells, hlookup⟩ := Record.ofMembers_of_acceptable (acceptable_of_fills once h)
  have hazimuth := lookup_heading h.azimuth
  have helevation := lookup_heading h.elevation
  have hstopAzimuth := lookup_flag h.stopAzimuth
  have hstopElevation := lookup_flag h.stopElevation
  have hstop := lookup_flag h.stop
  rw [← hlookup _ _ rfl] at hazimuth helevation hstopAzimuth hstopElevation hstop
  rw [hcells, Record.assembled]
  simp only [orderRecord, hazimuth, helevation, hstopAzimuth, hstopElevation, hstop]
  rfl

/-- A heading beyond 32 bits is in no order. -/
theorem ofMembers_of_exceeds {d : Draft} (h : d.Fills ms) (hexceeds : d.Exceeds) :
    orderRecord.ofMembers some ms = none := by
  obtain ⟨n, hn, hrange⟩ := hexceeds
  have hrefused : ∀ {key : String} {said : Option Int}, said = some n →
      (ms.lookup key).getD writeNull = headingText said →
      known? orderRecord.members key = some (optionalDegreesMember key) →
      orderRecord.ofMembers some ms = none := by
    rintro key said rfl htext hknown
    cases hv : ms.lookup key with
    | none =>
      rw [hv, Option.getD_none] at htext
      exact absurd htext.symm (ofInt_ne_writeNull n)
    | some v =>
      rw [hv, Option.getD_some] at htext
      have hverdict := verdict_exceeding hrange key
      rw [show Octets.ofInt n = v from htext.symm] at hverdict
      exact Record.ofMembers_of_refused hknown (mem_of_lookup hv) hverdict
  rcases hn with hn | hn
  · exact hrefused hn h.azimuth rfl
  · exact hrefused hn h.elevation rfl

theorem patient_readRequest : Patient readRequest := by
  intro g s hg
  rw [readRequest, readRequest, Record.patient_read g s hg]

theorem judges_readRequest {w : Octets} {o : Option Order} (h : Judges orderRecord.read w o) :
    Judges readRequest w (o.bind Order.request?) := by
  intro rest hr
  refine (h rest hr).bind fun o _ => ?_
  dsimp only
  cases o.request? with
  | some r => exact .takes rfl
  | none => exact .refuses rfl

variable {before text after : Octets}

theorem decodeRequest_refused (hbefore : Gap before) (hafter : Gap after)
    (h : Judges orderRecord.read text none) :
    ∃ e, decodeRequest (before ++ (text ++ after)) = .error e :=
  decode_refused (judges_readRequest h) patient_readRequest hbefore hafter

theorem decodeRequest_taken (hbefore : Gap before) (hafter : Gap after) {o : Order}
    (h : Judges orderRecord.read text (some o)) :
    decodeRequest (before ++ (text ++ after)) =
      match o.request? with | some r => .ok r | none => .error (.unfit .noCommand) := by
  have hspace := skipSpace_eq_nil_iff.mpr hafter
  rw [decodeRequest, decode, patient_readRequest before _ hbefore, readRequest,
    h.spells after (numberStops_of_gap hafter)]
  simp only [bind, Except.bind, pure, Except.pure]
  cases o.request? with
  | none => rfl
  | some r => simp only [hspace, if_true]

/-- A payload is told by its members. A known one that comes twice is an error, and so is a heading
beyond 32 bits. Otherwise the first thing that is asked for is the request. -/
theorem request_told_by_members (hbefore : Gap before) (hafter : Gap after)
    (presents : Presents ms text) :
    (∀ key ∈ orderKeys, 1 < (ms.map Prod.fst).count key →
      ∃ e, decodeRequest (before ++ (text ++ after)) = .error e) ∧
    ((∀ key ∈ orderKeys, (ms.map Prod.fst).count key ≤ 1) → ∀ d : Draft, d.Fills ms →
      (d.Exceeds → ∃ e, decodeRequest (before ++ (text ++ after)) = .error e) ∧
      (¬d.Exceeds → ∃ o, orderDraft o = d ∧
        Follows o (decodeRequest (before ++ (text ++ after))))) := by
  have hjudges := judges_presented presents
  refine ⟨fun key hkey htwice => ?_, fun once d hfills => ⟨fun hexceeds => ?_, fun hfits => ?_⟩⟩
  · obtain ⟨m, hm, rfl⟩ :=
      List.mem_map.mp (show key ∈ orderRecord.members.map Member.name from hkey)
    rw [Record.ofMembers_of_repeated (known?_name (by decide) hm) htwice] at hjudges
    exact decodeRequest_refused hbefore hafter hjudges
  · rw [ofMembers_of_exceeds hfills hexceeds] at hjudges
    exact decodeRequest_refused hbefore hafter hjudges
  · obtain ⟨o, rfl⟩ := order_of_not_exceeds hfits
    rw [ofMembers_of_fills once hfills] at hjudges
    refine ⟨o, rfl, ?_⟩
    rw [decodeRequest_taken hbefore hafter hjudges]
    exact follows_request? o

end

/-- An empty object in an array, a value that no record has. -/
theorem isValue_nested : IsValue [91, 123, 125, 93] := by
  have hempty : IsValue [123, 125] :=
    @IsValue.object [] _ ⟨[], .empty gap_nil, rfl⟩ (by simp) (by simp)
  exact @IsValue.array [[123, 125]] _ ⟨_, .items (.one (spaced_tight _)), rfl⟩
    (by simpa using hempty)

/-- A request in a roundabout rendering, with a member that no order knows. -/
def roundabout : Octets :=
  Octets.ofString " \x7b\"st\\u006fp\" : false,\"x\":[\x7b\x7d],\"azimuth\":-12\x7d"

theorem isObject_roundabout : IsObject [("stop", writeFlag false), ("x", [91, 123, 125, 93]),
    ("azimuth", Octets.ofInt (-12))] (roundabout.drop 1) := by
  have hdigits : SpellsUnit 111 [92, 117, 48, 48, 54, 102] :=
    @SpellsUnit.digits 0 0 6 15 48 48 54 102 ⟨by decide, .inl rfl⟩ ⟨by decide, .inl rfl⟩
      ⟨by decide, .inl rfl⟩ ⟨by decide, .inl rfl⟩
  have hstop : SpellsText "stop" (Octets.ofString "\"st\\u006fp\"") :=
    ⟨_, .cons (.plain (by decide) (by decide) (by decide)) (.cons (.plain (by decide) (by decide)
      (by decide)) (.cons (.unit hdigits) (.cons (.plain (by decide) (by decide) (by decide))
        .nil))), by decide⟩
  have hfirst : RendersMember SpellsText ("stop", writeFlag false)
      (Octets.ofString "\"st\\u006fp\" : false") :=
    ⟨_, _, _, hstop, ⟨[], [32], gap_nil, gap_space, rfl⟩, ⟨[32], [], gap_space, gap_nil, rfl⟩,
      by decide⟩
  refine ⟨⟨_, .items (.more hfirst (.more (rendersMember_tight (by simp) _)
    (.one (rendersMember_tight (by simp) _)))), by decide⟩, ?_⟩
  simp only [List.forall_mem_cons]
  exact ⟨.flag false, isValue_nested, isValue_ofInt (-12), by simp⟩

theorem request_told_by_members_roundabout :
    ∃ a : Degrees, a.val = -12 ∧ decodeRequest roundabout = .ok (.setAzimuth a) := by
  obtain ⟨-, htold⟩ := request_told_by_members gap_space gap_nil (.object isObject_roundabout)
  obtain ⟨-, hfits⟩ := htold (by decide) ⟨some (-12), none, false, false, false⟩
    ⟨rfl, rfl, rfl, rfl, rfl⟩
  obtain ⟨o, ho, hfollows⟩ := hfits fun ⟨n, hn, hrange⟩ => by
    rcases hn with hn | hn <;> cases hn
    omega
  obtain ⟨azimuth, elevation, stopAzimuth, stopElevation, stop⟩ := o
  simp only [orderDraft, Draft.mk.injEq, Option.map_eq_some_iff] at ho
  obtain ⟨⟨a, ha, hval⟩, -, rfl, rfl, rfl⟩ := ho
  refine ⟨a, hval, ?_⟩
  have hsplit : roundabout = [32] ++ (roundabout.drop 1 ++ []) := by decide
  rw [hsplit]
  exact hfollows.setAzimuth rfl rfl rfl a ha

end Aerial.Wire
