import Aerial.Proofs.Wire.Kinds
import Aerial.Proofs.Wire.Orders

/-! # Every rendering of a complete record, and nothing incomplete

A status, a description or a notice is decoded from every text that renders it: an object with its
members in any order, any spelling, any space and with any other members among them, or the array
of its values. An object in which a member is missing or comes twice is refused, and so is an array
that is too short or too long; a notice is refused with the status that it holds. -/

namespace Aerial.Wire
open Aerial.Json

/-! ## Renderings -/

/-- The text is the value of a member that holds this, unless it holds a record. -/
def Cell.Says : Cell → Octets → Prop
  | text s, w => SpellsText s w
  | degrees a, w => w = Octets.ofInt a.val
  | flag b, w => w = writeFlag b
  | degrees? a, w => w = headingText (a.map Degrees.val)
  | kind k, w => SpellsText k.name w ∨ IsObject [(k.name, writeNull)] w
  | status _, _ => False

/-- The text renders a record of these cells: an object in which each of them comes once, or the
array of their values. -/
inductive RendersRecord (renders : Cell → Octets → Prop) (cells : Cells Cell) (w : Octets) : Prop
  | object {ms : List (String × Octets)} (h : IsObject ms w)
      (once : ∀ p ∈ cells, (ms.map Prod.fst).count p.1 = 1)
      (own : ∀ m ∈ ms, ∀ c, (m.1, c) ∈ cells → renders c m.2)
  | array {vs : List Octets} (h : IsArray vs w) (length : vs.length = cells.length)
      (own : ∀ q ∈ cells.zip vs, renders q.1.2 q.2)

/-- The text is the value of a member that holds this. -/
def Cell.Renders : Cell → Octets → Prop
  | status s, w => RendersRecord Says (cellsOf (statusEntries s)) w
  | c, w => c.Says w

/-- A member is missing or comes more than once, or there are too few or too many elements. -/
inductive Flawed (names : List String) (w : Octets) : Prop
  | object {ms : List (String × Octets)} (h : IsObject ms w) {name : String} (hname : name ∈ names)
      (count : (ms.map Prod.fst).count name ≠ 1)
  | array {vs : List Octets} (h : IsArray vs w) (length : vs.length ≠ names.length)

/-! ## Records that need all their members -/

/-- The member of this key takes what renders the cell for the cell. -/
def Taken (renders : Cell → Octets → Prop) (members : List (Member Cell)) (p : String × Cell) :
    Prop :=
  ∃ m, known? members p.1 = some m ∧ ∀ w, renders p.2 w → verdict m.read w = some p.2

/-- The cells of a value are all that its record is made of. -/
structure Renderable {α : Type} (renders : Cell → Octets → Prop) (r : Record Cell α)
    (cells : α → Cells Cell) : Prop where
  ready : Ready r.members
  required : r.optional = false
  nodup : r.names.Nodup
  keys : ∀ a, (cells a).map Prod.fst = r.names
  taken : ∀ a, ∀ p ∈ cells a, Taken renders r.members p
  assembled : ∀ out a, r.assembled out = some a ↔ ∀ p ∈ cells a, out.lookup p.1 = some p.2

namespace Renderable

variable {α : Type} {renders : Cell → Octets → Prop} {r : Record Cell α} {cells : α → Cells Cell}

theorem ofMembers_complete (hr : Renderable renders r cells) {a : α}
    {ms : List (String × Octets)} (once : ∀ p ∈ cells a, (ms.map Prod.fst).count p.1 = 1)
    (own : ∀ m ∈ ms, ∀ c, (m.1, c) ∈ cells a → renders c m.2) :
    r.ofMembers some ms = some a := by
  have hverdict : ∀ {m c known}, m ∈ ms → (m.1, c) ∈ cells a → known? r.members m.1 = some known →
      verdict known.read m.2 = some c := by
    intro m c known hm hc hknown
    obtain ⟨known', hknown', htaken⟩ := hr.taken a _ hc
    cases hknown.symm.trans hknown'
    exact htaken _ (own m hm c hc)
  have hacceptable : Acceptable r.members [] ms := by
    intro m hm known hknown
    obtain ⟨hmem, hname⟩ := known?_eq_some hknown
    have hkey : m.1 ∈ (cells a).map Prod.fst := by
      rw [hr.keys a, ← hname]
      exact List.mem_map_of_mem hmem
    obtain ⟨⟨key, c⟩, hc, rfl⟩ := List.mem_map.mp hkey
    exact ⟨rfl, once _ hc, by rw [hverdict hm hc hknown]; rfl⟩
  obtain ⟨out, hout, hlookup⟩ := Record.ofMembers_of_acceptable hacceptable
  rw [hout, hr.assembled]
  intro p hp
  obtain ⟨known, hknown, -⟩ := hr.taken a p hp
  have hpos : 0 < (ms.map Prod.fst).count p.1 := by
    rw [once p hp]
    exact Nat.one_pos
  obtain ⟨m, hm, hkey⟩ := List.mem_map.mp (List.count_pos_iff.mp hpos)
  obtain ⟨key, c⟩ := p
  subst hkey
  have hone : (ms.map Prod.fst).count m.1 ≤ 1 := Nat.le_of_eq (once _ hp)
  rw [hlookup _ known hknown, lookup_of_count hm hone]
  exact hverdict hm hp hknown

/-- The values of a complete record may stand in its order, without their keys. -/
theorem ofMembers_zip (hr : Renderable renders r cells) {a : α} {vs : List Octets}
    (length : vs.length = (cells a).length)
    (own : ∀ q ∈ (cells a).zip vs, renders q.1.2 q.2) :
    r.ofMembers some (r.names.zip vs) = some a := by
  have hnames : (r.names.zip vs).map Prod.fst = r.names := by
    refine List.map_fst_zip (Nat.le_of_eq ?_)
    rw [← hr.keys a, List.length_map, length]
  have hone : ∀ key, ((cells a).map Prod.fst).count key ≤ 1 := by
    rw [hr.keys a]
    exact List.nodup_iff_count.mp hr.nodup
  refine hr.ofMembers_complete (fun p hp => ?_) fun m hm c hc => ?_
  · rw [hnames, ← hr.keys a]
    exact Nat.le_antisymm (hone p.1) (List.count_pos_iff.mpr (List.mem_map_of_mem hp))
  · rw [← hr.keys a, List.zip_map_left] at hm
    obtain ⟨q, hq, rfl⟩ := List.mem_map.mp hm
    have hcell := lookup_of_count (List.of_mem_zip hq).1 (hone q.1.1)
    have hother : (cells a).lookup q.1.1 = some c := lookup_of_count hc (hone q.1.1)
    have hsame : q.1.2 = c := Option.some.inj (hcell.symm.trans hother)
    rw [← hsame]
    exact own q hq

/-- Every rendering of a complete record is read as that record. -/
theorem judges_complete (hr : Renderable renders r cells) {a : α} {w : Octets}
    (h : RendersRecord renders (cells a) w) : Judges r.read w (some a) := by
  cases h with
  | object h once own =>
    rw [← hr.ofMembers_complete once own]
    exact Record.judges_object hr.ready h
  | array h length own =>
    have hlength := congrArg List.length (hr.keys a)
    rw [Record.names, List.length_map, List.length_map, ← length] at hlength
    rw [← hr.ofMembers_zip length own,
      ← Record.ofElements_eq hr.nodup ⟨Nat.le_of_eq hlength, fun _ => hlength⟩]
    exact Record.judges_array hr.ready h

/-- No record is made without a member of its own, or with one of them twice. -/
theorem ofMembers_flawed (hr : Renderable renders r cells) {ms : List (String × Octets)}
    {name : String} (hname : name ∈ r.names) (count : (ms.map Prod.fst).count name ≠ 1) :
    r.ofMembers some ms = none := by
  by_cases hacceptable : Acceptable r.members [] ms
  · obtain ⟨out, hout, hlookup⟩ := Record.ofMembers_of_acceptable hacceptable
    obtain ⟨m, hm, rfl⟩ := List.mem_map.mp hname
    have hknown := known?_name hr.nodup hm
    -- what is accepted comes at most once, so the member is missing
    have habsent : ms.lookup m.name = none := by
      cases hv : ms.lookup m.name with
      | none => rfl
      | some v => exact absurd (hacceptable _ (mem_of_lookup hv) m hknown).2.1 count
    rw [hout, Option.eq_none_iff_forall_ne_some]
    intro a hassembled
    rw [← hr.keys a] at hname
    obtain ⟨p, hp, hkey⟩ := List.mem_map.mp hname
    have hfound := (hr.assembled out a).mp hassembled p hp
    rw [hkey, hlookup _ m hknown, habsent] at hfound
    cases hfound
  · exact Record.ofMembers_of_not_acceptable hacceptable

/-- No rendering is read in which something is missing or there twice. -/
theorem judges_flawed (hr : Renderable renders r cells) {w : Octets} (h : Flawed r.names w) :
    Judges r.read w none := by
  cases h with
  | object h hname count =>
    rw [← hr.ofMembers_flawed hname count]
    exact Record.judges_object hr.ready h
  | @array vs h length =>
    have hfits : ¬r.Fits vs.length := by
      rintro ⟨-, hall⟩
      refine length ?_
      rw [Record.names, List.length_map]
      exact hall hr.required
    have hnone : r.ofElements vs = none := if_neg hfits
    rw [← hnone]
    exact Record.judges_array hr.ready h

end Renderable

/-! ## Members -/

theorem text_taken {members : List (Member Cell)} {key : String} (s : String)
    (h : known? members key = some (textMember key)) :
    Taken Cell.Says members (key, .text s) :=
  ⟨_, h, fun _ hw => Read.verdict_map Cell.text (judges_of_spells (spells_text hw))⟩

theorem degrees_taken {members : List (Member Cell)} {key : String} (a : Degrees)
    (h : known? members key = some (degreesMember key)) :
    Taken Cell.Says members (key, .degrees a) := by
  refine ⟨_, h, ?_⟩
  rintro w rfl
  have hread := Read.verdict_map Cell.degrees (judges_readDegrees_ofInt a.val)
  rwa [Degrees.ofInt?_val] at hread

theorem flag_taken {members : List (Member Cell)} {key : String} (b : Bool)
    (h : known? members key = some (flagMember key)) :
    Taken Cell.Says members (key, .flag b) := by
  refine ⟨_, h, ?_⟩
  rintro w rfl
  exact verdict_flag key b

theorem ready_text (key : String) : Decides (textMember key).read ∧ Patient (textMember key).read :=
  ⟨Read.decides_map _ decides_readText, Read.patient_map _ patient_readText⟩

theorem ready_degrees (key : String) :
    Decides (degreesMember key).read ∧ Patient (degreesMember key).read :=
  ⟨Read.decides_map _ decides_readDegrees, Read.patient_map _ patient_readDegrees⟩

theorem ready_flag (key : String) : Decides (flagMember key).read ∧ Patient (flagMember key).read :=
  ⟨Read.decides_map _ decides_readFlag, Read.patient_map _ patient_readFlag⟩

theorem need_eq_ok {α : Type} {get : String → Option Cell} {name : String}
    {as : Cell → Option α} {cell : α → Cell} (h : ∀ c a, as c = some a ↔ c = cell a) {a : α} :
    need get name as = .ok a ↔ get name = some (cell a) := by
  unfold need
  cases hget : get name with
  | none => simp
  | some c =>
    rw [Option.bind_some, Option.some.injEq, ← h]
    cases as c <;> simp

theorem text?_eq_some (c : Cell) (s : String) : c.text? = some s ↔ c = .text s := by
  cases c <;> simp [Cell.text?]

theorem heading?_eq_some (c : Cell) (a : Degrees) : c.heading? = some a ↔ c = .degrees a := by
  cases c <;> simp [Cell.heading?]

theorem flag?_eq_some (c : Cell) (b : Bool) : c.flag? = some b ↔ c = .flag b := by
  cases c <;> simp [Cell.flag?]

theorem kind?_eq_some (c : Cell) (k : Notice.Kind) : c.kind? = some k ↔ c = .kind k := by
  cases c <;> simp [Cell.kind?]

theorem status?_eq_some (c : Cell) (s : Status) : c.status? = some s ↔ c = .status s := by
  cases c <;> simp [Cell.status?]

theorem Record.assembled_eq_some {α : Type} {r : Record Cell α} {out : Cells Cell} {a : α} :
    r.assembled out = some a ↔ r.assemble (fun key => out.lookup key) = .ok a := by
  unfold Record.assembled
  cases r.assemble fun key => out.lookup key <;> simp [Except.toOption]

/-! ## Statuses -/

theorem assemble_status (get : String → Option Cell) (s : Status) :
    statusRecord.assemble get = .ok s ↔ ∀ p ∈ cellsOf (statusEntries s), get p.1 = some p.2 := by
  simp only [statusRecord, bind_eq_ok_iff, need_eq_ok text?_eq_some, need_eq_ok heading?_eq_some,
    need_eq_ok flag?_eq_some, cellsOf, statusEntries, textEntry, degreesEntry, flagEntry,
    List.map_cons, List.map_nil, List.forall_mem_cons]
  constructor
  · rintro ⟨name, hname, azimuth, hazimuth, azPreset, hazPreset, overlap, hoverlap, elevation,
      helevation, elPreset, helPreset, h⟩
    cases h
    exact ⟨hname, hazimuth, hazPreset, hoverlap, helevation, helPreset, by simp⟩
  · rintro ⟨hname, hazimuth, hazPreset, hoverlap, helevation, helPreset, -⟩
    exact ⟨_, hname, _, hazimuth, _, hazPreset, _, hoverlap, _, helevation, _, helPreset, rfl⟩

theorem renderable_status :
    Renderable Cell.Says statusRecord fun s => cellsOf (statusEntries s) where
  ready := by
    simp only [Ready, statusRecord, List.forall_mem_cons]
    exact ⟨ready_text _, ready_degrees _, ready_degrees _, ready_flag _, ready_degrees _,
      ready_degrees _, by simp⟩
  required := rfl
  nodup := by decide
  keys _ := rfl
  taken s := by
    simp only [cellsOf, statusEntries, textEntry, degreesEntry, flagEntry, List.map_cons,
      List.map_nil, List.forall_mem_cons]
    exact ⟨text_taken _ rfl, degrees_taken _ rfl, degrees_taken _ rfl, flag_taken _ rfl,
      degrees_taken _ rfl, degrees_taken _ rfl, by simp⟩
  assembled _ s := Record.assembled_eq_some.trans (assemble_status _ s)

/-! ## Descriptions -/

theorem assemble_info (get : String → Option Cell) (i : Info) :
    infoRecord.assemble get = .ok i ↔ ∀ p ∈ cellsOf (infoEntries i), get p.1 = some p.2 := by
  simp only [infoRecord, bind_eq_ok_iff, need_eq_ok text?_eq_some, need_eq_ok heading?_eq_some,
    need_eq_ok flag?_eq_some, cellsOf, infoEntries, textEntry, degreesEntry, flagEntry,
    List.map_cons, List.map_nil, List.forall_mem_cons]
  constructor
  · rintro ⟨name, hname, hasAzimuth, hhasAzimuth, hasElevation, hhasElevation, azimuthMin,
      hazimuthMin, azimuthMax, hazimuthMax, azimuthStop, hazimuthStop, overlap, hoverlap,
      elevationMin, helevationMin, elevationMax, helevationMax, elevationStop, helevationStop,
      azimuth, hazimuth, azPreset, hazPreset, elevation, helevation, elPreset, helPreset, h⟩
    cases h
    exact ⟨hname, hhasAzimuth, hhasElevation, hazimuthMin, hazimuthMax, hazimuthStop, hoverlap,
      helevationMin, helevationMax, helevationStop, hazimuth, hazPreset, helevation, helPreset,
      by simp⟩
  · rintro ⟨hname, hhasAzimuth, hhasElevation, hazimuthMin, hazimuthMax, hazimuthStop, hoverlap,
      helevationMin, helevationMax, helevationStop, hazimuth, hazPreset, helevation, helPreset, -⟩
    exact ⟨_, hname, _, hhasAzimuth, _, hhasElevation, _, hazimuthMin, _, hazimuthMax, _,
      hazimuthStop, _, hoverlap, _, helevationMin, _, helevationMax, _, helevationStop, _, hazimuth,
      _, hazPreset, _, helevation, _, helPreset, rfl⟩

theorem renderable_info :
    Renderable Cell.Says infoRecord fun i => cellsOf (infoEntries i) where
  ready := by
    simp only [Ready, infoRecord, List.forall_mem_cons]
    exact ⟨ready_text _, ready_flag _, ready_flag _, ready_degrees _, ready_degrees _,
      ready_degrees _, ready_flag _, ready_degrees _, ready_degrees _, ready_degrees _,
      ready_degrees _, ready_degrees _, ready_degrees _, ready_degrees _, by simp⟩
  required := rfl
  nodup := by decide
  keys _ := rfl
  taken i := by
    simp only [cellsOf, infoEntries, textEntry, degreesEntry, flagEntry, List.map_cons,
      List.map_nil, List.forall_mem_cons]
    exact ⟨text_taken _ rfl, flag_taken _ rfl, flag_taken _ rfl, degrees_taken _ rfl,
      degrees_taken _ rfl, degrees_taken _ rfl, flag_taken _ rfl, degrees_taken _ rfl,
      degrees_taken _ rfl, degrees_taken _ rfl, degrees_taken _ rfl, degrees_taken _ rfl,
      degrees_taken _ rfl, degrees_taken _ rfl, by simp⟩
  assembled _ i := Record.assembled_eq_some.trans (assemble_info _ i)

/-! ## Notices -/

theorem kind_taken (k : Notice.Kind) {w : Octets} (h : (Cell.kind k).Says w) :
    Judges readKind w (some k) := by
  rcases h with h | h
  · have hjudges := judges_readKind_quoted h.isQuoted (judges_of_spells (spells_text h))
    rwa [Option.bind_some, Notice.Kind.ofName?_name] at hjudges
  · have hjudges := judges_readKind_object h.renders (fun m _ => tellsKeys_text m.1) h.values
    simpa [kindOfMembers, kindOf, Notice.Kind.ofName?_name] using hjudges

theorem assemble_notice (get : String → Option Cell) (n : Notice) :
    noticeRecord.assemble get = .ok n ↔ ∀ p ∈ cellsOf (noticeEntries n), get p.1 = some p.2 := by
  simp only [noticeRecord, bind_eq_ok_iff, need_eq_ok kind?_eq_some, need_eq_ok status?_eq_some,
    cellsOf, noticeEntries, List.map_cons, List.map_nil, List.forall_mem_cons]
  constructor
  · rintro ⟨kind, hkind, status, hstatus, h⟩
    cases h
    exact ⟨hkind, hstatus, by simp⟩
  · rintro ⟨hkind, hstatus, -⟩
    exact ⟨_, hkind, _, hstatus, rfl⟩

theorem renderable_notice :
    Renderable Cell.Renders noticeRecord fun n => cellsOf (noticeEntries n) where
  ready := by
    simp only [Ready, noticeRecord, List.forall_mem_cons]
    exact ⟨⟨Read.decides_map _ decides_readKind, Read.patient_map _ patient_readKind⟩,
      ⟨Read.decides_map _ (Record.decides_read renderable_status.ready),
        Read.patient_map _ Record.patient_read⟩, by simp⟩
  required := rfl
  nodup := by decide
  keys _ := rfl
  taken n := by
    simp only [cellsOf, noticeEntries, List.map_cons, List.map_nil, List.forall_mem_cons]
    exact ⟨⟨_, rfl, fun _ hw => Read.verdict_map Cell.kind (kind_taken n.kind hw)⟩,
      ⟨_, rfl, fun _ hw => Read.verdict_map Cell.status (renderable_status.judges_complete hw)⟩,
      by simp⟩
  assembled _ n := Record.assembled_eq_some.trans (assemble_notice _ n)

/-- The value of this member of a notice is flawed: a status in which something is missing or too
much, or an object for a kind that has not one member. -/
inductive FlawedIn : String → Octets → Prop
  | kind {ms : List (String × Octets)} {v : Octets} (h : IsObject ms v) (count : ms.length ≠ 1) :
      FlawedIn "name" v
  | status {v : Octets} (h : Flawed statusRecord.names v) : FlawedIn "status" v

/-- The notice itself is flawed, or a member or element of it is. -/
inductive FlawedNotice (w : Octets) : Prop
  | notice (h : Flawed noticeRecord.names w)
  | member {ms : List (String × Octets)} {m : String × Octets} (h : IsObject ms w) (hm : m ∈ ms)
      (flawed : FlawedIn m.1 m.2)
  | element {vs : List Octets} {m : String × Octets} (h : IsArray vs w)
      (hm : m ∈ noticeRecord.names.zip vs) (flawed : FlawedIn m.1 m.2)

theorem ofMembers_of_flawedIn {ms : List (String × Octets)} {m : String × Octets} (hm : m ∈ ms)
    (h : FlawedIn m.1 m.2) : noticeRecord.ofMembers some ms = none := by
  obtain ⟨key, v⟩ := m
  cases h with
  | @kind kms _ h count =>
    have hjudges := judges_readKind_object h.renders (fun k _ => tellsKeys_text k.1) h.values
    have hnone : kindOfMembers some kms = none := by
      unfold kindOfMembers
      split
      · exact absurd rfl count
      · rfl
    rw [hnone] at hjudges
    exact Record.ofMembers_of_refused (p := ("name", v)) rfl hm
      (Read.verdict_map Cell.kind hjudges)
  | status h =>
    exact Record.ofMembers_of_refused (p := ("status", v)) rfl hm
      (Read.verdict_map Cell.status (renderable_status.judges_flawed h))

theorem judges_flawedNotice {w : Octets} (h : FlawedNotice w) :
    Judges noticeRecord.read w none := by
  have hready := renderable_notice.ready
  cases h with
  | notice h => exact renderable_notice.judges_flawed h
  | member h hm flawed =>
    rw [← ofMembers_of_flawedIn hm flawed]
    exact Record.judges_object hready h
  | @element vs m h hm flawed =>
    by_cases hfits : noticeRecord.Fits vs.length
    · rw [← ofMembers_of_flawedIn hm flawed, ← Record.ofElements_eq (by decide) hfits]
      exact Record.judges_array hready h
    · have hnone : noticeRecord.ofElements vs = none := if_neg hfits
      rw [← hnone]
      exact Record.judges_array hready h

/-! ## Whole texts -/

/-- Statuses, descriptions and notices are decoded from all their renderings, and from no object or
array that is not complete. -/
theorem complete_renderings_only {before w after : Octets} (hbefore : Gap before)
    (hafter : Gap after) :
    (∀ s, RendersRecord Cell.Says (cellsOf (statusEntries s)) w →
      decodeStatus (before ++ (w ++ after)) = .ok s) ∧
    (Flawed statusRecord.names w → ∃ e, decodeStatus (before ++ (w ++ after)) = .error e) ∧
    (∀ i, RendersRecord Cell.Says (cellsOf (infoEntries i)) w →
      decodeInfo (before ++ (w ++ after)) = .ok i) ∧
    (Flawed infoRecord.names w → ∃ e, decodeInfo (before ++ (w ++ after)) = .error e) ∧
    (∀ n, RendersRecord Cell.Renders (cellsOf (noticeEntries n)) w →
      decodeNotice (before ++ (w ++ after)) = .ok n) ∧
    (FlawedNotice w → ∃ e, decodeNotice (before ++ (w ++ after)) = .error e) := by
  have htaken : ∀ {α : Type} {r : Record Cell α} {a : α}, Judges r.read w (some a) →
      decode r.read (before ++ (w ++ after)) = .ok a :=
    fun h => decode_taken h Record.patient_read hbefore hafter
  have hrefused : ∀ {α : Type} {r : Record Cell α}, Judges r.read w none →
      ∃ e, decode r.read (before ++ (w ++ after)) = .error e :=
    fun h => decode_refused h Record.patient_read hbefore hafter
  exact ⟨fun _ h => htaken (renderable_status.judges_complete h),
    fun h => hrefused (renderable_status.judges_flawed h),
    fun _ h => htaken (renderable_info.judges_complete h),
    fun h => hrefused (renderable_info.judges_flawed h),
    fun _ h => htaken (renderable_notice.judges_complete h),
    fun h => hrefused (judges_flawedNotice h)⟩

/-- A status whose members are in another order, with an escape and an unknown member. -/
def scrambled : Octets :=
  Octets.ofString "\x7b\"elPreset\":4,\"x\":[\x7b\x7d],\"name\":\"a\\u0062\",\"azimuth\":-1,"
    ++ Octets.ofString "\"azPreset\":2,\"azimuthOverlap\":true,\"elevation\":3\x7d"

def scrambledStatus : Status := ⟨"ab", true, ⟨⟨.clamp (-1), 2⟩, ⟨3, 4⟩⟩⟩

theorem spellsText_scrambled : SpellsText "ab" (Octets.ofString "\"a\\u0062\"") := by
  have hdigits : SpellsUnit 98 [92, 117, 48, 48, 54, 50] :=
    @SpellsUnit.digits 0 0 6 2 48 48 54 50 ⟨by decide, .inl rfl⟩ ⟨by decide, .inl rfl⟩
      ⟨by decide, .inl rfl⟩ ⟨by decide, .inl rfl⟩
  exact ⟨_, .cons (.plain (by decide) (by decide) (by decide)) (.cons (.unit hdigits) .nil),
    by decide⟩

theorem isObject_scrambled : IsObject [("elPreset", Octets.ofInt 4), ("x", [91, 123, 125, 93]),
    ("name", Octets.ofString "\"a\\u0062\""), ("azimuth", Octets.ofInt (-1)),
    ("azPreset", Octets.ofInt 2), ("azimuthOverlap", writeFlag true),
    ("elevation", Octets.ofInt 3)] scrambled := by
  have htight : ∀ {key : String} {v : Octets},
      (∀ c ∈ key.toList, 32 ≤ c.toNat ∧ c.toNat ≠ 34 ∧ c.toNat ≠ 92) →
        RendersMember SpellsText (key, v) (34 :: (Octets.ofString key ++ [34]) ++ 58 :: v) :=
    fun h => rendersMember_tight h _
  refine ⟨⟨_, .items (.more (htight (by simp)) (.more (htight (by simp)) (.more
    (htight (by simp)) (.more (htight (by simp)) (.more (htight (by simp)) (.more
    (htight (by simp)) (.one (htight (by simp))))))))), by decide⟩, ?_⟩
  simp only [List.forall_mem_cons]
  exact ⟨isValue_ofInt 4, isValue_nested, .text spellsText_scrambled.isQuoted, isValue_ofInt (-1),
    isValue_ofInt 2, .flag true, isValue_ofInt 3, by simp⟩

theorem renders_scrambled :
    RendersRecord Cell.Says (cellsOf (statusEntries scrambledStatus)) scrambled := by
  refine .object isObject_scrambled (by decide) ?_
  simp only [List.forall_mem_cons]
  refine ⟨?_, ?_, ?_, ?_, ?_, ?_, ?_, by simp⟩
  all_goals
    intro c hc
    simp [cellsOf, statusEntries, textEntry, degreesEntry, flagEntry] at hc
  all_goals subst hc
  · rfl
  · exact spellsText_scrambled
  · rfl
  · rfl
  · rfl
  · rfl

/-- The object for a kind. -/
def addition : Octets := Octets.ofString "\x7b\"add\":null\x7d"

/-- An array for a notice. -/
def pair (status : Octets) : Octets := 91 :: (addition ++ 44 :: status ++ [93])

theorem isObject_addition : IsObject [("add", writeNull)] addition :=
  ⟨⟨_, .items (.one (rendersMember_tight (by simp) _)), by decide⟩,
    List.forall_mem_singleton.mpr .null⟩

theorem isArray_pair {status : Octets} (h : IsValue status) :
    IsArray [addition, status] (pair status) :=
  ⟨⟨_, .items (.more (spaced_tight _) (.one (spaced_tight _))), rfl⟩, by
    simpa using ⟨isObject_addition.isValue, h⟩⟩

theorem complete_renderings_only_scrambled :
    decodeNotice ([32] ++ (pair scrambled ++ [32])) = .ok ⟨.add, scrambledStatus⟩ ∧
      ∃ e, decodeNotice ([32] ++ (pair [91, 93] ++ [32])) = .error e := by
  have hempty : IsArray [] [91, 93] := ⟨⟨[], .empty gap_nil, rfl⟩, by simp⟩
  have harray := isArray_pair (.array hempty.renders hempty.values)
  have hrenders : RendersRecord Cell.Renders
      (cellsOf (noticeEntries ⟨.add, scrambledStatus⟩)) (pair scrambled) := by
    refine .array (isArray_pair isObject_scrambled.isValue) rfl ?_
    simp only [cellsOf, noticeEntries, List.map_cons, List.map_nil, List.zip_cons_cons,
      List.zip_nil_left, List.forall_mem_cons]
    exact ⟨.inr isObject_addition, renders_scrambled, by simp⟩
  have hflawed : FlawedNotice (pair [91, 93]) := by
    refine .element harray (m := ("status", [91, 93])) ?_ (.status (.array hempty (by decide)))
    simp [Record.names, noticeRecord]
  obtain ⟨-, -, -, -, htaken, -⟩ := complete_renderings_only gap_space gap_space
  obtain ⟨-, -, -, -, -, hrefused⟩ := complete_renderings_only gap_space gap_space
  exact ⟨htaken _ hrenders, hrefused hflawed⟩

end Aerial.Wire
