import Aerial.Proofs.Json.Records
import Aerial.Wire.Notice

/-! # Statuses, descriptions and notices are read back as they were written

What a station says about its rotator reaches a link unchanged: a status inside a
heading notice, and the list of descriptions that the site serves. -/

namespace Aerial.Wire
open Aerial.Json

theorem Read.spells_map {α β : Type} {read : Read α} {w : Octets} {a : α} (f : α → β)
    (h : Spells read w a) : Spells (Read.map f read) w (f a) := by
  intro rest hr
  simp [Read.map, h rest hr, bind, Except.bind, pure, Except.pure]

/-! ## Entries -/

def textEntry (key value : String) : Entry Cell := ⟨key, writeText value, .text value⟩

def degreesEntry (key : String) (a : Degrees) : Entry Cell := ⟨key, Octets.ofInt a.val, .degrees a⟩

def flagEntry (key : String) (b : Bool) : Entry Cell := ⟨key, writeFlag b, .flag b⟩

theorem textEntry_fits {members : List (Member Cell)} {key : String} (value : String)
    (h : members.find? (·.name = key) = some (textMember key)) :
    (textEntry key value).Fits members :=
  ⟨_, h, Read.spells_map Cell.text fun rest _ => readText_writeText value rest⟩

theorem degreesEntry_fits {members : List (Member Cell)} {key : String} (a : Degrees)
    (h : members.find? (·.name = key) = some (degreesMember key)) :
    (degreesEntry key a).Fits members :=
  ⟨_, h, Read.spells_map Cell.degrees fun _ hr => readDegrees_ofInt a hr⟩

theorem flagEntry_fits {members : List (Member Cell)} {key : String} (b : Bool)
    (h : members.find? (·.name = key) = some (flagMember key)) :
    (flagEntry key b).Fits members :=
  ⟨_, h, Read.spells_map Cell.flag fun rest _ => readFlag_writeFlag b rest⟩

/-! ## Statuses -/

def statusEntries (s : Status) : List (Entry Cell) := [
  textEntry "name" s.name,
  degreesEntry "azimuth" s.pointing.azimuth.heading,
  degreesEntry "azPreset" s.pointing.azimuth.preset,
  flagEntry "azimuthOverlap" s.azimuthOverlap,
  degreesEntry "elevation" s.pointing.elevation.heading,
  degreesEntry "elPreset" s.pointing.elevation.preset]

theorem statusEntries_fit (s : Status) : ∀ e ∈ statusEntries s, e.Fits statusRecord.members := by
  simp only [statusEntries, List.forall_mem_cons]
  refine ⟨textEntry_fits _ rfl, degreesEntry_fits _ rfl, degreesEntry_fits _ rfl,
    flagEntry_fits _ rfl, degreesEntry_fits _ rfl, degreesEntry_fits _ rfl, ?_⟩
  simp

theorem spells_writeStatus (s : Status) : Spells statusRecord.read (writeStatus s) s :=
  Record.spells_writeObject (statusEntries s) (by simp [statusEntries]) (statusEntries_fit s)
    (by simp [statusEntries, textEntry, degreesEntry, flagEntry]) rfl

/-! ## Notices -/

theorem kind_spells (k : Notice.Kind) : Spells readKind (writeText k.name) k := by
  intro rest _
  rw [writeText_append, readKind, skipSpace_cons (by decide)]
  simp only [if_true, readKindName, Text.read_written, bind, Except.bind, pure, Except.pure,
    Notice.Kind.ofName?_name]

def noticeEntries (n : Notice) : List (Entry Cell) := [
  ⟨"name", writeText n.kind.name, .kind n.kind⟩,
  ⟨"status", writeStatus n.status, .status n.status⟩]

theorem noticeEntries_fit (n : Notice) : ∀ e ∈ noticeEntries n, e.Fits noticeRecord.members := by
  simp only [noticeEntries, List.forall_mem_cons]
  refine ⟨⟨⟨"name", Read.map Cell.kind readKind⟩, rfl, Read.spells_map _ (kind_spells n.kind)⟩,
    ⟨⟨"status", Read.map Cell.status statusRecord.read⟩, rfl,
      Read.spells_map _ (spells_writeStatus n.status)⟩, ?_⟩
  simp

theorem spells_writeNotice (n : Notice) : Spells noticeRecord.read (writeNotice n) n :=
  Record.spells_writeObject (noticeEntries n) (by simp [noticeEntries]) (noticeEntries_fit n)
    (by simp [noticeEntries]) rfl

/-- A notice arrives as it was sent. -/
theorem decodeNotice_writeNotice (n : Notice) : decodeNotice (writeNotice n) = .ok n :=
  decode_of_spells (spells_writeNotice n)

/-! ## Descriptions -/

def infoEntries (i : Info) : List (Entry Cell) := [
  textEntry "name" i.name,
  flagEntry "hasAzimuth" i.limits.azimuth.available,
  flagEntry "hasElevation" i.limits.elevation.available,
  degreesEntry "azimuthMin" i.limits.azimuth.lowest,
  degreesEntry "azimuthMax" i.limits.azimuth.highest,
  degreesEntry "azimuthStop" i.limits.azimuth.stop,
  flagEntry "azimuthOverlap" i.azimuthOverlap,
  degreesEntry "elevationMin" i.limits.elevation.lowest,
  degreesEntry "elevationMax" i.limits.elevation.highest,
  degreesEntry "elevationStop" i.limits.elevation.stop,
  degreesEntry "azimuth" i.pointing.azimuth.heading,
  degreesEntry "azPreset" i.pointing.azimuth.preset,
  degreesEntry "elevation" i.pointing.elevation.heading,
  degreesEntry "elPreset" i.pointing.elevation.preset]

theorem infoEntries_fit (i : Info) : ∀ e ∈ infoEntries i, e.Fits infoRecord.members := by
  simp only [infoEntries, List.forall_mem_cons]
  refine ⟨textEntry_fits _ rfl, flagEntry_fits _ rfl, flagEntry_fits _ rfl,
    degreesEntry_fits _ rfl, degreesEntry_fits _ rfl, degreesEntry_fits _ rfl,
    flagEntry_fits _ rfl, degreesEntry_fits _ rfl, degreesEntry_fits _ rfl,
    degreesEntry_fits _ rfl, degreesEntry_fits _ rfl, degreesEntry_fits _ rfl,
    degreesEntry_fits _ rfl, degreesEntry_fits _ rfl, ?_⟩
  simp

theorem spells_writeInfo (i : Info) : Spells infoRecord.read (writeInfo i) i :=
  Record.spells_writeObject (infoEntries i) (by simp [infoEntries]) (infoEntries_fit i)
    (by simp [infoEntries, textEntry, degreesEntry, flagEntry]) rfl

theorem writeInfo_begins (i : Info) : BeginsItem (writeInfo i) :=
  ⟨123, _, rfl, by decide, by decide⟩

/-- Descriptions arrive as they were sent. -/
theorem decodeInfos_writeInfos (is : List Info) : decodeInfos (writeInfos is) = .ok is := by
  have hitems : ∀ p ∈ is.map fun i => (writeInfo i, i),
      BeginsItem p.1 ∧ Spells infoRecord.read p.1 p.2 := by
    intro p hp
    obtain ⟨i, _, rfl⟩ := List.mem_map.mp hp
    exact ⟨writeInfo_begins i, spells_writeInfo i⟩
  have h := spells_writeArray hitems
  simp only [List.map_map, Function.comp_def, List.map_id'] at h
  exact decode_of_spells h

end Aerial.Wire
