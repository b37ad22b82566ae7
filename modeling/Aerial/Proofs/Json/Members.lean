import Aerial.Proofs.Json.Meaning

/-! # Which members make a record

The members of an object are accepted if each known one comes once and with a value that its
reader takes; unknown members have no say. Then every known key has what its value was taken for,
or nothing if it was not there, and the order of the members does not matter. An array is the
object of the same values under the names of the members. -/

namespace Aerial.Json

variable {α γ : Type}

/-- The member that a record knows by this key. -/
def known? (members : List (Member γ)) (key : String) : Option (Member γ) :=
  members.find? (·.name = key)

theorem known?_name {members : List (Member γ)} (hnodup : (members.map Member.name).Nodup)
    {m : Member γ} (hm : m ∈ members) : known? members m.name = some m := by
  induction members with
  | nil => cases hm
  | cons m' members ih =>
    obtain ⟨hnew, hnodup⟩ := List.nodup_cons.mp hnodup
    rcases List.mem_cons.mp hm with rfl | hm
    · exact List.find?_cons_of_pos (by simp)
    · have hne : m'.name ≠ m.name := fun heq => hnew (heq ▸ List.mem_map_of_mem hm)
      exact (List.find?_cons_of_neg (by simpa using hne)).trans (ih hnodup hm)

theorem known?_eq_some {members : List (Member γ)} {key : String} {m : Member γ}
    (h : known? members key = some m) : m ∈ members ∧ m.name = key :=
  ⟨List.mem_of_find?_eq_some h, by simpa using List.find?_some h⟩

theorem mem_of_lookup {ms : List (String × γ)} {key : String} {v : γ}
    (h : ms.lookup key = some v) : (key, v) ∈ ms := by
  obtain ⟨before, after, rfl, -⟩ := List.lookup_eq_some_iff.mp h
  simp

/-- A key that comes once is found with its value. -/
theorem lookup_of_count {ms : List (String × γ)} {p : String × γ} (hp : p ∈ ms)
    (h : (ms.map Prod.fst).count p.1 ≤ 1) : ms.lookup p.1 = some p.2 := by
  obtain ⟨before, after, rfl⟩ := List.append_of_mem hp
  refine List.lookup_eq_some_iff.mpr ⟨before, after, rfl, fun q hq => ?_⟩
  rw [bne_iff_ne]
  intro heq
  have hpos := List.count_pos_iff.mpr (List.mem_map_of_mem (f := Prod.fst) hq)
  rw [← heq] at hpos
  simp only [List.map_append, List.map_cons, List.count_append, List.count_cons_self] at h
  omega

theorem lookup_append_singleton (cells : Cells γ) (key key' : String) (c : γ) :
    (cells ++ [(key, c)]).lookup key' =
      (cells.lookup key').or (if key' = key then some c else none) := by
  rw [List.lookup_append]
  by_cases h : key' = key
  · simp [h]
  · simp [List.lookup_cons, h, show (key' == key) = false by simpa using h]

section

variable {members : List (Member γ)}

theorem takeMember_unknown {key : String} (h : known? members key = none) (cells : Cells γ)
    (v : Octets) : takeMember some members cells (key, v) = some cells := by
  simp only [takeMember, Option.bind_some, takeValue]
  rw [show members.find? (·.name = key) = none from h]

theorem takeMember_known {key : String} {m : Member γ} (h : known? members key = some m)
    (cells : Cells γ) (v : Octets) : takeMember some members cells (key, v) =
      if (cells.lookup key).isSome then none
      else (verdict m.read v).map fun c => cells ++ [(key, c)] := by
  simp only [takeMember, Option.bind_some, takeValue]
  rw [show members.find? (·.name = key) = some m from h]

/-- Each known member comes once, after cells in which it is not, and its value is taken. -/
def Acceptable (members : List (Member γ)) (cells : Cells γ) (ms : List (String × Octets)) : Prop :=
  ∀ p ∈ ms, ∀ m, known? members p.1 = some m →
    cells.lookup p.1 = none ∧ (ms.map Prod.fst).count p.1 = 1 ∧ (verdict m.read p.2).isSome

theorem acceptable_cons_unknown {key : String} (h : known? members key = none) (cells : Cells γ)
    (v : Octets) (ms : List (String × Octets)) :
    Acceptable members cells ((key, v) :: ms) ↔ Acceptable members cells ms := by
  have hcount : ∀ {key' m}, known? members key' = some m →
      (((key, v) :: ms).map Prod.fst).count key' = (ms.map Prod.fst).count key' := by
    intro key' m hm
    have hne : key ≠ key' := by
      rintro rfl
      rw [h] at hm
      cases hm
    exact List.count_cons_of_ne hne
  constructor
  · intro hall p hp m hm
    rw [← hcount hm]
    exact hall p (List.mem_cons_of_mem _ hp) m hm
  · intro hall p hp m hm
    rcases List.mem_cons.mp hp with rfl | hp
    · rw [h] at hm
      cases hm
    · rw [hcount hm]
      exact hall p hp m hm

theorem acceptable_cons_known {key : String} {m : Member γ} (h : known? members key = some m)
    {cells : Cells γ} (hnew : cells.lookup key = none) {v : Octets} {c : γ}
    (hc : verdict m.read v = some c) (ms : List (String × Octets)) :
    Acceptable members cells ((key, v) :: ms) ↔ Acceptable members (cells ++ [(key, c)]) ms := by
  have hlookup : ∀ key', (cells ++ [(key, c)]).lookup key' = none ↔
      cells.lookup key' = none ∧ key' ≠ key := by
    intro key'
    rw [lookup_append_singleton, Option.or_eq_none_iff]
    simp
  have hcount : ∀ {key'}, key' ≠ key →
      (((key, v) :: ms).map Prod.fst).count key' = (ms.map Prod.fst).count key' :=
    fun hne => List.count_cons_of_ne (Ne.symm hne)
  constructor
  · intro hall p hp m' hm'
    obtain ⟨hnone, hone, htaken⟩ := hall p (List.mem_cons_of_mem _ hp) m' hm'
    have hne : p.1 ≠ key := by
      intro heq
      have hpos := List.count_pos_iff.mpr (List.mem_map_of_mem (f := Prod.fst) hp)
      rw [List.map_cons, heq, List.count_cons_self, ← heq] at hone
      omega
    rw [hcount hne] at hone
    exact ⟨(hlookup _).mpr ⟨hnone, hne⟩, hone, htaken⟩
  · intro hall p hp m' hm'
    rcases List.mem_cons.mp hp with rfl | hp
    · have hfresh : key ∉ ms.map Prod.fst := by
        intro hmem
        obtain ⟨q, hq, rfl⟩ := List.mem_map.mp hmem
        exact ((hlookup _).mp (hall q hq m h).1).2 rfl
      rw [h] at hm'
      cases hm'
      refine ⟨hnew, ?_, by rw [hc]; rfl⟩
      rw [List.map_cons, List.count_cons_self, List.count_eq_zero_of_not_mem hfresh]
    · obtain ⟨hnone, hrest⟩ := hall p hp m' hm'
      obtain ⟨hnone, hne⟩ := (hlookup _).mp hnone
      rw [hcount hne]
      exact ⟨hnone, hrest⟩

theorem takeMembers_isSome_iff (cells : Cells γ) (ms : List (String × Octets)) :
    (takeMembers some members cells ms).isSome ↔ Acceptable members cells ms := by
  induction ms generalizing cells with
  | nil => simp [takeMembers, Acceptable]
  | cons p ms ih =>
    obtain ⟨key, v⟩ := p
    rw [takeMembers]
    cases hknown : known? members key with
    | none =>
      rw [takeMember_unknown hknown, acceptable_cons_unknown hknown]
      exact ih cells
    | some m =>
      rw [takeMember_known hknown]
      split
      · rename_i hseen
        refine iff_of_false (by simp) fun hall => ?_
        rw [(hall _ List.mem_cons_self m hknown).1] at hseen
        cases hseen
      · rename_i hseen
        have hnew := Option.not_isSome_iff_eq_none.mp hseen
        cases hverdict : verdict m.read v with
        | none =>
          refine iff_of_false (by simp) fun hall => ?_
          have htaken := (hall _ List.mem_cons_self m hknown).2.2
          rw [hverdict] at htaken
          cases htaken
        | some c =>
          rw [acceptable_cons_known hknown hnew hverdict]
          exact ih (cells ++ [(key, c)])

/-- What is found under a known key. -/
theorem lookup_takeMembers {cells out : Cells γ} {ms : List (String × Octets)}
    (h : takeMembers some members cells ms = some out) {key : String} {m : Member γ}
    (hm : known? members key = some m) :
    out.lookup key = (cells.lookup key).or ((ms.lookup key).bind (verdict m.read)) := by
  induction ms generalizing cells with
  | nil =>
    cases h
    simp
  | cons p ms ih =>
    obtain ⟨key', v⟩ := p
    obtain ⟨cells', htake, h⟩ := Option.bind_eq_some_iff.mp h
    rw [ih h]
    by_cases heq : key = key'
    · subst heq
      rw [takeMember_known hm] at htake
      split at htake
      · cases htake
      · rename_i hseen
        have hnone := Option.not_isSome_iff_eq_none.mp hseen
        obtain ⟨c, hc, rfl⟩ := Option.map_eq_some_iff.mp htake
        simp [lookup_append_singleton, hnone, hc]
    · have hbeq : (key == key') = false := by simpa using heq
      have hlookup : cells'.lookup key = cells.lookup key := by
        cases hknown : known? members key' with
        | none =>
          rw [takeMember_unknown hknown] at htake
          cases htake
          rfl
        | some m' =>
          rw [takeMember_known hknown] at htake
          split at htake
          · cases htake
          · obtain ⟨c, -, rfl⟩ := Option.map_eq_some_iff.mp htake
            simp [lookup_append_singleton, heq]
      simp [hlookup, List.lookup_cons, hbeq]

/-- The elements of an array are the values of members in their declared order. -/
theorem takeMembers_zip {tail : List (Member γ)} (hnodup : (tail.map Member.name).Nodup)
    (hknown : ∀ m ∈ tail, known? members m.name = some m) (vs : List Octets) {cells : Cells γ}
    (hnew : ∀ m ∈ tail, cells.lookup m.name = none) :
    takeMembers some members cells ((tail.map Member.name).zip vs)
      = (takeElements tail vs).map (cells ++ ·) := by
  induction tail generalizing vs cells with
  | nil => simp [takeMembers, takeElements]
  | cons m tail ih =>
    cases vs with
    | nil => simp [takeMembers, takeElements]
    | cons v vs =>
      obtain ⟨hfresh, hnodup⟩ := List.nodup_cons.mp hnodup
      have htake : takeMember some members cells (m.name, v) =
          (verdict m.read v).map fun c => cells ++ [(m.name, c)] := by
        rw [takeMember_known (hknown m List.mem_cons_self), hnew m List.mem_cons_self]
        rfl
      rw [List.map_cons, List.zip_cons_cons, takeMembers, htake, takeElements]
      cases verdict m.read v with
      | none => rfl
      | some c =>
        simp only [Option.map_some, Option.bind_some]
        rw [ih hnodup (fun m' hm' => hknown m' (List.mem_cons_of_mem m hm')) vs fun m' hm' => ?_]
        · simp [Option.map_map, Function.comp_def]
        · rw [lookup_append_singleton, hnew m' (List.mem_cons_of_mem m hm')]
          have hne : m'.name ≠ m.name := fun heq => hfresh (heq ▸ List.mem_map_of_mem hm')
          simp [hne]

end

namespace Record

variable {r : Record γ α}

/-- An array is the record of its values under the names of the members. -/
theorem ofElements_eq (hnodup : r.names.Nodup) {vs : List Octets} (hfits : r.Fits vs.length) :
    r.ofElements vs = r.ofMembers some (r.names.zip vs) := by
  have hzip : takeMembers some r.members [] ((r.members.map Member.name).zip vs)
      = (takeElements r.members vs).map ([] ++ ·) :=
    takeMembers_zip hnodup (fun m hm => known?_name hnodup hm) vs fun _ _ => rfl
  rw [ofElements, if_pos hfits, ofMembers, names, hzip]
  simp

theorem ofMembers_of_not_acceptable {ms : List (String × Octets)}
    (h : ¬Acceptable r.members [] ms) : r.ofMembers some ms = none := by
  have hnone : takeMembers some r.members [] ms = none := by
    rwa [← Option.not_isSome_iff_eq_none, takeMembers_isSome_iff]
  rw [ofMembers, hnone]
  rfl

/-- A known member that comes twice is no part of a record. -/
theorem ofMembers_of_repeated {ms : List (String × Octets)} {key : String} {m : Member γ}
    (hm : known? r.members key = some m) (h : 1 < (ms.map Prod.fst).count key) :
    r.ofMembers some ms = none := by
  refine ofMembers_of_not_acceptable fun hall => ?_
  obtain ⟨p, hp, rfl⟩ := List.mem_map.mp (List.count_pos_iff.mp (Nat.lt_trans Nat.zero_lt_one h))
  have hone := (hall p hp m hm).2.1
  omega

/-- A record has no value that its reader refuses. -/
theorem ofMembers_of_refused {ms : List (String × Octets)} {p : String × Octets} {m : Member γ}
    (hm : known? r.members p.1 = some m) (hp : p ∈ ms) (h : verdict m.read p.2 = none) :
    r.ofMembers some ms = none := by
  refine ofMembers_of_not_acceptable fun hall => ?_
  have htaken := (hall p hp m hm).2.2
  rw [h] at htaken
  cases htaken

/-- Acceptable members are assembled from what is found under their keys. -/
theorem ofMembers_of_acceptable {ms : List (String × Octets)} (h : Acceptable r.members [] ms) :
    ∃ cells : Cells γ, r.ofMembers some ms = r.assembled cells ∧
      ∀ key m, known? r.members key = some m →
        cells.lookup key = (ms.lookup key).bind (verdict m.read) := by
  obtain ⟨cells, hcells⟩ := Option.isSome_iff_exists.mp ((takeMembers_isSome_iff [] ms).mpr h)
  refine ⟨cells, by rw [ofMembers, hcells]; rfl, fun key m hm => ?_⟩
  rw [lookup_takeMembers hcells hm]
  rfl

end Record

end Aerial.Json
