import Aerial.Proofs.Json.Literals

/-! # A record depends on its members alone

What is read of an object is told from its members, one after the other: `takeMembers` goes over
keys and texts of values and looks at no space, no comma and no spelling. In the same way
`takeElements` goes over the elements of an array. The readers do what these say, so a record is
the same in every rendering of the same members, and it decides if its members do. -/

namespace Aerial.Json

variable {α γ κ : Type}

/-! ## Members of an object -/

/-- What becomes of the cells when a value is read for a key. A known key that comes again and a
value that is refused put an end to it. -/
def takeValue (members : List (Member γ)) (cells : Cells γ) (key : String) (v : Octets) :
    Option (Cells γ) :=
  match members.find? (·.name = key) with
  | some known =>
    if (cells.lookup key).isSome then none
    else (verdict known.read v).map fun c => cells ++ [(key, c)]
  | none => some cells

/-- The same for a member, unless its key says nothing. -/
def takeMember (key? : κ → Option String) (members : List (Member γ)) (cells : Cells γ)
    (m : κ × Octets) : Option (Cells γ) :=
  (key? m.1).bind fun key => takeValue members cells key m.2

def takeMembers (key? : κ → Option String) (members : List (Member γ)) :
    Cells γ → List (κ × Octets) → Option (Cells γ)
  | cells, [] => some cells
  | cells, m :: ms => (takeMember key? members cells m).bind fun cells =>
    takeMembers key? members cells ms

/-- Keys are rendered as strings, and as the strings that `key?` says. -/
def TellsKeys (spells : κ → Octets → Prop) (key? : κ → Option String) (k : κ) : Prop :=
  ∀ w, spells k w → IsQuoted w ∧ Judges readText w (key? k)

theorem tellsKeys_text (key : String) : TellsKeys SpellsText some key :=
  fun _ h => ⟨h.isQuoted, judges_of_spells (spells_text h)⟩

theorem tellsKeys_quoted {key : Octets} (h : IsQuoted key) :
    TellsKeys Eq (verdict readText) key := by
  rintro w rfl
  exact ⟨h, decides_readText.judges (.text h)⟩

/-- Every member is read from any value, with space before it or without. -/
def Ready (members : List (Member γ)) : Prop :=
  ∀ m ∈ members, Decides m.read ∧ Patient m.read

theorem readColon_gap {g : Octets} (hg : Gap g) (s : Octets) :
    readColon (g ++ 58 :: s) = .ok s := by
  rw [readColon, skipSpace_gap_cons hg (by decide)]
  rfl

section

variable {spells : κ → Octets → Prop} {key? : κ → Option String} {members : List (Member γ)}

/-- A member as it is read: its key after the opening quote, the colon, and its value. -/
theorem RendersMember.apart {m : κ × Octets} {w : Octets} (h : RendersMember spells m w)
    (hkey : TellsKeys spells key? m.1) :
    ∃ before text ahead after, Gap before ∧ Gap ahead ∧ Gap after ∧ w = before ++ 34 :: text ∧
      ∀ rest, ∃ s, Gives (Text.read (text ++ rest)) s (key? m.1) ∧
        readColon s = .ok (ahead ++ (m.2 ++ (after ++ rest))) := by
  obtain ⟨key, u, v, hspells, ⟨before, behind, hbefore, hbehind, rfl⟩,
    ⟨ahead, after, hahead, hafter, rfl⟩, rfl⟩ := h
  obtain ⟨⟨body, hbody, rfl⟩, hjudges⟩ := hkey key hspells
  refine ⟨before, body ++ 34 :: (behind ++ 58 :: (ahead ++ (m.2 ++ after))), ahead, after, hbefore,
    hahead, hafter, by simp, fun rest => ⟨_, ?_, readColon_gap hbehind _⟩⟩
  have hstops : NumberStops (behind ++ 58 :: (ahead ++ (m.2 ++ (after ++ rest)))) :=
    numberStops_gap hbehind fun c hc => by cases hc; decide
  have hread := hjudges _ hstops
  rw [enclosed_append, readText_quote] at hread
  have htext : body ++ 34 :: (behind ++ 58 :: (ahead ++ (m.2 ++ after))) ++ rest
      = body ++ 34 :: (behind ++ 58 :: (ahead ++ (m.2 ++ (after ++ rest)))) := by simp
  rwa [htext]

/-- A member is read to the end of its value. -/
theorem gives_readMember (hready : Ready members) {m : κ × Octets} {w : Octets}
    (hkey : TellsKeys spells key? m.1) (hvalue : IsValue m.2) (h : RendersMember spells m w) :
    ∃ before text after, Gap before ∧ Gap after ∧ w = before ++ 34 :: text ∧
      ∀ cells rest, NumberStops rest →
        Gives (readMember members cells (text ++ rest)) (after ++ rest)
          (takeMember key? members cells m) := by
  obtain ⟨before, text, ahead, after, hbefore, hahead, hafter, hw, hparts⟩ := h.apart hkey
  refine ⟨before, text, after, hbefore, hafter, hw, fun cells rest hr => ?_⟩
  obtain ⟨s, hread, hcolon⟩ := hparts rest
  have hstops := numberStops_gap hafter hr
  refine hread.bind fun k _ => ?_
  unfold takeValue
  dsimp only
  cases hfind : members.find? (·.name = k) with
  | some known =>
    obtain ⟨hdecides, hpatient⟩ := hready known (List.mem_of_find?_eq_some hfind)
    dsimp only
    split
    · exact .refuses rfl
    · have hgives := hdecides.judges hvalue (after ++ rest) hstops
      rw [← hpatient ahead _ hahead] at hgives
      rw [hcolon, Option.map_eq_bind]
      exact hgives.bind fun c _ => .takes rfl
  | none =>
    have hskip := skipValue_value hahead hvalue hstops
    dsimp only
    rw [hcolon]
    exact .takes (by simp only [bind, Except.bind, pure, Except.pure, hskip])

/-! ## Objects -/

/-- What may stand before the key of the first member, and of a later one. -/
inductive Lead : Bool → Octets → Prop
  | first {g : Octets} (hg : Gap g) : Lead true g
  | later {g : Octets} (hg : Gap g) : Lead false (g ++ [44])

theorem nextKey_lead {first : Bool} {lead : Octets} (h : Lead first lead) {before : Octets}
    (hbefore : Gap before) (s : Octets) :
    nextKey first (lead ++ (before ++ 34 :: s)) = .ok (some s) := by
  cases h with
  | first hg =>
    rw [nextKey, skipSpace_gap hg, skipSpace_gap_cons hbefore (by decide)]
    rfl
  | later hg =>
    rw [List.append_assoc, List.singleton_append, nextKey, skipSpace_gap_cons hg (by decide)]
    simp only [skipSpace_gap_cons hbefore (show isSpace 34 = false by decide)]
    rfl

/-- The closing brace, and no further member. -/
theorem readMembers_end {rounds : Octets} (hrounds : rounds ≠ []) (first : Bool) (cells : Cells γ)
    {g : Octets} (hg : Gap g) (rest : Octets) :
    readMembers members rounds first cells (g ++ 125 :: rest) = .ok (cells, 125 :: rest) := by
  obtain ⟨r, rounds, rfl⟩ := List.exists_cons_of_ne_nil hrounds
  have hspace := skipSpace_gap_cons hg (show isSpace 125 = false by decide) rest
  have hnext : nextKey first (g ++ 125 :: rest) = .ok none := by
    rw [nextKey, hspace]
    rfl
  rw [readMembers, hnext, hspace]
  rfl

theorem gives_readMembers (hready : Ready members) {ms : List (κ × Octets)} {w : Octets}
    (h : Separated (RendersMember spells) ms w) (hkeys : ∀ m ∈ ms, TellsKeys spells key? m.1)
    (hvalues : ∀ m ∈ ms, IsValue m.2) {rounds : Octets} (hrounds : ms.length < rounds.length)
    {first : Bool} {lead : Octets} (hlead : Lead first lead) (cells : Cells γ) (rest : Octets) :
    Gives (readMembers members rounds first cells (lead ++ (w ++ 125 :: rest))) (125 :: rest)
      (takeMembers key? members cells ms) := by
  induction h generalizing rounds first lead cells with
  | one hm =>
    obtain ⟨r, rounds, rfl⟩ := List.exists_cons_of_length_pos (Nat.zero_lt_of_lt hrounds)
    obtain ⟨before, text, after, hbefore, hafter, rfl, hread⟩ := gives_readMember hready
      (hkeys _ List.mem_cons_self) (hvalues _ List.mem_cons_self) hm
    have hmember := hread cells (125 :: rest) (numberStops_cons (.inr (.inl rfl)) rest)
    rw [List.append_assoc, List.cons_append, readMembers, nextKey_lead hlead hbefore]
    refine hmember.bind fun cells' _ => .takes ?_
    have hne : rounds ≠ [] := by
      rintro rfl
      simp at hrounds
    exact readMembers_end hne false cells' hafter rest
  | @more m ms w v hm _ ih =>
    obtain ⟨r, rounds, rfl⟩ := List.exists_cons_of_length_pos (Nat.zero_lt_of_lt hrounds)
    obtain ⟨before, text, after, hbefore, hafter, rfl, hread⟩ := gives_readMember hready
      (hkeys _ List.mem_cons_self) (hvalues _ List.mem_cons_self) hm
    have hmember := hread cells (44 :: (v ++ 125 :: rest)) (numberStops_cons (.inl rfl) _)
    have htext : lead ++ (before ++ 34 :: text ++ 44 :: v ++ 125 :: rest)
        = lead ++ (before ++ 34 :: (text ++ 44 :: (v ++ 125 :: rest))) := by simp
    rw [htext, readMembers, nextKey_lead hlead hbefore]
    refine hmember.bind fun cells' _ => ?_
    have hrest := ih (fun m hmem => hkeys m (List.mem_cons_of_mem _ hmem))
      (fun m hmem => hvalues m (List.mem_cons_of_mem _ hmem)) (by simpa using hrounds)
      (.later hafter) cells'
    rwa [List.append_assoc, List.singleton_append] at hrest

theorem length_le_of_separated {ms : List (κ × Octets)} {w : Octets}
    (h : Separated (RendersMember spells) ms w) : ms.length ≤ w.length := by
  induction h with
  | one hm =>
    obtain ⟨key, u, v, -, -, -, rfl⟩ := hm
    simp only [List.length_cons, List.length_nil, List.length_append]
    omega
  | more hm _ ih =>
    simp only [List.length_cons, List.length_append]
    omega

theorem gives_readMembers_inside (hready : Ready members) {ms : List (κ × Octets)} {w : Octets}
    (h : Inside (RendersMember spells) ms w) (hkeys : ∀ m ∈ ms, TellsKeys spells key? m.1)
    (hvalues : ∀ m ∈ ms, IsValue m.2) (rest : Octets) :
    Gives (readMembers members (w ++ 125 :: rest) true [] (w ++ 125 :: rest)) (125 :: rest)
      (takeMembers key? members [] ms) := by
  cases h with
  | empty hg => exact .takes (readMembers_end (by simp) true [] hg rest)
  | items h =>
    have hrounds : ms.length < (w ++ 125 :: rest).length := by
      have := length_le_of_separated h
      simp only [List.length_append, List.length_cons]
      omega
    exact gives_readMembers hready h hkeys hvalues hrounds (.first gap_nil) [] rest

end

/-! ## Arrays -/

/-- The cells of the elements of an array, as far as there are both members and elements. -/
def takeElements : List (Member γ) → List Octets → Option (Cells γ)
  | m :: members, v :: vs => (verdict m.read v).bind fun c =>
    (takeElements members vs).map ((m.name, c) :: ·)
  | _, _ => some []

/-- An element comes next. -/
theorem nextElement_lead {first : Bool} {lead : Octets} (hlead : Lead first lead) {v w : Octets}
    (hv : BeginsItem v) (h : Spaced v w) : ∃ after, Gap after ∧ ∀ s,
      nextElement first (lead ++ (w ++ s)) = .ok (some (v ++ (after ++ s))) := by
  obtain ⟨before, after, hbefore, hafter, rfl⟩ := h
  obtain ⟨c, t, rfl, hspace, hclose⟩ := hv
  refine ⟨after, hafter, fun s => ?_⟩
  have hskip := skipSpace_gap_cons hbefore hspace (t ++ (after ++ s))
  have htext : before ++ (c :: t ++ after) ++ s = before ++ c :: (t ++ (after ++ s)) := by simp
  rw [htext]
  cases hlead with
  | first hg =>
    rw [nextElement, skipSpace_gap hg, hskip]
    simp [hclose]
  | later hg =>
    rw [nextElement, List.append_assoc, List.singleton_append,
      skipSpace_gap_cons hg (show isSpace 44 = false by decide)]
    simp [hskip, hclose]

/-- No array ends where an element comes next. -/
theorem readArrayEnd_lead {first : Bool} {lead : Octets} (hlead : Lead first lead) {v w : Octets}
    (hv : BeginsItem v) (h : Spaced v w) (s : Octets) :
    readArrayEnd (lead ++ (w ++ s)) = .error .malformed := by
  obtain ⟨before, after, hbefore, -, rfl⟩ := h
  obtain ⟨c, t, rfl, hspace, hclose⟩ := hv
  cases hlead with
  | first hg =>
    simp only [List.append_assoc, List.cons_append]
    rw [readArrayEnd, skipSpace_gap hg, skipSpace_gap_cons hbefore hspace]
    simp [hclose]
  | later hg =>
    rw [List.append_assoc, List.singleton_append, readArrayEnd,
      skipSpace_gap_cons hg (show isSpace 44 = false by decide)]
    rfl

theorem readArrayEnd_gap {g : Octets} (hg : Gap g) (rest : Octets) :
    readArrayEnd (g ++ 93 :: rest) = .ok rest := by
  rw [readArrayEnd, skipSpace_gap_cons hg (by decide)]
  rfl

/-- There are no more elements. -/
theorem readElements_end (members : List (Member γ)) (first : Bool) {g : Octets} (hg : Gap g)
    (rest : Octets) :
    readElements members first (g ++ 93 :: rest) = .ok ([], g ++ 93 :: rest) := by
  cases members with
  | nil => rfl
  | cons m members =>
    have hnext : nextElement first (g ++ 93 :: rest) = .ok none := by
      rw [nextElement, skipSpace_gap_cons hg (by decide)]
      rfl
    rw [readElements, hnext]
    rfl

/-- Where the elements of an array have been read: at its end, unless there are more of them than
members. -/
structure EndsArray (members : List (Member γ)) (vs : List Octets) (after rest : Octets) :
    Prop where
  closed : vs.length ≤ members.length → readArrayEnd after = .ok rest
  more : members.length < vs.length → readArrayEnd after = .error .malformed

theorem gives_readElements {vs : List Octets} {w : Octets} (h : Separated Spaced vs w)
    (hvalues : ∀ v ∈ vs, IsValue v) {members : List (Member γ)}
    (hdecides : ∀ m ∈ members, Decides m.read) {first : Bool} {lead : Octets}
    (hlead : Lead first lead) (rest : Octets) :
    ∃ after, EndsArray members vs after rest ∧
      Gives (readElements members first (lead ++ (w ++ 93 :: rest))) after
        (takeElements members vs) := by
  induction h generalizing members first lead with
  | @one v w hv =>
    have hvalue := hvalues v List.mem_cons_self
    cases members with
    | nil =>
      refine ⟨_, ⟨fun hle => absurd hle (by simp), fun _ => ?_⟩, .takes rfl⟩
      exact readArrayEnd_lead hlead hvalue.begins hv _
    | cons m members =>
      obtain ⟨after, hafter, hnext⟩ := nextElement_lead hlead hvalue.begins hv
      have hread := (hdecides m List.mem_cons_self).judges hvalue (after ++ 93 :: rest)
        (numberStops_gap hafter (numberStops_cons (.inr (.inr rfl)) rest))
      refine ⟨after ++ 93 :: rest, ⟨fun _ => readArrayEnd_gap hafter rest,
        fun hlt => absurd hlt (by simp)⟩, ?_⟩
      rw [readElements, hnext]
      refine hread.bind fun c _ => ?_
      have hend := readElements_end members false hafter rest
      cases members <;> exact .takes (by simp only [hend]; rfl)
  | @more v vs w w' hv _ ih =>
    have hvalue := hvalues v List.mem_cons_self
    rw [List.append_assoc, List.cons_append]
    cases members with
    | nil =>
      refine ⟨_, ⟨fun hle => absurd hle (by simp), fun _ => ?_⟩, .takes rfl⟩
      exact readArrayEnd_lead hlead hvalue.begins hv _
    | cons m members =>
      obtain ⟨after, hafter, hnext⟩ := nextElement_lead hlead hvalue.begins hv
      have hread := (hdecides m List.mem_cons_self).judges hvalue
        (after ++ 44 :: (w' ++ 93 :: rest))
        (numberStops_gap hafter (numberStops_cons (.inl rfl) _))
      obtain ⟨end_, hend, hrest⟩ := ih (fun v hmem => hvalues v (List.mem_cons_of_mem _ hmem))
        (fun m' hmem => hdecides m' (List.mem_cons_of_mem m hmem)) (.later hafter)
      refine ⟨end_, ⟨fun hle => hend.closed (by simpa using hle),
        fun hlt => hend.more (by simpa using hlt)⟩, ?_⟩
      rw [List.append_assoc, List.singleton_append] at hrest
      rw [readElements, hnext, takeElements]
      refine hread.bind fun c _ => ?_
      rw [Option.map_eq_bind]
      exact hrest.bind fun cells _ => .takes rfl

end Aerial.Json
