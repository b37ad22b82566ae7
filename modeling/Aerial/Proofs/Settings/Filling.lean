import Aerial.Proofs.Json.Strings
import Aerial.Proofs.Settings.Spellings
import Aerial.Settings.EnvFile
import Mathlib.Data.List.Infix

/-! # What a file can fill in

Where a logical line of an environment file ends depends on its quotes alone, so the lines can be cut
out first and taken over afterwards, one by one. Whatever they say, a variable that could be read
before still reads the same. The one thing that a file can do to stop a start altogether is to give
a variable that has no readable value one with a NUL, which no environment can hold. A NUL can only
come from the file: where the environment has none, the values that lines borrow from it have none. -/

namespace Aerial

/-! ## Environments and NUL bytes -/

theorem Octets.zero_mem_ofString (t : String) : 0 ∈ Octets.ofString t ↔ '\x00' ∈ t.toList := by
  rw [ofString, ofChars, List.mem_flatMap]
  constructor
  · rintro ⟨c, hc, hzero⟩
    have hnul : c.toNat = 0 := by
      rcases Json.byte_of_utf8EncodeChar hzero with h | h
      · exact h.symm
      · cases h
    rwa [← Char.toNat_inj.mp (show c.toNat = '\x00'.toNat from hnul)]
  · intro h
    exact ⟨_, h, by decide⟩

theorem nulFree_text {b : Octets} {t : String} (h : b.text? = some t) (hb : 0 ∉ b) :
    '\x00' ∉ t.toList := by
  rw [Octets.text?_eq_some_iff] at h
  rwa [← Octets.zero_mem_ofString, ← h]

namespace Environment

/-- No value has a NUL. No environment that a process can have is otherwise. -/
def NulFree (env : Environment) : Prop := ∀ name b, env name = some b → 0 ∉ b

theorem canSet_iff (name : String) (value : Octets) :
    canSet name value = true ↔ canName name = true ∧ 0 ∉ value := by
  simp [canSet, canHold]

theorem nulFree_supply? {env after : Environment} {name value : String}
    (hfree : env.NulFree) (h : env.supply? name value = some after) : after.NulFree := by
  unfold supply? at h
  dsimp only at h
  split at h
  · cases h
    exact hfree
  split at h
  · rename_i hset
    cases h
    intro other b hb
    dsimp only at hb
    split at hb
    · cases hb
      exact ((canSet_iff ..).mp hset).2
    · exact hfree other b hb
  · cases h

theorem nulFree_rest? {env : Environment} (hfree : env.NulFree) {cs : List Char}
    {b : Octets} (h : env.rest? cs = some b) : 0 ∉ b := by
  unfold rest? at h
  dsimp only at h
  split at h
  · exact hfree _ _ h
  · obtain ⟨whole, hwhole, hrest⟩ := Option.bind_eq_some_iff.mp h
    have happend := List.append_eq_of_isPrefixOf?_eq_some hrest
    have hfree' := hfree _ _ hwhole
    rw [← happend] at hfree'
    exact fun hb => hfree' (List.mem_append_right _ hb)

theorem supply?_keeps {env after : Environment} {name value : String}
    (h : env.supply? name value = some after) {key t : String} (hkey : env.text? key = some t) :
    after.text? key = some t := by
  unfold supply? at h
  dsimp only at h
  split at h
  · cases h
    exact hkey
  rename_i hopen
  split at h
  · cases h
    have hother : key ≠ name := by
      rintro rfl
      rw [hkey] at hopen
      exact hopen rfl
    rw [text?, if_neg hother]
    exact hkey
  · cases h

theorem supply?_eq_none_iff (env : Environment) (name value : String) :
    env.supply? name value = none ↔
      env.text? name = none ∧ canSet name (Octets.ofString value) = false := by
  unfold supply?
  dsimp only
  cases htext : env.text? name with
  | some t => simp
  | none =>
    cases hset : canSet name (Octets.ofString value) <;> simp

end Environment

namespace Settings.EnvFile

/-! ## Logical lines -/

/-- The logical lines of a file, up to the first line that is not text. Whatever is still quoted at
the end makes no line. -/
def logicalLines (begun : List Char) (q : Quoting) : List Octets → List (List Char)
  | [] => []
  | line :: lines =>
    match Octets.text? line with
    | none => []
    | some text =>
      let cs := text.toList
      if begun = [] ∧ (skipWhite cs).head? = some '#' then logicalLines [] .complete lines
      else match scanLine q cs with
        | (some before, _) => begun.reverseAux before :: logicalLines [] .complete lines
        | (none, .complete) => begun.reverseAux (chop cs) :: logicalLines [] .complete lines
        | (none, q) => logicalLines (cs.reverseAux begun) q lines

/-- Works off logical lines up to the first that breaks the rules. -/
def takeOver (env : Environment) : List (List Char) → Option Environment
  | [] => some env
  | line :: lines =>
    match parseLine env line with
    | .broken => some env
    | .nothing => takeOver env lines
    | .entry name value =>
      match env.supply? name value with
      | none => none
      | some env => takeOver env lines

theorem loadLines_eq_takeOver (env : Environment) (begun : List Char) (q : Quoting)
    (lines : List Octets) :
    loadLines env begun q lines = takeOver env (logicalLines begun q lines) := by
  induction lines generalizing env begun q with
  | nil => rfl
  | cons line lines ih =>
    rw [loadLines, logicalLines]
    cases line.text? with
    | none => rfl
    | some text =>
      have htaken (logical : List Char) :
          (match parseLine env logical with
            | .broken => some env
            | .nothing => loadLines env [] .complete lines
            | .entry name value =>
              match env.supply? name value with
              | none => none
              | some env => loadLines env [] .complete lines) =
            takeOver env (logical :: logicalLines [] .complete lines) := by
        rw [takeOver]
        cases parseLine env logical with
        | broken => rfl
        | nothing => exact ih env _ _
        | entry name value =>
          dsimp only
          cases env.supply? name value with
          | none => rfl
          | some env => exact ih env _ _
      dsimp only
      split
      · exact ih env [] .complete
      obtain ⟨before, last⟩ := scanLine q text.toList
      cases before with
      | some before => exact htaken _
      | none =>
        cases last with
        | complete => exact htaken _
        | _ => exact ih env _ _

/-! ## Taking lines over -/

/-- A line changes nothing that could be read before it. -/
theorem takeOver_keeps {env filled : Environment} {lines : List (List Char)}
    (h : takeOver env lines = some filled) {key t : String} (hkey : env.text? key = some t) :
    filled.text? key = some t := by
  induction lines generalizing env with
  | nil =>
    cases h
    exact hkey
  | cons line lines ih =>
    rw [takeOver] at h
    split at h
    · cases h
      exact hkey
    · exact ih h hkey
    split at h
    · cases h
    · rename_i hsupply
      exact ih h (Environment.supply?_keeps hsupply hkey)

/-! ## What a line can say -/

theorem skipWhite_subset (cs : List Char) : skipWhite cs ⊆ cs := (List.dropWhile_sublist _).subset

theorem canName_of_isKeyStart {c : Char} {cs : List Char} (h : isKeyStart c = true) :
    Environment.canName (String.ofList ((c :: cs).takeWhile isKeyChar)) = true := by
  have hfirst : isKeyChar c = true := by
    simp only [isKeyStart, Bool.or_eq_true] at h
    rcases h with h | h <;> simp [isKeyChar, Char.isAlphanum, h]
  have hkeys : ∀ d ∈ (c :: cs).takeWhile isKeyChar, isKeyChar d = true :=
    fun d hd => List.all_eq_true.mp List.all_takeWhile d hd
  rw [List.takeWhile_cons_of_pos hfirst] at hkeys ⊢
  rw [Environment.canName, Bool.and_eq_true, String.toList_ofList, List.all_eq_true]
  refine ⟨by simp [← String.toList_inj], fun d hd => ?_⟩
  have hd := hkeys d hd
  rw [Bool.and_eq_true, decide_eq_true_eq, decide_eq_true_eq]
  constructor
  · rintro rfl
    cases hd
  · rintro rfl
    cases hd

theorem key?_eq_some {cs rest : List Char} {key : String} (h : key? cs = some (key, rest)) :
    Environment.canName key = true ∧ rest ⊆ cs := by
  unfold key? at h
  split at h
  · split at h
    · rename_i hstart
      cases h
      exact ⟨canName_of_isKeyStart hstart, (List.dropWhile_sublist _).subset⟩
    · cases h
  · cases h

theorem afterEquals?_subset {cs rest : List Char} (h : afterEquals? cs = some rest) :
    rest ⊆ cs := by
  unfold afterEquals? at h
  split at h
  · cases h
    exact List.subset_cons_self _ _
  · cases h

theorem assignment?_eq_some {cs rest : List Char} {key : String}
    (h : assignment? cs = some (key, rest)) : Environment.canName key = true ∧ rest ⊆ cs := by
  simp only [assignment?, Option.bind_eq_bind, Option.bind_eq_some_iff] at h
  obtain ⟨⟨name, more⟩, hkey, h⟩ := h
  obtain ⟨hname, hmore⟩ := key?_eq_some hkey
  have hmore := List.Subset.trans (skipWhite_subset more) hmore
  split at h
  · split at h
    · rename_i hequals
      cases h
      exact ⟨hname, List.Subset.trans (afterEquals?_subset hequals) hmore⟩
    · -- `export` was no name, so the name is what follows it
      simp only [Option.bind_eq_some_iff] at h
      obtain ⟨⟨second, after⟩, hkey, _, hequals, hrest⟩ := h
      obtain ⟨hsecond, hafter⟩ := key?_eq_some hkey
      cases hrest
      have hafter := List.Subset.trans (skipWhite_subset after) (List.Subset.trans hafter hmore)
      exact ⟨hsecond, List.Subset.trans (afterEquals?_subset hequals) hafter⟩
  · obtain ⟨_, hequals, hrest⟩ := Option.bind_eq_some_iff.mp h
    cases hrest
    exact ⟨hname, List.Subset.trans (afterEquals?_subset hequals) hmore⟩

/-- An entry has a name that a variable can have, and its value is nothing or is spelled by a part
of the line. -/
theorem parseLine_eq_entry {env : Environment} {line : List Char} {name value : String}
    (h : parseLine env line = .entry name value) :
    Environment.canName name = true ∧
      (value = "" ∨ ∃ cs ⊆ line, value? env .bare cs = some value.toList) := by
  unfold parseLine at h
  dsimp only at h
  split at h
  · cases h
  split at h
  · cases h
  rename_i key rest hassign
  obtain ⟨hname, hrest⟩ := assignment?_eq_some hassign
  split at h
  · cases h
    exact ⟨hname, .inl rfl⟩
  split at h
  · rename_i v hvalue
    cases h
    refine ⟨hname, .inr ⟨_, fun c hc => ?_, by rw [hvalue, String.toList_ofList]⟩⟩
    have htrimmed := skipWhite_subset _ (hrest (skipWhite_subset rest hc))
    exact List.mem_reverse.mp ((List.dropWhile_sublist _).subset (List.mem_reverse.mp htrimmed))
  · cases h

theorem escapedChar?_eq {c d : Char} (h : escapedChar? c = some d) : d = c ∨ d = '\n' := by
  unfold escapedChar? at h
  split at h
  · cases h
    exact .inl rfl
  split at h
  · cases h
    exact .inr rfl
  · cases h

/-- A value is made of characters of its line, of line feeds and of what its names stand for. -/
theorem mem_value? {env : Environment} {place : Place} {cs v : List Char}
    (h : value? env place cs = some v) :
    ∀ d ∈ v, d ∈ cs ∨ d = '\n' ∨ ∃ collected, d ∈ substitute env collected := by
  fun_induction value? env place cs generalizing v
  all_goals grind [Option.map_eq_some_iff, escapedChar?_eq]

/-! ## Unusable files -/

/-- Some line gives a variable without a readable value one with a NUL. -/
inductive Spoiled : Environment → List (List Char) → Prop where
  | here {env : Environment} {line : List Char} {lines : List (List Char)} {name value : String}
      (parsed : parseLine env line = .entry name value) (unset : env.text? name = none)
      (nul : '\x00' ∈ value.toList) : Spoiled env (line :: lines)
  | blank {env : Environment} {line : List Char} {lines : List (List Char)}
      (parsed : parseLine env line = .nothing) (later : Spoiled env lines) :
      Spoiled env (line :: lines)
  | further {env after : Environment} {line : List Char} {lines : List (List Char)}
      {name value : String} (parsed : parseLine env line = .entry name value)
      (supplied : env.supply? name value = some after) (later : Spoiled after lines) :
      Spoiled env (line :: lines)

theorem canSet_of_canName {name value : String} (h : Environment.canName name = true) :
    Environment.canSet name (Octets.ofString value) = false ↔ '\x00' ∈ value.toList := by
  rw [← Bool.not_eq_true, Environment.canSet_iff, Octets.zero_mem_ofString]
  simp [h]

theorem takeOver_eq_none_iff (env : Environment) (lines : List (List Char)) :
    takeOver env lines = none ↔ Spoiled env lines := by
  constructor
  · intro h
    induction lines generalizing env with
    | nil => cases h
    | cons line lines ih =>
      rw [takeOver] at h
      split at h
      · cases h
      · rename_i hparsed
        exact .blank hparsed (ih env h)
      · rename_i hparsed
        split at h
        · rename_i hsupply
          obtain ⟨hunset, hset⟩ := (Environment.supply?_eq_none_iff ..).mp hsupply
          exact .here hparsed hunset ((canSet_of_canName (parseLine_eq_entry hparsed).1).mp hset)
        · rename_i hsupply
          exact .further hparsed hsupply (ih _ h)
  · intro h
    induction h with
    | here parsed unset nul =>
      have hset := (canSet_of_canName (parseLine_eq_entry parsed).1).mpr nul
      have hsupply := (Environment.supply?_eq_none_iff ..).mpr ⟨unset, hset⟩
      simp only [takeOver, parsed, hsupply]
    | blank parsed _ ih => simp only [takeOver, parsed, ih]
    | further parsed supplied _ ih => simp only [takeOver, parsed, supplied, ih]

/-! ## Where a NUL comes from -/

variable {env : Environment}

theorem nulFree_substitute (hfree : env.NulFree) (collected : List Char) :
    '\x00' ∉ substitute env collected := by
  unfold substitute
  cases htext : env.restText? collected.reverse with
  | none => simp
  | some t =>
    obtain ⟨b, hb, ht⟩ := Option.bind_eq_some_iff.mp htext
    exact nulFree_text ht (Environment.nulFree_rest? hfree hb)

theorem nulFree_parseLine (hfree : env.NulFree) {line : List Char} {name value : String}
    (h : parseLine env line = .entry name value) (hline : '\x00' ∉ line) :
    '\x00' ∉ value.toList := by
  obtain ⟨-, rfl | ⟨cs, hcs, hvalue⟩⟩ := parseLine_eq_entry h
  · exact List.not_mem_nil
  intro hnul
  obtain hnul | hnul | ⟨collected, hnul⟩ := mem_value? hvalue _ hnul
  · exact hline (hcs hnul)
  · cases hnul
  · exact nulFree_substitute hfree collected hnul

theorem Spoiled.nul {lines : List (List Char)} (h : Spoiled env lines) (hfree : env.NulFree) :
    ∃ line ∈ lines, '\x00' ∈ line := by
  induction h with
  | @here env line lines name value parsed _ nul =>
    by_cases hline : '\x00' ∈ line
    · exact ⟨line, List.mem_cons_self, hline⟩
    · exact absurd nul (nulFree_parseLine hfree parsed hline)
  | blank _ _ ih =>
    obtain ⟨line, hline, hnul⟩ := ih hfree
    exact ⟨line, List.mem_cons_of_mem _ hline, hnul⟩
  | further _ supplied _ ih =>
    obtain ⟨line, hline, hnul⟩ := ih (Environment.nulFree_supply? hfree supplied)
    exact ⟨line, List.mem_cons_of_mem _ hline, hnul⟩

theorem scanLine_subset {q last : Quoting} {cs before : List Char}
    (h : scanLine q cs = (some before, last)) : before ⊆ cs := by
  induction cs generalizing q before last with
  | nil => cases h
  | cons c cs ih =>
    rw [scanLine] at h
    split at h
    · cases h
      exact List.nil_subset _
    · obtain ⟨hbefore, -⟩ := Prod.mk.inj h
      obtain ⟨more, hmore, rfl⟩ := Option.map_eq_some_iff.mp hbefore
      exact List.cons_subset_cons c (ih (Prod.ext hmore rfl))

theorem chop_subset (cs : List Char) : chop cs ⊆ cs := by
  unfold chop
  split
  · rename_i r hreverse
    intro c hc
    rw [← List.mem_reverse, hreverse]
    simp [List.mem_reverse.mp hc]
  · rename_i r hreverse
    intro c hc
    rw [← List.mem_reverse, hreverse]
    simp [List.mem_reverse.mp hc]
  · exact List.Subset.refl _

theorem nulFree_logicalLines {begun : List Char} {q : Quoting} {lines : List Octets}
    (hbegun : '\x00' ∉ begun) (hlines : ∀ line ∈ lines, 0 ∉ line) :
    ∀ line ∈ logicalLines begun q lines, '\x00' ∉ line := by
  induction lines generalizing begun q with
  | nil => simp [logicalLines]
  | cons line lines ih =>
    have hmore := fun l hl => hlines l (List.mem_cons_of_mem _ hl)
    rw [logicalLines]
    cases htext : line.text? with
    | none => simp
    | some text =>
      have htext := nulFree_text htext (hlines line List.mem_cons_self)
      have hfresh := @ih [] .complete List.not_mem_nil hmore
      have htaken : ∀ logical ⊆ text.toList, '\x00' ∉ begun.reverseAux logical := by
        intro logical hlogical
        rw [List.reverseAux_eq, List.mem_append, List.mem_reverse, not_or]
        exact ⟨hbegun, fun hnul => htext (hlogical hnul)⟩
      dsimp only
      split
      · exact hfresh
      split
      · rename_i hscan
        exact List.forall_mem_cons.mpr ⟨htaken _ (scanLine_subset hscan), hfresh⟩
      · exact List.forall_mem_cons.mpr ⟨htaken _ (chop_subset _), hfresh⟩
      · refine ih ?_ hmore
        rw [List.reverseAux_eq, List.mem_append, List.mem_reverse, not_or]
        exact ⟨htext, hbegun⟩

/-! ## Files -/

theorem flatten_splitLines (b : Octets) : (splitLines b).flatten = b := by
  induction b with
  | nil => rfl
  | cons c b ih =>
    rw [splitLines]
    split
    · rw [List.flatten_cons, ih]
      rfl
    split
    · rename_i hlines
      rw [hlines] at ih
      rw [← ih]
      rfl
    · rename_i hlines
      rw [hlines] at ih
      rw [← ih]
      rfl

/-- The logical lines of a file. -/
def linesOf (file : Octets) : List (List Char) :=
  logicalLines [] .complete (splitLines (match file with
    | 0xEF :: 0xBB :: 0xBF :: rest => rest
    | file => file))

theorem load?_eq (file : Octets) (env : Environment) : load? file env = takeOver env (linesOf file) :=
  loadLines_eq_takeOver env [] .complete _

theorem nulFree_linesOf {file : Octets} (hfile : 0 ∉ file) : ∀ line ∈ linesOf file, '\x00' ∉ line := by
  refine nulFree_logicalLines List.not_mem_nil fun line hline hnul => ?_
  have hmem := List.mem_flatten.mpr ⟨line, hline, hnul⟩
  rw [flatten_splitLines] at hmem
  split at hmem
  · exact hfile (by simp [hmem])
  · exact hfile hmem

theorem load?_eq_none_iff (file : Octets) (env : Environment) :
    load? file env = none ↔ Spoiled env (linesOf file) := by
  rw [load?_eq, takeOver_eq_none_iff]

end Settings.EnvFile

end Aerial
