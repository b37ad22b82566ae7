import Aerial.Proofs.Settings.Filling
import Aerial.Proofs.Settings.Variables

/-! # Printed configurations load again

A configuration can be written into an environment, each setting under its own variable and in any
of the spellings of its value, beside whatever else the environment holds. Loading then gives the
configuration back. A file that comes on top cannot change it, since every setting can be read
already. All it can do is to be unusable as a whole, and for that it needs a NUL. -/

namespace Aerial

/-! ## Plain spellings -/

namespace Settings

theorem spellsDigits_repr (n : Nat) : SpellsDigits n n.repr.toList := ⟨0, Nat.toList_repr⟩

theorem spellsInteger_repr (n : Int) : SpellsInteger n n.repr.toList := by
  rw [Int.repr_eq_if]
  split
  · rename_i hnonneg
    have h := SpellsInteger.natural (.bare (spellsDigits_repr n.toNat))
    rwa [Int.toNat_of_nonneg hnonneg] at h
  · rename_i hneg
    have h := SpellsInteger.minus (spellsDigits_repr (-n).toNat)
    rw [Int.toNat_of_nonneg (by omega), Int.neg_neg] at h
    rw [String.toList_append]
    exact h

end Settings

/-- The plain spelling of a value. -/
def Setting.Kind.print : (k : Kind) → k.Value → String
  | flag, true => "true"
  | flag, false => "false"
  | text, t => t
  | word16, n => n.toNat.repr
  | word64, n => n.toNat.repr
  | heading, a => a.val.repr
  | logFormat, true => "json"
  | logFormat, false => "text"

theorem Setting.Kind.spells_print (k : Kind) (v : k.Value) : k.Spells v (k.print v) := by
  cases k with
  | flag =>
    rw [← read?_eq_some_iff]
    cases v <;> rfl
  | text => rfl
  | word16 | word64 => exact .bare (Settings.spellsDigits_repr _)
  | heading => exact Settings.spellsInteger_repr _
  | logFormat =>
    rw [← read?_eq_some_iff]
    cases v <;> rfl

/-! ## Spellings without a NUL -/

namespace Settings

theorem SpellsDigits.nulFree {n : Nat} {cs : List Char} (h : SpellsDigits n cs) : '\x00' ∉ cs := by
  intro hnul
  cases h.isDigit _ hnul

theorem SpellsNatural.nulFree {n : Nat} {cs : List Char} (h : SpellsNatural n cs) :
    '\x00' ∉ cs := by
  cases h with
  | bare digits => exact digits.nulFree
  | plus digits => exact List.not_mem_cons_of_ne_of_not_mem (by decide) digits.nulFree

theorem SpellsInteger.nulFree {n : Int} {cs : List Char} (h : SpellsInteger n cs) :
    '\x00' ∉ cs := by
  cases h with
  | natural spelled => exact spelled.nulFree
  | minus digits => exact List.not_mem_cons_of_ne_of_not_mem (by decide) digits.nulFree

theorem AnyCase.nulFree {word cs : List Char} (h : AnyCase word cs)
    (hword : ∀ c ∈ word, c.isUpper = false) (hnul : '\x00' ∉ word) : '\x00' ∉ cs := by
  rw [anyCase_iff hword] at h
  intro hmem
  have hlower := List.mem_map_of_mem (f := Char.toLower) hmem
  rw [h] at hlower
  exact hnul hlower

theorem SpellsFlag.nulFree {b : Bool} {cs : List Char} (h : SpellsFlag b cs) : '\x00' ∉ cs := by
  cases h with
  | yes word => exact word.nulFree (by simp) (by simp)
  | no word => exact word.nulFree (by simp) (by simp)
  | one | zero => decide

end Settings

/-- Only a text can have a NUL. -/
theorem Setting.Kind.Spells.nulFree {k : Kind} {v : k.Value} {t : String} (h : k.Spells v t)
    (hk : k ≠ .text) : '\x00' ∉ t.toList := by
  cases k with
  | flag => exact Settings.SpellsFlag.nulFree h
  | text => exact absurd rfl hk
  | word16 | word64 => exact Settings.SpellsNatural.nulFree h
  | heading => exact Settings.SpellsInteger.nulFree h
  | logFormat =>
    cases v with
    | true => exact Settings.AnyCase.nulFree h (by simp) (by simp)
    | false => exact Settings.AnyCase.nulFree h (by simp) (by simp)

namespace Settings

/-! ## Printing -/

/-- The texts that someone chose. -/
def texts (s : Settings) : List String :=
  [s.tcp.host, s.http.host] ++ (s.backend.profile?.map Profile.name).toList
    ++ (s.backend.remote?.map Remote.host).toList

/-- A text for each setting that the configuration has, spelling its value. -/
def Spelled (s : Settings) (spelling : Setting → String) : Prop :=
  ∀ (x : Setting) (v : x.kind.Value), s.value? x = some v → x.kind.Spells v (spelling x)

/-- The plain spelling of each setting. -/
def printed (s : Settings) (x : Setting) : String := ((s.value? x).map x.kind.print).getD ""

theorem spelled_printed (s : Settings) : s.Spelled s.printed := by
  intro x v hv
  rw [printed, hv]
  exact x.kind.spells_print v

/-- The entries that set the variables of these settings. -/
def entriesOf (spelling : Setting → String) (xs : List Setting) : List (String × Octets) :=
  xs.map fun x => (x.key, Octets.ofString (spelling x))

/-- The entries that set the variable of every setting which the configuration has. -/
def entries (s : Settings) (spelling : Setting → String) : List (String × Octets) :=
  entriesOf spelling (Setting.all.filter fun x => (s.value? x).isSome)

variable {s : Settings} {spelling : Setting → String}

theorem nulFree_spelling (hspelled : s.Spelled spelling) (htexts : ∀ t ∈ s.texts, '\x00' ∉ t.toList)
    {x : Setting} (hx : (s.value? x).isSome) : '\x00' ∉ (spelling x).toList := by
  obtain ⟨v, hv⟩ := Option.isSome_iff_exists.mp hx
  have hspells := hspelled x v hv
  cases x with
  | backend =>
    rw [show spelling .backend = s.backend.name from hspells.trans (Option.some.inj hv).symm]
    cases s.backend with
    | simulated _ _ => exact show '\x00' ∉ "dummy".toList by decide
    | linked _ => exact show '\x00' ∉ "proxy".toList by decide
  | host service =>
    rw [show spelling (.host service) = _ from hspells.trans (Option.some.inj hv).symm]
    exact htexts _ (by cases service <;> simp [texts, listenerOf])
  | rotatorName =>
    obtain ⟨p, hp, rfl⟩ := Option.map_eq_some_iff.mp hv
    rw [show spelling .rotatorName = p.name from hspells]
    exact htexts _ (by simp [texts, hp])
  | remoteHost =>
    obtain ⟨remote, hremote, rfl⟩ := Option.map_eq_some_iff.mp hv
    rw [show spelling .remoteHost = remote.host from hspells]
    exact htexts _ (by simp [texts, hremote])
  | _ => exact hspells.nulFree nofun

theorem lookup_entriesOf (spelling : Setting → String) {xs : List Setting} {x : Setting}
    (hx : x ∈ xs) (more : List (String × Octets)) :
    (entriesOf spelling xs ++ more).lookup x.key = some (Octets.ofString (spelling x)) := by
  induction xs with
  | nil => cases hx
  | cons y xs ih =>
    rw [entriesOf, List.map_cons, List.cons_append, List.lookup_cons]
    by_cases hkey : x.key = y.key
    · rw [Setting.key_injective hkey, beq_self_eq_true]
    · rw [beq_eq_false_iff_ne.mpr hkey]
      exact ih ((List.mem_cons.mp hx).resolve_left fun heq => hkey (congrArg _ heq))

theorem canSet_entries (hspelled : s.Spelled spelling) (htexts : ∀ t ∈ s.texts, '\x00' ∉ t.toList) :
    ∀ e ∈ s.entries spelling, Environment.canSet e.1 e.2 = true := by
  intro e he
  obtain ⟨x, hx, rfl⟩ := List.mem_map.mp he
  have hname : ∀ y ∈ Setting.all, Environment.canName y.key = true := by decide
  rw [Environment.canSet_iff, Octets.zero_mem_ofString]
  exact ⟨hname x x.mem_all, nulFree_spelling hspelled htexts (List.mem_filter.mp hx).2⟩

/-- An environment in which the variable of every setting spells its value tells the
configuration. -/
theorem Spelled.tells {env : Environment} (hspelled : s.Spelled spelling)
    (henv : ∀ x, (s.value? x).isSome → env.text? x.key = some (spelling x)) : Tells env s := by
  intro x
  have hbelongs := isSome_value? s x
  cases hv : s.value? x with
  | none =>
    rw [hv, Option.isSome_none] at hbelongs
    rw [← hbelongs, if_neg Bool.false_ne_true]
  | some v =>
    have htext := henv x (by rw [hv, Option.isSome_some])
    have hread := (Setting.Kind.read?_eq_some_iff _ _ _).mpr (hspelled x v hv)
    rw [hv, Option.isSome_some] at hbelongs
    rw [← hbelongs, if_pos rfl, Setting.told?, htext, Option.bind_some, hread, Option.some_or]

/-- A file leaves such an environment such. -/
theorem Spelled.tells_filled {env filled : Environment} {file : Octets}
    (hspelled : s.Spelled spelling)
    (henv : ∀ x, (s.value? x).isSome → env.text? x.key = some (spelling x))
    (hload : EnvFile.load? file env = some filled) : Tells filled s := by
  rw [EnvFile.load?_eq] at hload
  exact hspelled.tells fun x hx => EnvFile.takeOver_keeps hload (henv x hx)

theorem nulFree_ofList? {entries : List (String × Octets)} {env : Environment}
    (h : Environment.ofList? entries = some env) : env.NulFree := by
  simp only [Environment.ofList?, Option.ite_none_right_eq_some, List.all_eq_true,
    Option.some.injEq] at h
  obtain ⟨hcan, rfl⟩ := h
  intro name b hb
  obtain ⟨before, after, rfl, -⟩ := List.lookup_eq_some_iff.mp hb
  exact ((Environment.canSet_iff ..).mp (hcan (name, b) (by simp))).2

/-- A process can have the environment that is printed, whatever else it holds. -/
theorem exists_printed (hspelled : s.Spelled spelling) (htexts : ∀ t ∈ s.texts, '\x00' ∉ t.toList)
    {more : List (String × Octets)} (hmore : ∀ e ∈ more, Environment.canSet e.1 e.2 = true) :
    ∃ env, Environment.ofList? (s.entries spelling ++ more) = some env ∧
      (∀ name, env name = (s.entries spelling ++ more).lookup name) ∧
      ∀ x, (s.value? x).isSome → env.text? x.key = some (spelling x) := by
  have hcan : (s.entries spelling ++ more).all (fun e => Environment.canSet e.1 e.2) = true := by
    rw [List.all_eq_true]
    intro e he
    exact (List.mem_append.mp he).elim (canSet_entries hspelled htexts e) (hmore e)
  refine ⟨_, if_pos hcan, fun _ => rfl, fun x hx => ?_⟩
  rw [Environment.text?_eq_some_iff]
  exact lookup_entriesOf spelling (List.mem_filter.mpr ⟨x.mem_all, hx⟩) more

/-- Every configuration can be spelled, and it loads again from its settings in any spellings,
whatever else is set. With a file on top it is still this configuration, exactly if the file is
usable; and a file without a NUL always is. -/
theorem printed_loads_iff {s : Settings} (htexts : ∀ t ∈ s.texts, '\x00' ∉ t.toList) :
    s.Spelled s.printed ∧
    ∀ spelling, s.Spelled spelling → ∀ more : List (String × Octets),
      (∀ e ∈ more, Environment.canSet e.1 e.2 = true) →
      ∃ env, Environment.ofList? (s.entries spelling ++ more) = some env ∧ load env = .ok s ∧
        ∀ file : Octets,
          ((EnvFile.load? file env).map load = some (.ok s) ↔
            ¬EnvFile.Spoiled env (EnvFile.linesOf file)) ∧
          (EnvFile.Spoiled env (EnvFile.linesOf file) →
            EnvFile.load? file env = none ∧ 0 ∈ file) := by
  refine ⟨s.spelled_printed, fun spelling hspelled more hmore => ?_⟩
  obtain ⟨env, hsome, -, henv⟩ := exists_printed hspelled htexts hmore
  refine ⟨env, hsome, (load_eq_ok_iff env s).mpr (hspelled.tells henv), fun file => ⟨?_, ?_⟩⟩
  · rw [← EnvFile.load?_eq_none_iff]
    cases hload : EnvFile.load? file env with
    | none => simp
    | some filled =>
      have htells := hspelled.tells_filled henv hload
      simp [(load_eq_ok_iff filled s).mpr htells]
  · intro hspoiled
    refine ⟨(EnvFile.load?_eq_none_iff file env).mpr hspoiled, ?_⟩
    obtain ⟨line, hline, hnul⟩ := hspoiled.nul (nulFree_ofList? hsome)
    by_contra hfile
    exact EnvFile.nulFree_linesOf hfile line hline hnul

/-- Settings at the limits of their types. -/
def extreme : Settings where
  tcp := ⟨false, "", 65535⟩
  http := ⟨true, "::1", 0⟩
  busCapacity := 18446744073709551615
  logJson := true
  backend := .simulated {
    name := "Köln"
    limits := ⟨⟨true, .clamp Degrees.lowest, .clamp Degrees.highest, 7⟩,
      ⟨false, .clamp (-7), 0, .clamp (-1)⟩⟩
    initial := ⟨0, .clamp Degrees.lowest⟩
    step := .clamp (-5) } 18446744073709551615

def extremeSpelling : Setting → String
  | .backend => "dummy"
  | .enabled .tcp => "fAlSe"
  | .enabled .http => "1"
  | .host .tcp => ""
  | .host .http => "::1"
  | .portNumber .tcp => "+65535"
  | .portNumber .http => "000"
  | .busCapacity => "0018446744073709551615"
  | .logFormat => "json"
  | .rotatorName => "Köln"
  | .available .azimuth => "TRUE"
  | .available .elevation => "0"
  | .lowest .azimuth => "-2147483648"
  | .lowest .elevation => "-0007"
  | .highest .azimuth => "+2147483647"
  | .highest .elevation => "0"
  | .stop .azimuth => "+07"
  | .stop .elevation => "-1"
  | .initial .azimuth => "00"
  | .initial .elevation => "-2147483648"
  | .step => "-5"
  | .tick => "18446744073709551615"
  | .remoteHost | .remotePort | .remoteTimeout => ""

theorem spelled_extreme : extreme.Spelled extremeSpelling := by
  intro x v hv
  rw [← Setting.Kind.read?_eq_some_iff]
  cases x with
  | enabled service | host service | portNumber service => cases service <;> (cases hv; rfl)
  | available axis | lowest axis | highest axis | stop axis | initial axis =>
    cases axis <;> (cases hv; rfl)
  | _ => cases hv <;> rfl

theorem printed_loads_iff_extreme :
    (∀ t ∈ extreme.texts, '\x00' ∉ t.toList) ∧ extreme.Spelled extreme.printed ∧
    extreme.Spelled extremeSpelling ∧
    (∀ e ∈ [("HOME", ([47] : Octets))], Environment.canSet e.1 e.2 = true) ∧
    ∃ env, Environment.ofList? (extreme.entries extremeSpelling ++ [("HOME", [47])]) = some env ∧
      load env = .ok extreme ∧
      ∀ file : Octets,
        ((EnvFile.load? file env).map load = some (.ok extreme) ↔
          ¬EnvFile.Spoiled env (EnvFile.linesOf file)) ∧
        (EnvFile.Spoiled env (EnvFile.linesOf file) → EnvFile.load? file env = none ∧ 0 ∈ file) :=
  have h := printed_loads_iff (s := extreme) (by decide)
  ⟨by decide, h.1, spelled_extreme, by decide, h.2 _ spelled_extreme _ (by decide)⟩

/-- A file of one line takes the whole start down, though it sets a variable that no setting is read
from. -/
theorem nul_stops_loading : ∃ env,
    Environment.ofList? (extreme.entries extremeSpelling) = some env ∧ load env = .ok extreme ∧
      EnvFile.load? (Octets.ofString "A=\x00") env = none := by
  obtain ⟨env, hsome, hlookup, henv⟩ :=
    @exists_printed _ _ spelled_extreme (by decide) [] (by simp)
  rw [List.append_nil] at hsome
  have hunset : env.text? "A" = none := by
    rw [Environment.text?, hlookup]
    decide
  have hlines : EnvFile.linesOf (Octets.ofString "A=\x00") = [['A', '=', '\x00']] := by
    decide
  refine ⟨env, hsome, (load_eq_ok_iff env _).mpr (spelled_extreme.tells henv), ?_⟩
  rw [EnvFile.load?_eq_none_iff, hlines]
  exact .here rfl hunset (by decide)

end Settings

end Aerial
