import Aerial.Proofs.Settings.Spellings
import Aerial.Settings.Basic
import Mathlib.Data.List.Nodup
import Mathlib.Logic.Function.Basic

/-! # One variable for each setting

The settings are listed here, each with the variable that it is read from, what it may be set to and
what it is when nobody sets it. Some belong to one backend only. A configuration is no more than the
values of its settings, and loading gives every setting that belongs to it what its own variable
tells, whatever stands in the others. So the outcome of loading is known from what the variables
tell, and an environment comes into it in no other way. -/

namespace Aerial

/-- What listens. -/
inductive Service where
  | tcp
  | http
deriving DecidableEq

inductive Setting where
  | backend
  | enabled (service : Service)
  | host (service : Service)
  | portNumber (service : Service)
  | busCapacity
  | logFormat
  | rotatorName
  | available (axis : Axis)
  | lowest (axis : Axis)
  | highest (axis : Axis)
  | stop (axis : Axis)
  | initial (axis : Axis)
  | step
  | tick
  | remoteHost
  | remotePort
  | remoteTimeout
deriving DecidableEq

namespace Setting

/-! ## Kinds of values -/

inductive Kind where
  | flag
  | text
  | word16
  | word64
  | heading
  | logFormat

namespace Kind

def Value : Kind → Type
  | flag | logFormat => Bool
  | text => String
  | word16 => UInt16
  | word64 => UInt64
  | heading => Degrees

/-- The texts that a value can be written as. A log format is `json` or `text`, and its value is
whether it is the former. -/
def Spells : (k : Kind) → k.Value → String → Prop
  | flag, b, t => Settings.SpellsFlag b t.toList
  | text, v, t => t = v
  | word16, n, t => Settings.SpellsNatural n.toNat t.toList
  | word64, n, t => Settings.SpellsNatural n.toNat t.toList
  | heading, a, t => Settings.SpellsInteger a.val t.toList
  | logFormat, true, t => Settings.AnyCase ['j', 's', 'o', 'n'] t.toList
  | logFormat, false, t => Settings.AnyCase ['t', 'e', 'x', 't'] t.toList

def read? : (k : Kind) → String → Option k.Value
  | flag, t => Settings.flag? t
  | text, t => some t
  | word16, t => Settings.word16? t
  | word64, t => Settings.word64? t
  | heading, t => Settings.degrees? t
  | logFormat, t =>
    if Settings.isJson t then some true
    else if t.toList.map Char.toLower = ['t', 'e', 'x', 't'] then some false else none

theorem read?_logFormat (t : String) (json : Bool) :
    logFormat.read? t = some json ↔ logFormat.Spells json t := by
  have hjson := @Settings.anyCase_iff ['j', 's', 'o', 'n'] (by simp) t.toList
  have htext := @Settings.anyCase_iff ['t', 'e', 'x', 't'] (by simp) t.toList
  simp only [read?, Settings.isJson, decide_eq_true_eq]
  constructor
  · intro h
    split at h
    · rename_i hword
      cases h
      exact hjson.mpr hword
    split at h
    · rename_i hword
      cases h
      exact htext.mpr hword
    · cases h
  · intro h
    cases json with
    | true =>
      rw [if_pos (hjson.mp h)]
      rfl
    | false =>
      rw [htext.mp h]
      rfl

/-- A reader finds a value in the texts that spell it, and in no others. -/
theorem read?_eq_some_iff (k : Kind) (t : String) (v : k.Value) :
    k.read? t = some v ↔ k.Spells v t := by
  cases k with
  | flag => exact Settings.flag?_eq_some_iff t v
  | text => exact Option.some_inj
  | word16 => exact Settings.word16?_eq_some_iff t v
  | word64 => exact Settings.word64?_eq_some_iff t v
  | heading => exact Settings.degrees?_eq_some_iff t v
  | logFormat => exact read?_logFormat t v

end Kind

/-! ## The table -/

def kind : Setting → Kind
  | enabled _ | available _ => .flag
  | backend | host _ | rotatorName | remoteHost => .text
  | portNumber _ | remotePort => .word16
  | busCapacity | tick | remoteTimeout => .word64
  | lowest _ | highest _ | stop _ | initial _ | step => .heading
  | logFormat => .logFormat

/-- The variable that a setting is read from. -/
def key : Setting → String
  | backend => "ROTATOR_BACKEND"
  | enabled .tcp => "TCP_ENABLED"
  | enabled .http => "HTTP_ENABLED"
  | host .tcp => "TCP_HOST"
  | host .http => "HTTP_HOST"
  | portNumber .tcp => "TCP_PORT"
  | portNumber .http => "HTTP_PORT"
  | busCapacity => "EVENT_BUS_CAPACITY"
  | logFormat => "LOG_FORMAT"
  | rotatorName => "ROTATOR_NAME"
  | available .azimuth => "DUMMY_HAS_AZIMUTH"
  | available .elevation => "DUMMY_HAS_ELEVATION"
  | lowest .azimuth => "DUMMY_AZIMUTH_MIN"
  | lowest .elevation => "DUMMY_ELEVATION_MIN"
  | highest .azimuth => "DUMMY_AZIMUTH_MAX"
  | highest .elevation => "DUMMY_ELEVATION_MAX"
  | stop .azimuth => "DUMMY_AZIMUTH_STOP"
  | stop .elevation => "DUMMY_ELEVATION_STOP"
  | initial .azimuth => "DUMMY_AZIMUTH"
  | initial .elevation => "DUMMY_ELEVATION"
  | step => "DUMMY_STEP"
  | tick => "DUMMY_TICK_MS"
  | remoteHost => "PROXY_HOST"
  | remotePort => "PROXY_PORT"
  | remoteTimeout => "PROXY_TIMEOUT_SECS"

/-- What a setting is when its variable tells nothing. The remote host has to be told. -/
def default? : (x : Setting) → Option x.kind.Value
  | backend => some "dummy"
  | enabled _ => some true
  | host _ => some "0.0.0.0"
  | portNumber .tcp => some (7373 : UInt16)
  | portNumber .http => some (7070 : UInt16)
  | busCapacity => some (1024 : UInt64)
  | logFormat => some false
  | rotatorName => some "dummyRotator"
  | available _ => some true
  | lowest _ => some (0 : Degrees)
  | highest .azimuth => some (450 : Degrees)
  | highest .elevation => some (180 : Degrees)
  | stop _ => some (0 : Degrees)
  | initial _ => some (0 : Degrees)
  | step => some (5 : Degrees)
  | tick => some (100 : UInt64)
  | remoteHost => none
  | remotePort => some (7070 : UInt16)
  | remoteTimeout => some (3 : UInt64)

/-- Whether a configuration with the backend of this name has the setting. -/
def belongs (backendName : String) : Setting → Bool
  | rotatorName | available _ | lowest _ | highest _ | stop _ | initial _ | step | tick =>
    backendName = "dummy"
  | remoteHost | remotePort | remoteTimeout => backendName = "proxy"
  | _ => true

/-- What an environment tells of a setting. A variable that is unset, is not UTF-8 or holds what
no value is spelled like tells the default. -/
def told? (env : Environment) (x : Setting) : Option x.kind.Value :=
  ((env.text? x.key).bind x.kind.read?).or x.default?

def all : List Setting :=
  [backend, enabled .tcp, enabled .http, host .tcp, host .http, portNumber .tcp, portNumber .http,
    busCapacity, logFormat, rotatorName, available .azimuth, available .elevation, lowest .azimuth,
    lowest .elevation, highest .azimuth, highest .elevation, stop .azimuth, stop .elevation,
    initial .azimuth, initial .elevation, step, tick, remoteHost, remotePort, remoteTimeout]

theorem mem_all (x : Setting) : x ∈ all := by
  cases x with
  | enabled service | host service | portNumber service => cases service <;> decide
  | available axis | lowest axis | highest axis | stop axis | initial axis => cases axis <;> decide
  | _ => decide

/-- No two settings share a variable. -/
theorem key_injective : Function.Injective key := by
  have hnodup : (all.map key).Nodup := by decide
  intro x y h
  exact List.inj_on_of_nodup_map hnodup x.mem_all y.mem_all h

/-- What a setting is told depends on its own variable alone. -/
theorem told?_congr {env other : Environment} {x : Setting} (h : env x.key = other x.key) :
    x.told? env = x.told? other := by
  rw [told?, told?, Environment.text?, Environment.text?, h]

end Setting

/-! ## Configurations as values of their settings -/

attribute [ext] Limits Profile Listener Remote Settings

namespace Backend

def name : Backend → String
  | simulated .. => "dummy"
  | linked _ => "proxy"

def profile? : Backend → Option Profile
  | simulated profile _ => some profile
  | linked _ => none

def tickMs? : Backend → Option UInt64
  | simulated _ tickMs => some tickMs
  | linked _ => none

def remote? : Backend → Option Remote
  | simulated .. => none
  | linked remote => some remote

end Backend

namespace Settings

def listenerOf (s : Settings) : Service → Listener
  | .tcp => s.tcp
  | .http => s.http

/-- The value of a setting, if the configuration has it. -/
def value? (s : Settings) : (x : Setting) → Option x.kind.Value
  | .backend => some s.backend.name
  | .enabled service => some (s.listenerOf service).enabled
  | .host service => some (s.listenerOf service).host
  | .portNumber service => some (s.listenerOf service).portNumber
  | .busCapacity => some s.busCapacity
  | .logFormat => some s.logJson
  | .rotatorName => s.backend.profile?.map Profile.name
  | .available axis => s.backend.profile?.map fun p => (p.limits.get axis).available
  | .lowest axis => s.backend.profile?.map fun p => (p.limits.get axis).lowest
  | .highest axis => s.backend.profile?.map fun p => (p.limits.get axis).highest
  | .stop axis => s.backend.profile?.map fun p => (p.limits.get axis).stop
  | .initial axis => s.backend.profile?.map fun p => p.initial.get axis
  | .step => s.backend.profile?.map Profile.step
  | .tick => s.backend.tickMs?
  | .remoteHost => s.backend.remote?.map Remote.host
  | .remotePort => s.backend.remote?.map Remote.portNumber
  | .remoteTimeout => s.backend.remote?.map Remote.timeoutSeconds

theorem isSome_value? (s : Settings) (x : Setting) :
    (s.value? x).isSome = x.belongs s.backend.name := by
  obtain ⟨tcp, http, busCapacity, logJson, backend⟩ := s
  cases backend <;> cases x <;> rfl

theorem listenerOf_congr {s t : Settings} (h : ∀ x, s.value? x = t.value? x) (service : Service) :
    s.listenerOf service = t.listenerOf service :=
  Listener.ext (Option.some.inj (h (.enabled service))) (Option.some.inj (h (.host service)))
    (Option.some.inj (h (.portNumber service)))

theorem backend_congr {s t : Settings} (h : ∀ x, s.value? x = t.value? x) :
    s.backend = t.backend := by
  obtain ⟨_, _, _, _, backend⟩ := s
  obtain ⟨_, _, _, _, other⟩ := t
  cases backend with
  | simulated p tickMs =>
    cases other with
    | simulated q tickMs' =>
      have hlimits : p.limits = q.limits := PerAxis.ext_get fun axis =>
        Limits.ext (Option.some.inj (h (.available axis))) (Option.some.inj (h (.lowest axis)))
          (Option.some.inj (h (.highest axis))) (Option.some.inj (h (.stop axis)))
      have hinitial : p.initial = q.initial :=
        PerAxis.ext_get fun axis => Option.some.inj (h (.initial axis))
      have hprofile : p = q :=
        Profile.ext (Option.some.inj (h .rotatorName)) hlimits hinitial (Option.some.inj (h .step))
      have htick : tickMs = tickMs' := Option.some.inj (h .tick)
      rw [hprofile, htick]
    | linked _ => cases h .tick
  | linked remote =>
    cases other with
    | simulated _ _ => cases h .tick
    | linked remote' =>
      have hremote : remote = remote' := Remote.ext (Option.some.inj (h .remoteHost))
        (Option.some.inj (h .remotePort)) (Option.some.inj (h .remoteTimeout))
      rw [hremote]

/-- Two configurations whose settings have the same values are the same. -/
theorem ext_value? {s t : Settings} (h : ∀ x, s.value? x = t.value? x) : s = t :=
  Settings.ext (listenerOf_congr h .tcp) (listenerOf_congr h .http)
    (Option.some.inj (h .busCapacity)) (Option.some.inj (h .logFormat)) (backend_congr h)

/-! ## Loading -/

/-- The environment tells every setting that the configuration has, and the configuration has no
other. -/
def Tells (env : Environment) (s : Settings) : Prop :=
  ∀ x : Setting, s.value? x = if x.belongs s.backend.name then x.told? env else none

/-- The configuration that an environment gives to a backend. -/
def around (env : Environment) (backend : Backend) : Settings where
  tcp := listener env "TCP" 7373
  http := listener env "HTTP" 7070
  busCapacity := parsed env word64? "EVENT_BUS_CAPACITY" 1024
  logJson := isJson (text env "LOG_FORMAT" "text")
  backend := backend

/-- What is wrong with an environment that tells no configuration. -/
inductive Flawed (env : Environment) : Failure → Prop where
  | unknown {name : String} (told : Setting.backend.told? env = some name) (dummy : name ≠ "dummy")
      (proxy : name ≠ "proxy") : Flawed env (.unknownBackend name)
  | hostless (told : Setting.backend.told? env = some "proxy")
      (host : Setting.remoteHost.told? env = none) : Flawed env .noRemoteHost

variable {env other : Environment} {s t : Settings}

theorem load_eq (env : Environment) : load env = (loadBackend env).map (around env) := by
  unfold load
  cases loadBackend env <;> rfl

theorem told_parsed {α : Type} (env : Environment) (read : String → Option α) (key : String)
    (default : α) :
    some (parsed env read key default) = ((env.text? key).bind read).or (some default) :=
  Option.or_some.symm

theorem told_text (env : Environment) (key default : String) :
    some (text env key default) = ((env.text? key).bind some).or (some default) := by
  rw [Option.bind_fun_some, Option.or_some, text]

/-- A log format that is neither `json` nor `text` counts as `text`. -/
theorem told_logFormat (env : Environment) :
    (some (isJson (text env "LOG_FORMAT" "text")) : Option Setting.logFormat.kind.Value) =
      Setting.logFormat.told? env := by
  have hdefault : isJson "text" = false := by decide
  unfold Setting.told? text Setting.key
  cases env.text? "LOG_FORMAT" with
  | none =>
    rw [Option.getD_none, hdefault]
    rfl
  | some t =>
    simp only [Option.getD_some, Option.bind_some, Setting.kind, Setting.Kind.read?]
    split
    · rename_i hjson
      rw [hjson]
      rfl
    · rename_i hjson
      rw [Bool.not_eq_true] at hjson
      rw [hjson]
      split <;> rfl

/-- What every configuration has, whatever the backend. -/
theorem value?_around {backend : Backend} (hname : backend.name = text env "ROTATOR_BACKEND" "dummy")
    {x : Setting} (hx : ∀ name, x.belongs name = true) :
    (around env backend).value? x = x.told? env := by
  cases x with
  | backend => exact (congrArg some hname).trans (told_text env _ _)
  | enabled service => cases service <;> exact told_parsed env _ _ _
  | host service => cases service <;> exact told_text env _ _
  | portNumber service => cases service <;> exact told_parsed env _ _ _
  | busCapacity => exact told_parsed env _ _ _
  | logFormat => exact told_logFormat env
  | _ => cases hx ""

theorem tells_simulated (hname : text env "ROTATOR_BACKEND" "dummy" = "dummy") :
    Tells env (around env
      (.simulated (profile env .standard) (parsed env word64? "DUMMY_TICK_MS" 100))) := by
  intro x
  cases x with
  | rotatorName => exact told_text env _ _
  | available axis | lowest axis | highest axis | stop axis | initial axis =>
    cases axis <;> exact told_parsed env _ _ _
  | step | tick => exact told_parsed env _ _ _
  | remoteHost | remotePort | remoteTimeout => rfl
  | _ => exact value?_around (by exact hname.symm) fun _ => rfl

theorem tells_linked {host : String} (hname : text env "ROTATOR_BACKEND" "dummy" = "proxy")
    (hhost : env.text? "PROXY_HOST" = some host) :
    Tells env (around env (.linked ⟨host, parsed env word16? "PROXY_PORT" 7070,
      parsed env word64? "PROXY_TIMEOUT_SECS" 3⟩)) := by
  intro x
  cases x with
  | remoteHost =>
    have htold : Setting.remoteHost.told? env = some host := by
      rw [Setting.told?, Setting.key, hhost]
      rfl
    exact htold.symm
  | remotePort | remoteTimeout => exact told_parsed env _ _ _
  | rotatorName | available _ | lowest _ | highest _ | stop _ | initial _ | step | tick => rfl
  | _ => exact value?_around (by exact hname.symm) fun _ => rfl

/-- An environment tells one configuration at most. -/
theorem Tells.unique (hs : Tells env s) (ht : Tells env t) : s = t := by
  have hbackend : s.backend.name = t.backend.name :=
    Option.some.inj ((hs .backend).trans (ht .backend).symm)
  refine ext_value? fun x => ?_
  rw [hs x, ht x, hbackend]

theorem Tells.name (hs : Tells env s) : Setting.backend.told? env = some s.backend.name :=
  (hs .backend).symm

theorem Tells.not_flawed (hs : Tells env s) (e : Failure) : ¬Flawed env e := by
  intro he
  cases he with
  | unknown told dummy proxy =>
    have hname := Option.some.inj (hs.name.symm.trans told)
    cases hbackend : s.backend with
    | simulated _ _ => exact dummy (by rw [← hname, hbackend, Backend.name])
    | linked _ => exact proxy (by rw [← hname, hbackend, Backend.name])
  | hostless told host =>
    have hname := Option.some.inj (hs.name.symm.trans told)
    have hsome := isSome_value? s .remoteHost
    rw [hs .remoteHost, hname, host] at hsome
    cases hsome

theorem Flawed.unique {e f : Failure} (he : Flawed env e) (hf : Flawed env f) : e = f := by
  cases he with
  | unknown told dummy proxy =>
    cases hf with
    | unknown told' _ _ => rw [Option.some.inj (told.symm.trans told')]
    | hostless told' _ => exact absurd (Option.some.inj (told.symm.trans told')) proxy
  | hostless told host =>
    cases hf with
    | unknown told' _ proxy => exact absurd (Option.some.inj (told'.symm.trans told)) proxy
    | hostless _ _ => rfl

theorem loadBackend_of_dummy (hname : text env "ROTATOR_BACKEND" "dummy" = "dummy") :
    loadBackend env =
      .ok (.simulated (profile env .standard) (parsed env word64? "DUMMY_TICK_MS" 100)) := by
  unfold loadBackend
  rw [hname]
  rfl

theorem loadBackend_of_proxy (hname : text env "ROTATOR_BACKEND" "dummy" = "proxy") :
    loadBackend env = match env.text? "PROXY_HOST" with
      | none => .error .noRemoteHost
      | some host => .ok (.linked ⟨host, parsed env word16? "PROXY_PORT" 7070,
          parsed env word64? "PROXY_TIMEOUT_SECS" 3⟩) := by
  unfold loadBackend
  rw [hname]
  rfl

theorem loadBackend_of_other (hdummy : text env "ROTATOR_BACKEND" "dummy" ≠ "dummy")
    (hproxy : text env "ROTATOR_BACKEND" "dummy" ≠ "proxy") :
    loadBackend env = .error (.unknownBackend (text env "ROTATOR_BACKEND" "dummy")) := by
  unfold loadBackend
  dsimp only
  rw [if_neg hdummy, if_neg hproxy]

theorem load_cases (env : Environment) :
    (∃ s, load env = .ok s ∧ Tells env s) ∨ ∃ e, load env = .error e ∧ Flawed env e := by
  have htold := told_text env "ROTATOR_BACKEND" "dummy"
  by_cases hdummy : text env "ROTATOR_BACKEND" "dummy" = "dummy"
  · rw [load_eq, loadBackend_of_dummy hdummy]
    exact .inl ⟨_, rfl, tells_simulated hdummy⟩
  by_cases hproxy : text env "ROTATOR_BACKEND" "dummy" = "proxy"
  · rw [load_eq, loadBackend_of_proxy hproxy]
    cases hhost : env.text? "PROXY_HOST" with
    | some host => exact .inl ⟨_, rfl, tells_linked hproxy hhost⟩
    | none =>
      refine .inr ⟨_, rfl, .hostless (htold.symm.trans (congrArg some hproxy)) ?_⟩
      rw [Setting.told?, Setting.key, hhost]
      rfl
  · rw [load_eq, loadBackend_of_other hdummy hproxy]
    exact .inr ⟨_, rfl, .unknown htold.symm hdummy hproxy⟩

/-- Loading gives the configuration that the environment tells, and never another one. -/
theorem load_eq_ok_iff (env : Environment) (s : Settings) : load env = .ok s ↔ Tells env s := by
  obtain ⟨t, hload, ht⟩ | ⟨e, hload, he⟩ := load_cases env
  · rw [hload, Except.ok.injEq]
    exact ⟨fun h => h ▸ ht, fun hs => ht.unique hs⟩
  · rw [hload]
    exact ⟨nofun, fun hs => absurd he (hs.not_flawed e)⟩

theorem load_eq_error_iff (env : Environment) (e : Failure) :
    load env = .error e ↔ Flawed env e := by
  obtain ⟨t, hload, ht⟩ | ⟨f, hload, hf⟩ := load_cases env
  · rw [hload]
    exact ⟨nofun, fun he => absurd he (ht.not_flawed e)⟩
  · rw [hload, Except.error.injEq]
    exact ⟨fun h => h ▸ hf, fun he => hf.unique he⟩

/-- Loading goes by what the environment tells, and by nothing else. -/
theorem load_congr (h : ∀ x : Setting, x.told? env = x.told? other) : load env = load other := by
  cases hload : load other with
  | ok s =>
    rw [load_eq_ok_iff] at hload ⊢
    intro x
    rw [hload x, h x]
  | error e =>
    rw [load_eq_error_iff] at hload ⊢
    cases hload with
    | unknown htold hdummy hproxy => exact .unknown ((h _).trans htold) hdummy hproxy
    | hostless htold hhost => exact .hostless ((h _).trans htold) ((h _).trans hhost)

end Settings

end Aerial
