import Aerial.Proofs.Settings.Variables

/-! # What a variable bears on

Two variables decide whether loading fails: the one that names the backend, and the one that names
the remote host if there has to be one. Every other variable bears on one setting at most, its own,
and may hold any bytes whatever: those that spell no value count as if the variable were unset. All
of it holds of every environment, since loading goes by what each variable tells. -/

namespace Aerial.Settings

variable {env other : Environment} {s t : Settings}

/-! ## Failures -/

theorem told_backend_iff {name : String} (hname : name ≠ "dummy") :
    Setting.backend.told? env = some name ↔
      env "ROTATOR_BACKEND" = some (Octets.ofString name) := by
  rw [← Environment.text?_eq_some_iff, Setting.told?, Setting.key]
  cases env.text? "ROTATOR_BACKEND" with
  | none =>
    refine ⟨fun h => absurd (Option.some.inj h).symm hname, fun h => ?_⟩
    cases h
  | some told => exact Iff.rfl

theorem told_remoteHost_iff :
    Setting.remoteHost.told? env = none ↔
      ∀ host, env "PROXY_HOST" ≠ some (Octets.ofString host) := by
  simp only [ne_eq, ← Environment.text?_eq_some_iff, Setting.told?, Setting.key]
  cases env.text? "PROXY_HOST" with
  | none => exact ⟨fun _ host => Option.some_ne_none host ∘ Eq.symm, fun _ => rfl⟩
  | some host => exact ⟨fun h => absurd h (Option.some_ne_none host), fun h => absurd rfl (h host)⟩

theorem load_eq_unknownBackend_iff (env : Environment) (name : String) :
    load env = .error (.unknownBackend name) ↔
      env "ROTATOR_BACKEND" = some (Octets.ofString name) ∧ name ≠ "dummy" ∧ name ≠ "proxy" := by
  rw [load_eq_error_iff]
  constructor
  · rintro ⟨told, dummy, proxy⟩
    exact ⟨(told_backend_iff dummy).mp told, dummy, proxy⟩
  · rintro ⟨told, dummy, proxy⟩
    exact .unknown ((told_backend_iff dummy).mpr told) dummy proxy

theorem load_eq_noRemoteHost_iff (env : Environment) :
    load env = .error .noRemoteHost ↔
      env "ROTATOR_BACKEND" = some (Octets.ofString "proxy") ∧
        ∀ host, env "PROXY_HOST" ≠ some (Octets.ofString host) := by
  rw [load_eq_error_iff, ← told_backend_iff (by decide), ← told_remoteHost_iff]
  constructor
  · intro h
    cases h with
    | hostless told host => exact ⟨told, host⟩
  · rintro ⟨told, host⟩
    exact .hostless told host

/-! ## One variable changed -/

/-- Settings with variables of their own are the same in two configurations with the same backend,
if the environments differ in another variable only. -/
theorem Tells.value?_congr (hs : Tells env s) (ht : Tells other t)
    (hbackend : s.backend.name = t.backend.name) {x : Setting} (hx : env x.key = other x.key) :
    s.value? x = t.value? x := by
  rw [hs x, ht x, hbackend, Setting.told?_congr hx]

/-- Two environments that differ in one variable give configurations that differ in its setting, if
in anything. -/
theorem Tells.differ_in_one {name : String} (hsame : ∀ n, n ≠ name → env n = other n)
    (hs : Tells env s) (ht : Tells other t) (hbackend : s.backend.name = t.backend.name) :
    s = t ∨ ∃ x : Setting, x.key = name ∧ ∀ y, y ≠ x → s.value? y = t.value? y := by
  have helse : ∀ y : Setting, y.key ≠ name → s.value? y = t.value? y :=
    fun y hy => hs.value?_congr ht hbackend (hsame y.key hy)
  by_cases hx : ∃ x : Setting, x.key = name
  · obtain ⟨x, rfl⟩ := hx
    exact .inr ⟨x, rfl, fun y hy => helse y fun hkey => hy (Setting.key_injective hkey)⟩
  · exact .inl (ext_value? fun y => helse y fun hkey => hx ⟨y, hkey⟩)

/-- A change of a variable that names neither the backend nor the remote host lets loading succeed
as before. -/
theorem Tells.exists_update (hs : Tells env s) {name : String}
    (hbackend : name ≠ "ROTATOR_BACKEND") (hhost : name ≠ "PROXY_HOST") (value : Option Octets) :
    ∃ t, Tells (Function.update env name value) t ∧ t.backend.name = s.backend.name ∧
      ∀ y : Setting, y.key ≠ name → t.value? y = s.value? y := by
  have hsame : ∀ n, n ≠ name → Function.update env name value n = env n :=
    fun n hn => Function.update_of_ne hn value env
  have htold : ∀ x : Setting, x.key ≠ name → x.told? (Function.update env name value) = x.told? env :=
    fun x hx => Setting.told?_congr (hsame x.key hx)
  obtain ⟨t, -, ht⟩ | ⟨e, -, he⟩ := load_cases (Function.update env name value)
  · have hname : t.backend.name = s.backend.name :=
      Option.some.inj (ht.name.symm.trans ((htold .backend hbackend.symm).trans hs.name))
    exact ⟨t, ht, hname, fun y hy => ht.value?_congr hs hname (hsame y.key hy)⟩
  · -- the two variables that could be at fault have not changed
    cases he with
    | unknown told dummy proxy =>
      exact absurd (.unknown ((htold .backend hbackend.symm).symm.trans told) dummy proxy)
        (hs.not_flawed _)
    | hostless told host =>
      exact absurd (.hostless ((htold .backend hbackend.symm).symm.trans told)
        ((htold .remoteHost hhost.symm).symm.trans host)) (hs.not_flawed _)

/-- Bytes that tell nothing about the setting whose variable this is: they are no text, or a text
that spells no value. -/
def Meaningless (name : String) (b : Octets) : Prop :=
  ∀ x : Setting, x.key = name → ∀ (text : String) (v : x.kind.Value),
    b = Octets.ofString text → ¬x.kind.Spells v text

theorem Meaningless.told? {name : String} {b : Octets} (h : Meaningless name b) (x : Setting) :
    x.told? (Function.update env name (some b)) = x.told? (Function.update env name none) := by
  by_cases hx : x.key = name
  · have hread : ∀ text, b.text? = some text → x.kind.read? text = none := by
      intro text htext
      rw [Octets.text?_eq_some_iff] at htext
      rw [Option.eq_none_iff_forall_ne_some]
      intro v hv
      exact h x hx text v htext ((Setting.Kind.read?_eq_some_iff _ _ _).mp hv)
    simp only [Setting.told?, Environment.text?, hx, Function.update_self, Option.bind_some,
      Option.bind_none]
    cases htext : b.text? with
    | none => rfl
    | some text => rw [Option.bind_some, hread text htext]
  · refine Setting.told?_congr ?_
    rw [Function.update_of_ne hx, Function.update_of_ne hx]

/-- Loading fails for an unknown backend, and for a remote station without a host to find it at, and
for nothing else. Between two environments that differ in one variable, and load with the same
backend, nothing differs but the setting of this variable. Apart from the two that can make it fail,
a variable may be set to anything or unset: loading succeeds as before and gives every other setting
its value of before; and what is meaningless there is the same as nothing. -/
theorem each_variable_its_setting (env : Environment) :
    ((∃ e, load env = .error e) ↔
      (∃ name, env "ROTATOR_BACKEND" = some (Octets.ofString name) ∧
        name ≠ "dummy" ∧ name ≠ "proxy") ∨
      (env "ROTATOR_BACKEND" = some (Octets.ofString "proxy") ∧
        ∀ host, env "PROXY_HOST" ≠ some (Octets.ofString host))) ∧
    (∀ (other : Environment) (name : String) (s t : Settings),
      (∀ n, n ≠ name → env n = other n) → load env = .ok s → load other = .ok t →
        s.backend.name = t.backend.name →
          s = t ∨ ∃ x : Setting, x.key = name ∧ ∀ y, y ≠ x → s.value? y = t.value? y) ∧
    (∀ name, name ≠ "ROTATOR_BACKEND" → name ≠ "PROXY_HOST" →
      (∀ s value, load env = .ok s → ∃ t, load (Function.update env name value) = .ok t ∧
        t.backend.name = s.backend.name ∧
        ∀ y : Setting, y.key ≠ name → t.value? y = s.value? y) ∧
      ∀ b, Meaningless name b →
        load (Function.update env name (some b)) = load (Function.update env name none)) := by
  refine ⟨⟨?_, ?_⟩, ?_, fun name hbackend hhost => ⟨?_, ?_⟩⟩
  · rintro ⟨⟨name⟩ | ⟨⟩, he⟩
    · exact .inl ⟨name, (load_eq_unknownBackend_iff env name).mp he⟩
    · exact .inr ((load_eq_noRemoteHost_iff env).mp he)
  · rintro (⟨name, hname⟩ | hhost)
    · exact ⟨_, (load_eq_unknownBackend_iff env name).mpr hname⟩
    · exact ⟨_, (load_eq_noRemoteHost_iff env).mpr hhost⟩
  · intro other name s t hsame hs ht hbackend
    exact ((load_eq_ok_iff env s).mp hs).differ_in_one hsame ((load_eq_ok_iff other t).mp ht) hbackend
  · intro s value hs
    obtain ⟨t, ht, hname, helse⟩ :=
      ((load_eq_ok_iff env s).mp hs).exists_update hbackend hhost value
    exact ⟨t, (load_eq_ok_iff _ t).mpr ht, hname, helse⟩
  · intro b hb
    exact load_congr fun x => hb.told? x

/-- A remote station, with nothing said of the listeners. -/
def remoteOnly : Environment :=
  fun name => [("ROTATOR_BACKEND", Octets.ofString "proxy"),
    ("PROXY_HOST", Octets.ofString "far")].lookup name

theorem meaningless_port : Meaningless "TCP_PORT" (Octets.ofString "65536") := by
  intro x hx text v htext hspells
  obtain rfl : x = .portNumber .tcp := Setting.key_injective hx
  obtain rfl : text = "65536" := by
    have h := Octets.text?_ofString text
    rw [← htext, Octets.text?_ofString] at h
    exact (Option.some.inj h).symm
  have hread := (Setting.Kind.read?_eq_some_iff _ _ _).mpr hspells
  have hnone : word16? "65536" = none := by decide
  cases hnone.symm.trans hread

theorem each_variable_its_setting_overflow :
    Meaningless "TCP_PORT" (Octets.ofString "65536") ∧
    load (Function.update remoteOnly "TCP_PORT" (some (Octets.ofString "65536"))) =
      load (Function.update remoteOnly "TCP_PORT" none) ∧
    ∃ s, load remoteOnly = .ok s ∧
      ∃ t, load (Function.update remoteOnly "TCP_PORT" (some (Octets.ofString "65536"))) = .ok t ∧
        t.backend.name = s.backend.name ∧
        ∀ y : Setting, y.key ≠ "TCP_PORT" → t.value? y = s.value? y :=
  have h := (each_variable_its_setting remoteOnly).2.2 "TCP_PORT" (by decide) (by decide)
  ⟨meaningless_port, h.2 _ meaningless_port, _, rfl, h.1 _ _ rfl⟩

end Aerial.Settings
