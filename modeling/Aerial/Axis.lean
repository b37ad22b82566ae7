/-! # The two axes

A rotator turns about two axes that follow the same rules. What exists once per
axis is kept in a `PerAxis` pair, so that a rule is stated for an arbitrary axis
and an operation on one axis visibly leaves the other alone. -/

namespace Aerial

inductive Axis where
  | azimuth
  | elevation
deriving DecidableEq, Repr

namespace Axis

def name : Axis → String
  | azimuth => "azimuth"
  | elevation => "elevation"

/-- Both axes, in the order in which they move and are announced. -/
def all : List Axis := [azimuth, elevation]

end Axis

structure PerAxis (α : Type) where
  azimuth : α
  elevation : α
deriving DecidableEq

namespace PerAxis

variable {α β : Type}

def get (p : PerAxis α) : Axis → α
  | .azimuth => p.azimuth
  | .elevation => p.elevation

def set (p : PerAxis α) (axis : Axis) (a : α) : PerAxis α :=
  match axis with
  | .azimuth => { p with azimuth := a }
  | .elevation => { p with elevation := a }

def map (f : α → β) (p : PerAxis α) : PerAxis β := ⟨f p.azimuth, f p.elevation⟩

@[simp] theorem get_set_self (p : PerAxis α) (axis : Axis) (a : α) :
    (p.set axis a).get axis = a := by
  cases axis <;> rfl

theorem get_set_of_ne (p : PerAxis α) {axis other : Axis} (h : other ≠ axis) (a : α) :
    (p.set axis a).get other = p.get other := by
  cases axis <;> cases other <;> simp_all [get, set]

@[simp] theorem get_map (f : α → β) (p : PerAxis α) (axis : Axis) :
    (p.map f).get axis = f (p.get axis) := by
  cases axis <;> rfl

theorem ext_get {p q : PerAxis α} (h : ∀ axis, p.get axis = q.get axis) : p = q := by
  have ha := h .azimuth
  have he := h .elevation
  cases p; cases q; simp_all [get]

end PerAxis

end Aerial
