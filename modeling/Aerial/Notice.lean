import Aerial.Octets
import Aerial.Status

/-! # What clients hear

Plain clients hear about a rotator in push lines of the form `+0AAA+0EEE`, ended by
carriage return and line feed. Both headings are always present. A heading has at
least three digits; below zero its sign stands before them, `+0-005`.

Stream clients hear about it in notices: a kind and a status. The station sends
headings only; the other two kinds are understood and mean nothing to a link. -/

namespace Aerial

/-! ## Push lines -/

namespace PushLine

/-- At least three decimal digits. -/
def threeDigits (n : Nat) : Octets :=
  let digits := Octets.ofNat n
  List.replicate (3 - digits.length) 48 ++ digits

def heading (a : Degrees) : Octets :=
  if a.val < 0 then 45 :: threeDigits a.val.natAbs else threeDigits a.val.natAbs

/-- `+0` before a heading. -/
def field (a : Degrees) : Octets := 43 :: 48 :: heading a

end PushLine

def Status.pushLine (s : Status) : Octets :=
  PushLine.field s.pointing.azimuth.heading ++ PushLine.field s.pointing.elevation.heading
    ++ [13, 10]

/-! ## Notices -/

inductive Notice.Kind where
  | add
  | remove
  | heading
deriving DecidableEq

namespace Notice.Kind

def all : List Kind := [add, remove, heading]

def name : Kind → String
  | add => "add"
  | remove => "remove"
  | heading => "heading"

def ofName? (s : String) : Option Kind := all.find? (·.name = s)

theorem ofName?_name (k : Kind) : ofName? k.name = some k := by
  cases k <;> decide

end Notice.Kind

structure Notice where
  kind : Notice.Kind
  status : Status
deriving DecidableEq

end Aerial
