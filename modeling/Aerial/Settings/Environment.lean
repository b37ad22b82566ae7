import Aerial.Degrees
import Aerial.Octets

/-! # Variables and the values they spell

An environment gives bytes to some variables. A variable whose bytes are not UTF-8
counts as unset, and one whose value cannot be read counts as unset too: the readers
below answer `none`, and the settings put a default in its place.

An environment is a list of entries `NAME=value`, each ended by a NUL byte. So no name is
empty, no name holds an equals sign, and neither a name nor a value holds a NUL: an
attempt to set such a variable has no result. -/

namespace Aerial

abbrev Environment := String → Option Octets

namespace Environment

def text? (env : Environment) (name : String) : Option String :=
  (env name).bind Octets.text?

/-- The rest of the entry that begins with `cs` and an equals sign. With an equals sign in
`cs` the entry is that of the name before it, and its value begins with what follows. -/
def rest? (env : Environment) (cs : List Char) : Option Octets :=
  let name := String.ofList (cs.takeWhile (· ≠ '='))
  match cs.dropWhile (· ≠ '=') with
  | [] => env name
  | _ :: more => (env name).bind (Octets.ofChars (more ++ ['='])).isPrefixOf?

def restText? (env : Environment) (cs : List Char) : Option String :=
  (env.rest? cs).bind Octets.text?

/-- Whether a variable can have this name. -/
def canName (name : String) : Bool :=
  name ≠ "" && name.toList.all fun c => c ≠ '=' && c ≠ '\x00'

/-- Whether a variable can have this value. -/
def canHold (value : Octets) : Bool := !value.contains 0

/-- Whether an environment can have this variable. -/
def canSet (name : String) (value : Octets) : Bool := canName name && canHold value

/-- The environment with exactly these variables, if there is one. -/
def ofList? (entries : List (String × Octets)) : Option Environment :=
  if entries.all fun (name, value) => canSet name value then some fun name => entries.lookup name
  else none

/-- Sets a variable unless it has a readable value already. -/
def supply? (env : Environment) (name value : String) : Option Environment :=
  let bytes := Octets.ofString value
  if (env.text? name).isSome then some env
  else if canSet name bytes then some fun n => if n = name then some bytes else env n
  else none

end Environment

namespace Settings

/-- A number in decimal digits, of which there must be some. -/
def digits? (cs : List Char) : Option Nat :=
  if cs ≠ [] ∧ cs.all Char.isDigit then some (Nat.ofDigitChars 10 cs 0) else none

/-- Decimal digits, with a plus sign before them or not. -/
def natural? (s : String) : Option Nat :=
  match s.toList with
  | '+' :: cs => digits? cs
  | cs => digits? cs

/-- Decimal digits, with a sign before them or not. -/
def integer? (s : String) : Option Int :=
  match s.toList with
  | '-' :: cs => (digits? cs).map fun n => -(n : Int)
  | _ => (natural? s).map fun n => (n : Int)

def word16? (s : String) : Option UInt16 :=
  (natural? s).bind fun n => if n < UInt16.size then some (UInt16.ofNat n) else none

def word64? (s : String) : Option UInt64 :=
  (natural? s).bind fun n => if n < UInt64.size then some (UInt64.ofNat n) else none

def degrees? (s : String) : Option Degrees := (integer? s).bind Degrees.ofInt?

/-- `true` and `false` in any letter case, or `1` and `0`. -/
def flag? (s : String) : Option Bool :=
  let lower := s.toList.map Char.toLower
  if lower = ['t', 'r', 'u', 'e'] ∨ lower = ['1'] then some true
  else if lower = ['f', 'a', 'l', 's', 'e'] ∨ lower = ['0'] then some false
  else none

end Settings

end Aerial
