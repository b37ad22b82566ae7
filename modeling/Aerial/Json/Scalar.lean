import Aerial.Degrees
import Aerial.Json.Number
import Aerial.Json.Text

/-! # Scalars of a known type

Each reader skips the space before its value. A literal, string or number of the wrong
type is read to its end before it is reported; an array or object is reported at its
opening bracket. -/

namespace Aerial.Json

/-- The fault of a value that is not of the expected type. -/
def mismatch (expected : Expected) (s : Octets) : ReadError :=
  let unfit (found : Found) : ReadError := .unfit (.wrongType found expected)
  let number (negative : Bool) (s : Octets) : ReadError :=
    match Number.read negative s with
    | .ok (.integer n, _) => unfit (.integer n)
    | .ok (.real x, _) => unfit (.real x)
    | .error e => e
  let literal (word s : Octets) (found : Found) : ReadError :=
    match spell word s with
    | .ok _ => unfit found
    | .error e => e
  match s with
  | [] => .incomplete
  | c :: rest =>
    if c = 110 then literal ull rest .null
    else if c = 116 then literal rue rest (.boolean true)
    else if c = 102 then literal alse rest (.boolean false)
    else if c = 45 then number true rest
    else if Octets.isDigit c then number false s
    else if c = 34 then
      match Text.read rest with
      | .ok (t, _) => unfit (.text t)
      | .error e => e
    else if c = 91 then unfit .array
    else if c = 123 then unfit .object
    else .malformed

def degreesOf : Number → Except ReadError Degrees
  | .integer n =>
    match Degrees.ofInt? n with
    | some a => .ok a
    | none => .error (.unfit (.outOfRange n))
  | .real x => .error (.unfit (.wrongType (.real x) .degrees))

/-- A heading. Only an integer literal will do. -/
def readDegrees (s : Octets) : Except ReadError (Degrees × Octets) := do
  match skipSpace s with
  | [] => throw .incomplete
  | c :: rest =>
    if c = 45 then
      let (n, rest) ← Number.read true rest
      pure (← degreesOf n, rest)
    else if Octets.isDigit c then
      let (n, rest) ← Number.read false (c :: rest)
      pure (← degreesOf n, rest)
    else throw (mismatch .degrees (c :: rest))

/-- A heading or `null`. -/
def readDegrees? (s : Octets) : Except ReadError (Option Degrees × Octets) := do
  match skipSpace s with
  | 110 :: rest => pure (none, ← spell ull rest)
  | s =>
    let (a, rest) ← readDegrees s
    pure (some a, rest)

def readFlag (s : Octets) : Except ReadError (Bool × Octets) := do
  match skipSpace s with
  | 116 :: rest => pure (true, ← spell rue rest)
  | 102 :: rest => pure (false, ← spell alse rest)
  | s => throw (mismatch .flag s)

def readText (s : Octets) : Except ReadError (String × Octets) :=
  match skipSpace s with
  | 34 :: rest => Text.read rest
  | s => .error (mismatch .text s)

/-- The literal `null`. -/
def readNothing (s : Octets) : Except ReadError Octets :=
  match skipSpace s with
  | 110 :: rest => spell ull rest
  | s => .error (mismatch .nothing s)

/-- The colon between a key and its value. -/
def readColon (s : Octets) : Except ReadError Octets :=
  match skipSpace s with
  | [] => .error .incomplete
  | c :: rest => if c = 58 then .ok rest else .error .malformed

end Aerial.Json
