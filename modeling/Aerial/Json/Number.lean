import Aerial.Json.Lexeme

/-! # Numbers

A number without fraction and exponent that fits 64 bits is an integer; any other
number, and minus zero, is a double. The digits of a double are taken into a 64-bit
significand while they fit, later ones only count, and the power of ten is applied
to the significand in double arithmetic. A double that overflows is malformed. -/

namespace Aerial.Json

inductive Number where
  | integer (n : Int)
  | real (x : Float)

namespace Number

/-- Takes digits into the significand while it stays below `2^64`. The second part is the
number of digits left over. -/
def absorb : (significand : Nat) → (digits : Octets) → Nat × Nat
  | m, [] => (m, 0)
  | m, d :: ds =>
    let m' := m * 10 + (d.toNat - 48)
    if m' < UInt64.size then absorb m' ds else (m, ds.length + 1)

/-- Powers of ten up to this one are doubles of their own. -/
def largestPower : Nat := 308

def powerOfTen (e : Nat) : Float := Float.ofScientific 1 false e

/-- `x · 10^e`, in steps that a table of powers allows. -/
def scale (x : Float) (e : Int) : Except ReadError Float :=
  if e.natAbs ≤ largestPower then
    if e < 0 then .ok (x / powerOfTen e.natAbs)
    else
      let y := x * powerOfTen e.natAbs
      if y.isInf then .error .malformed else .ok y
  else if x == 0 then .ok x
  else if 0 ≤ e then .error .malformed
  else scale (x / powerOfTen largestPower) (e + largestPower)
termination_by e.natAbs
decreasing_by
  simp only [largestPower] at *
  omega

def assemble (negative : Bool) (significand : Nat) (e : Int) : Except ReadError Number := do
  let x ← scale significand.toUInt64.toFloat e
  pure (.real (if negative then -x else x))

/-- The number that the digits of an exponent spell. Digits past the range of 32 bits no
longer count: a double is zero or overflows long before. -/
def spelledPower (digits : Octets) : Nat :=
  digits.foldl (fun n d => if n < UInt32.size then n * 10 + (d.toNat - 48) else n) 0

/-- The exponent part, after its letter. -/
def readExponent (negative : Bool) (significand : Nat) (e : Int) (s : Octets) :
    Except ReadError (Number × Octets) := do
  let (down, s) := match s with
    | 43 :: s => (false, s)
    | 45 :: s => (true, s)
    | s => (false, s)
  let digits := s.takeWhile Octets.isDigit
  let rest := s.dropWhile Octets.isDigit
  if digits = [] then throw (if rest = [] then .incomplete else .malformed)
  let power := spelledPower digits
  let x ← assemble negative significand (if down then e - power else e + power)
  pure (x, rest)

/-- What follows the digits of the significand: an exponent or the end. -/
def readTail (negative : Bool) (significand : Nat) (e : Int) (s : Octets) :
    Except ReadError (Number × Octets) :=
  match s with
  | 101 :: s => readExponent negative significand e s
  | 69 :: s => readExponent negative significand e s
  | s => do pure (← assemble negative significand e, s)

/-- The fraction, after its point. -/
def readFraction (negative : Bool) (significand : Nat) (e : Int) (s : Octets) :
    Except ReadError (Number × Octets) :=
  let digits := s.takeWhile Octets.isDigit
  let rest := s.dropWhile Octets.isDigit
  if digits = [] then .error (if rest = [] then .incomplete else .malformed)
  else
    let (significand, left) := absorb significand digits
    readTail negative significand (e - (digits.length - left)) rest

/-- A 64-bit integer, or the double that stands for a number outside. -/
def whole (negative : Bool) (significand : Nat) : Except ReadError Number :=
  if !negative then .ok (.integer significand)
  else if 0 < significand ∧ significand * 2 ≤ UInt64.size then .ok (.integer (-significand))
  else assemble true significand 0

/-- A number after its sign. -/
def read (negative : Bool) (s : Octets) : Except ReadError (Number × Octets) := do
  let digits := s.takeWhile Octets.isDigit
  let rest := s.dropWhile Octets.isDigit
  match digits with
  | [] => throw (if rest = [] then .incomplete else .malformed)
  | 48 :: _ :: _ => throw .malformed
  | digits =>
    let (significand, left) := absorb 0 digits
    match rest with
    | 46 :: rest => readFraction negative significand left rest
    | 101 :: _ => readTail negative significand left rest
    | 69 :: _ => readTail negative significand left rest
    | rest =>
      if left = 0 then pure (← whole negative significand, rest)
      else readTail negative significand left rest

end Number

end Aerial.Json
