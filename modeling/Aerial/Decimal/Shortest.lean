/-! # The shortest decimal that reads back

A finite double is `m · 2^q`, and every real in a small interval around it rounds to
it. Its shortest decimal is a point of the coarsest decimal grid that hits this
interval, and of two such points the nearer one. On each grid only the two
neighbours of the value can be the nearest hit, so seventeen grids with two exact
comparisons each are enough. -/

namespace Aerial.Decimal

/-- A positive finite double, `significand · 2^exponent`. `narrow` says that the gap
below it is half the gap above it. -/
structure Binary where
  significand : Nat
  exponent : Int
  narrow : Bool

/-- The magnitude of a double with these bits; its sign is left out. -/
def Binary.ofBits (bits : UInt64) : Binary :=
  let fraction := bits.toNat % Nat.pow 2 52
  let biased : Nat := bits.toNat / Nat.pow 2 52 % Nat.pow 2 11
  if biased = 0 then ⟨fraction, -1074, false⟩
  else ⟨Nat.pow 2 52 + fraction, Int.ofNat biased - 1075, decide (fraction = 0 ∧ 1 < biased)⟩

/-- The number `digits · 10^exponent`. -/
structure Figure where
  digits : Nat
  exponent : Int
deriving DecidableEq

namespace Binary

/-- Four times the value and the ends of its interval, over one denominator. -/
structure Span where
  low : Nat
  value : Nat
  high : Nat
  unit : Nat

def span (x : Binary) : Span :=
  let up := Nat.pow 2 (x.exponent - 2).toNat
  { low := (4 * x.significand - (if x.narrow then 1 else 2)) * up
    value := 4 * x.significand * up
    high := (4 * x.significand + 2) * up
    unit := Nat.pow 2 (2 - x.exponent).toNat }

/-- The span in units of `10^e`. -/
def Span.scale (s : Span) (e : Int) : Span :=
  let up := Nat.pow 10 (-e).toNat
  ⟨s.low * up, s.value * up, s.high * up, s.unit * Nat.pow 10 e.toNat⟩

/-- Whether the grid point `d` rounds to the value. The ends do if the significand
is even. -/
def hits (x : Binary) (s : Span) (d : Nat) : Bool :=
  if x.significand % 2 = 0 then decide (s.low ≤ d * s.unit ∧ d * s.unit ≤ s.high)
  else decide (s.low < d * s.unit ∧ d * s.unit < s.high)

/-- The better neighbour of the value on the grid of `10^e`, if one rounds to it. -/
def onGrid? (x : Binary) (e : Int) : Option Figure :=
  let s := x.span.scale e
  let d := s.value / s.unit
  let below := s.value - d * s.unit
  let above := (d + 1) * s.unit - s.value
  match x.hits s d, x.hits s (d + 1) with
  | false, false => none
  | true, false => some ⟨d, e⟩
  | false, true => some ⟨d + 1, e⟩
  | true, true =>
    some ⟨if below < above || below = above && d % 2 = 0 then d else d + 1, e⟩

/-- The number of digits before the decimal point; below one, minus the number of
zeros after it. -/
def magnitude (x : Binary) : Int :=
  let s := x.span
  if s.unit ≤ s.value then (Nat.toDigits 10 (s.value / s.unit)).length
  else 1 - (Nat.toDigits 10 ((s.unit + s.value - 1) / s.value - 1)).length

/-- The first hit on grids of 1, 2, … digits. -/
def search (x : Binary) (magnitude : Int) : (grids : Nat) → (digits : Nat) → Figure
  | 0, digits => ⟨0, magnitude - digits⟩
  | grids + 1, digits =>
    (x.onGrid? (magnitude - digits)).getD (x.search magnitude grids (digits + 1))

end Binary

/-- Drops trailing zeros of the digits. -/
def Figure.trim (f : Figure) : (zeros : Nat) → Figure
  | 0 => f
  | zeros + 1 =>
    if f.digits ≠ 0 ∧ f.digits % 10 = 0 then (Figure.mk (f.digits / 10) (f.exponent + 1)).trim zeros
    else f

def shortest (x : Binary) : Figure := (x.search x.magnitude 17 1).trim 17

/-! ## Layout -/

/-- Where positional notation ends: the places that the decimal point may take. -/
structure Layout where
  leastPoint : Int
  mostPoint : Int

/-- Positional from `0.00001` to just below `10^16`; outside, the exponent carries a sign.
Integral values end in `.0`. -/
def plain : Layout := ⟨-4, 16⟩

def zeros (n : Nat) : List Char := List.replicate n '0'

/-- The figure as text; `point` is where the decimal point stands in its digits. -/
def Layout.positive (l : Layout) (f : Figure) : List Char :=
  let digits := Nat.toDigits 10 f.digits
  let point := digits.length + f.exponent
  if l.leastPoint ≤ point ∧ point ≤ l.mostPoint then
    if point ≤ 0 then '0' :: '.' :: zeros (-point).toNat ++ digits
    else if 0 ≤ f.exponent then digits ++ zeros f.exponent.toNat ++ ['.', '0']
    else digits.take point.toNat ++ '.' :: digits.drop point.toNat
  else
    digits.take 1 ++ (if digits.length = 1 then [] else '.' :: digits.drop 1)
      ++ 'e' :: (if point < 1 then '-' else '+') :: Nat.toDigits 10 (point - 1).natAbs

/-- A finite double as text. -/
def render (l : Layout) (x : Float) : String :=
  let bits := x.toBits
  let sign := if bits.toNat < Nat.pow 2 63 then [] else ['-']
  let b := Binary.ofBits bits
  String.ofList (sign ++ if b.significand = 0 then ['0', '.', '0'] else l.positive (shortest b))

end Aerial.Decimal
