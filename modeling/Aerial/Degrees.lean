/-! # Whole degrees

A heading, a limit or a step is a signed 32-bit number of degrees. The bound is
part of the type: arithmetic happens on `Int`, where nothing wraps, and
`Degrees.clamp` brings a result back to the nearest representable heading. -/

namespace Aerial

def Degrees.lowest : Int := -2147483648
def Degrees.highest : Int := 2147483647

structure Degrees where
  val : Int
  ge_lowest : Degrees.lowest ≤ val
  le_highest : val ≤ Degrees.highest
deriving DecidableEq

namespace Degrees

theorem ext_val {a b : Degrees} (h : a.val = b.val) : a = b := by
  cases a; cases b; simp_all

/-- The heading with exactly this value, if there is one. -/
def ofInt? (n : Int) : Option Degrees :=
  if h : lowest ≤ n ∧ n ≤ highest then some ⟨n, h.1, h.2⟩ else none

/-- The heading nearest to `n`. -/
def clamp (n : Int) : Degrees where
  val := max lowest (min highest n)
  ge_lowest := Int.le_max_left ..
  le_highest := Int.max_le.mpr ⟨by decide, Int.min_le_left ..⟩

instance : Inhabited Degrees := ⟨clamp 0⟩

instance (n : Nat) : OfNat Degrees n := ⟨clamp n⟩

theorem ofInt?_val (a : Degrees) : ofInt? a.val = some a := by
  simp [ofInt?, a.ge_lowest, a.le_highest]

/-- The heading nearest to `a` between `lo` and `hi`. The upper end gives way
when the two are out of order. -/
def within (a lo hi : Degrees) : Degrees where
  val := max lo.val (min (max lo.val hi.val) a.val)
  ge_lowest := Int.le_trans lo.ge_lowest (Int.le_max_left ..)
  le_highest := Int.max_le.mpr ⟨lo.le_highest,
    Int.le_trans (Int.min_le_left ..) (Int.max_le.mpr ⟨lo.le_highest, hi.le_highest⟩)⟩

/-- One move of at most `pace` degrees from `a` in the direction of `goal`. The
distance saturates before it is cut to the pace. -/
def toward (a goal : Degrees) (pace : Int) : Degrees :=
  clamp (a.val + max (-pace) (min pace (clamp (goal.val - a.val)).val))

end Degrees

end Aerial
