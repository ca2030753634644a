/- # Flowgraph.Number.Shortest -- the fewest digits that read back

`shortest b` is the decimal `d * 10 ^ g` with the fewest digits among all
decimals in the interval that rounds to `b`; of two with as few digits the
nearer one, and on an exact tie the one with the even last digit.

The interval's ends belong to it exactly when the mantissa is even.  All is
decided in natural numbers: on the grid of multiples of `10 ^ g` only the two
neighbours of the value can be the nearest points, so it is enough to try those,
from a coarse grid to finer ones.
-/
import Flowgraph.Number.Binary

set_option autoImplicit false

namespace Flowgraph

/-- The decimal `digits * 10 ^ exp`. -/
structure Decimal where
  digits : Nat
  exp : Int
  deriving DecidableEq

namespace Binary

/-- The nearest point of the grid of multiples of `10 ^ g` in the rounding interval of `b`. -/
def onGrid? (b : Binary) (g : Int) : Option Nat :=
  let up := Nat.pow 2 (b.exp - 2).toNat * Nat.pow 10 (-g).toNat
  let unit := Nat.pow 2 (2 - b.exp).toNat * Nat.pow 10 g.toNat
  let value := 4 * b.mant * up
  let low := (4 * b.mant - if b.narrow then 1 else 2) * up
  let high := (4 * b.mant + 2) * up
  let inside := fun d : Nat =>
    if b.mant % 2 = 0 then low ≤ d * unit && d * unit ≤ high
    else low < d * unit && d * unit < high
  let below := value / unit
  let above := below + 1
  match inside below, inside above with
  | false, false => none
  | true, false => some below
  | false, true => some above
  | true, true =>
    let gapBelow := value - below * unit
    let gapAbove := above * unit - value
    if gapBelow < gapAbove || (gapBelow == gapAbove && below % 2 == 0) then some below
    else some above

/-- Tries grids from `10 ^ g` downward, at most `grids` of them. -/
def shortestFrom (b : Binary) : Nat → Int → Decimal
  | 0, g => ⟨0, g⟩
  | grids + 1, g =>
    match b.onGrid? g with
    | some d => ⟨d, g⟩
    | none => shortestFrom b grids (g - 1)

/-- A power of ten that is not below the value: the coarsest grid worth a try. -/
def magnitude (b : Binary) : Int := ((b.mant.log2 : Int) + 1 + b.exp) * 30103 / 100000 + 1

/-- Fewest digits that round to `b`; twenty grids hold every double. -/
def shortest (b : Binary) : Decimal := b.shortestFrom 20 b.magnitude

end Binary
end Flowgraph
