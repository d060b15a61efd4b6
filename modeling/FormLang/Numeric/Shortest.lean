/-!
Contract: the shortest decimal that stands for a binary value.

Owns:
- `BinaryValue`, a positive value `mantissa * 2 ^ exponent` with the width of
  the gap below it;
- `BinaryValue.Holds`, the test whether a decimal rounds to that value;
- `BinaryValue.shortest`, the decimal on the coarsest power-of-ten grid that has
  a point passing the test, the nearest such point, an exact tie going upward.

Does not own: how a decimal is laid out as text.
-/

set_option autoImplicit false

namespace FormLang.Numeric

/-- A positive value `mantissa * 2 ^ exponent`. -/
structure BinaryValue where
  mantissa : Nat
  exponent : Int
  /-- The gap to the value below is half as wide as the gap to the value above. -/
  narrowBelow : Bool
deriving DecidableEq, Repr

/-- The decimal `digits * 10 ^ power`. -/
structure Decimal where
  digits : Nat
  power : Int
deriving DecidableEq, Repr

/-- A power-of-ten grid seen from a binary value: one quarter of the value's last
binary place is `quarter / unit` steps of the grid, and both are natural numbers. -/
structure Grid where
  quarter : Nat
  unit : Nat
deriving DecidableEq, Repr

namespace BinaryValue

/-- The grid of the multiples of `10 ^ power`, in quarters of the last place. -/
def grid (value : BinaryValue) (power : Int) : Grid where
  quarter := Nat.pow 2 (value.exponent - 2).toNat * Nat.pow 10 (-power).toNat
  unit := Nat.pow 2 (2 - value.exponent).toNat * Nat.pow 10 power.toNat

/-- Lower end of the reals that round to the value, in quarters of the last place. -/
def lowerQuarters (value : BinaryValue) : Nat :=
  if value.narrowBelow then 4 * value.mantissa - 1 else 4 * value.mantissa - 2

/-- Upper end of the reals that round to the value, in quarters of the last place. -/
def upperQuarters (value : BinaryValue) : Nat :=
  4 * value.mantissa + 2

/-- The decimal `digits * 10 ^ power` rounds to the value: it lies between the two
ends, which themselves round to an even mantissa only. -/
def Holds (value : BinaryValue) (power : Int) (digits : Nat) : Prop :=
  let grid := value.grid power
  let lower := value.lowerQuarters * grid.quarter
  let upper := value.upperQuarters * grid.quarter
  let point := digits * grid.unit
  (lower < point ∧ point < upper) ∨
    (value.mantissa % 2 = 0 ∧ (lower = point ∨ point = upper))

instance (value : BinaryValue) (power : Int) (digits : Nat) :
    Decidable (value.Holds power digits) := by
  unfold Holds
  infer_instance

/-- The point of the grid of `10 ^ power` that stands for the value: of the two
neighbours of the value the one that rounds to it, the nearer of both if both do,
and the upper one if they are equally near. -/
def onGrid (value : BinaryValue) (power : Int) : Option Decimal :=
  let grid := value.grid power
  let target := 4 * value.mantissa * grid.quarter
  let below := target / grid.unit
  let above := below + 1
  if value.Holds power below then
    if value.Holds power above ∧ (below + above) * grid.unit ≤ 2 * target then
      some ⟨above, power⟩
    else
      some ⟨below, power⟩
  else if value.Holds power above then
    some ⟨above, power⟩
  else
    none

/-- The exponent of a power of ten that the value does not exceed, and by no more
than two above the least such exponent: `30103 / 100000` is the decimal logarithm
of two to five places. -/
def firstPower (value : BinaryValue) : Int :=
  (value.mantissa.log2 + 1 + value.exponent) * 30103 / 100000 + 1

/-- The value itself, as a decimal. -/
def exact (value : BinaryValue) : Decimal :=
  if 0 ≤ value.exponent then
    ⟨value.mantissa * Nat.pow 2 value.exponent.toNat, 0⟩
  else
    ⟨value.mantissa * Nat.pow 5 (-value.exponent).toNat, value.exponent⟩

/-- How many grids below `firstPower` are tried. Seventeen digits always stand for a
binary64 value, and the first grid lies at most two powers above its leading digit. -/
def gridCount : Nat := 22

/-- The shortest decimal that stands for the value: the grids are tried from the
coarsest on, and the first one with a point that rounds to the value decides. -/
def shortest (value : BinaryValue) : Decimal :=
  ((List.range gridCount).findSome?
    (fun (refinement : Nat) => value.onGrid (value.firstPower - refinement))).getD value.exact

end BinaryValue

end FormLang.Numeric
