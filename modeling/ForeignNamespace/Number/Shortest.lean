import ForeignNamespace.Number.Decimal

/-!
The shortest decimal that reads back as a given binary number.

A binary number `significand · 2 ^ exponent` stands for the interval of reals that round to it.
On the grid of a power of ten the two neighbours of the number are tried; the coarsest grid with a
neighbour in the interval wins.  All comparisons are exact, on natural numbers.
-/

namespace ForeignNamespace

/-- A positive binary number.  `narrow` says that the gap to the number below is half the gap to
the number above, as it is at a power of two. -/
structure BinaryMagnitude where
  significand : Nat
  exponent : Int
  narrow : Bool
deriving Repr

namespace BinaryMagnitude

/-- The numerator of a quarter of the gap above the number. -/
def quarterNum (x : BinaryMagnitude) : Nat := Nat.pow 2 (x.exponent - 2).toNat

/-- The denominator of a quarter of the gap above the number. -/
def quarterDen (x : BinaryMagnitude) : Nat := Nat.pow 2 (2 - x.exponent).toNat

/-- Compares a decimal with a number of quarter gaps. -/
def compareQuarters (x : BinaryMagnitude) (d : Decimal) (quarters : Nat) : Ordering :=
  compare (d.digits * Nat.pow 10 d.exponent.toNat * x.quarterDen)
    (quarters * x.quarterNum * Nat.pow 10 (-d.exponent).toNat)

/-- Whether a decimal lies among the reals that round to the number.  Reading rounds to nearest
and ties to even, so the ends belong to the interval exactly when the significand is even. -/
def readsBack (x : BinaryMagnitude) (d : Decimal) : Bool :=
  let low := x.compareQuarters d (4 * x.significand - if x.narrow then 1 else 2)
  let high := x.compareQuarters d (4 * x.significand + 2)
  let even := x.significand % 2 == 0
  (low == .gt || (even && low == .eq)) && (high == .lt || (even && high == .eq))

/-- The least power of ten above the number, as an exponent. -/
def scale (x : BinaryMagnitude) : Int :=
  let num := 4 * x.significand * x.quarterNum
  if x.quarterDen ≤ num then
    Decimal.digitCount (num / x.quarterDen)
  else
    1 - (Decimal.digitCount ((x.quarterDen + num - 1) / num - 1) : Nat)

/-- The greatest multiple of a power of ten that is not above the number, as its count. -/
def floorAt (x : BinaryMagnitude) (exponent : Int) : Nat :=
  (4 * x.significand * x.quarterNum * Nat.pow 10 (-exponent).toNat) /
    (x.quarterDen * Nat.pow 10 exponent.toNat)

/-- The neighbour on the grid of a power of ten that reads back: of two the nearer, and of two
equally near the upper. -/
def candidate? (x : BinaryMagnitude) (exponent : Int) : Option Decimal :=
  let below : Decimal := ⟨x.floorAt exponent, exponent⟩
  let above : Decimal := ⟨x.floorAt exponent + 1, exponent⟩
  match x.readsBack below, x.readsBack above with
  | true, true =>
    let middle : Decimal := ⟨2 * below.digits + 1, exponent⟩
    if x.compareQuarters middle (8 * x.significand) == .gt then some below else some above
  | true, false => some below
  | false, true => some above
  | false, false => none

/-- The number with all its decimal digits. -/
def exact (x : BinaryMagnitude) : Decimal :=
  ⟨x.significand * Nat.pow 2 x.exponent.toNat * Nat.pow 5 (-x.exponent).toNat, min x.exponent 0⟩

/-- The shortest decimal that reads back.  Seventeen digits are the most that are tried. -/
def shortest (x : BinaryMagnitude) : Decimal :=
  ((List.range 17).findSome? fun n => x.candidate? (x.scale - (n + 1 : Nat))).getD x.exact

end ForeignNamespace.BinaryMagnitude
