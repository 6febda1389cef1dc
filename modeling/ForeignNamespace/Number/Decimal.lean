/-!
Decimal numerals: reading unsigned numbers, and writing a scaled number with all its places.
-/

namespace ForeignNamespace

/-- The number `digits · 10 ^ exponent`. -/
structure Decimal where
  digits : Nat
  exponent : Int
deriving DecidableEq, Repr

namespace Decimal

/-- The number of decimal digits of a natural number; zero has one. -/
def digitCount (n : Nat) : Nat :=
  (Nat.toDigits 10 n).length

/-- The positional text of a number: an integer has no point, a fraction has no zero at its end,
and a number below one has a zero before the point. -/
def positional (d : Decimal) : String :=
  let all := Nat.toDigits 10 d.digits
  let kept := (all.reverse.dropWhile (· == '0')).reverse
  let exponent := d.exponent + (all.length - kept.length : Nat)
  if kept.isEmpty then "0"
  else if 0 ≤ exponent then
    String.ofList (kept ++ List.replicate exponent.toNat '0')
  else
    let places := (-exponent).toNat
    if places < kept.length then
      let whole := kept.length - places
      String.ofList (kept.take whole ++ '.' :: kept.drop whole)
    else
      String.ofList ('0' :: '.' :: (List.replicate (places - kept.length) '0' ++ kept))

def digit? (c : Char) : Option Nat :=
  if '0' ≤ c ∧ c ≤ '9' then some (c.toNat - '0'.toNat) else none

/-- The number that a non-empty row of digits writes. -/
def readDigits? (text : List Char) : Option Nat :=
  if text.isEmpty then none
  else text.foldlM (fun value c => (digit? c).map (10 * value + ·)) 0

/-- An unsigned number of thirty-two bits: one plus sign may stand before the digits, and a number
that does not fit is refused. -/
def readWord32? (text : String) : Option UInt32 :=
  let digits := match text.toList with
    | '+' :: rest => rest
    | all => all
  match readDigits? digits with
  | some n => if n < UInt32.size then some (UInt32.ofNat n) else none
  | none => none

end ForeignNamespace.Decimal
