import StructuredText.Settings.Basic

/-!
# The value of a number

What the digits of a JSON number amount to. A number without a point and exponent is an integer if
it fits 64 bits; any other is a floating point number, computed from its first digits, as many as
fit 64 bits, and one multiplication or division by a power of ten.
-/

namespace StructuredText.Settings

/-- The parts of a number as it is written. -/
structure Numeral where
  negative : Bool
  whole : List Char
  /-- The digits behind the point. -/
  fraction : List Char := []
  /-- The power of ten behind the point or the whole, if one is written. -/
  exponent : Option Int := none

/-- Takes digits into a number for as long as it stays below `2 ^ 64`. With it comes how many digits
were taken, and how many were left. -/
def takeDigits (n taken : Nat) : List Char → Nat × Nat × Nat
  | [] => (n, taken, 0)
  | c :: cs =>
    let n' := 10 * n + (c.toNat - '0'.toNat)
    if n' < 2 ^ 64 then takeDigits n' (taken + 1) cs else (n, taken, cs.length + 1)

/-- A power of ten in double precision. -/
def tenTo (n : Nat) : Float := Float.ofScientific 1 false n

/-- Divides by ten `n` times, at most 308 times at once. -/
def shrink (x : Float) (n : Nat) : Float :=
  if n ≤ 308 then x / tenTo n
  else if x == 0 then x
  else shrink (x / tenTo 308) (n - 308)
termination_by n

/-- The number `significand * 10 ^ exponent` in double precision, if it is not too large. -/
def scale? (significand : Nat) (exponent : Int) : Option Float :=
  let x := Float.ofNat significand
  if exponent < 0 then some (shrink x exponent.natAbs)
  else if 308 < exponent then if significand = 0 then some x else none
  else
    let y := x * tenTo exponent.toNat
    if y.isInf then none else some y

/-- The value of a number; none if it is too large. -/
def Numeral.value? (n : Numeral) : Option Misplaced :=
  let (whole, _, wholeLeft) := takeDigits 0 0 n.whole
  let (significand, places, _) := takeDigits whole 0 n.fraction
  let signed (x : Float) := Misplaced.float (if n.negative then -x else x)
  if wholeLeft = 0 && n.fraction.isEmpty && n.exponent.isNone then
    if !n.negative then some (.integer significand)
    else if significand = 0 || Nat.pow 2 63 < significand then some (signed (Float.ofNat significand))
    else some (.integer (-significand))
  else
    (scale? significand (wholeLeft - places + n.exponent.getD 0)).map signed

end StructuredText.Settings
