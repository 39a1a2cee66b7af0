/-!
# Shortest decimals

A binary number of limited precision stands for all reals that round to it. The decimal that is
written for it is the one with the fewest digits among these, and of several the one closest to the
number.

* `Decimal.shortest` — that decimal, for a number `m * 2 ^ q`.
* `Decimal.ofFloat` — the same for a finite number of double precision.
* `Decimal.render` — a decimal in digits.
-/

namespace StructuredText

/-- The number `significand * 10 ^ exponent`. -/
structure Decimal where
  significand : Nat
  exponent : Int
  deriving DecidableEq, Repr

namespace Decimal

/-- The multiple of `10 ^ k` closest to `m * 2 ^ q` among those that round to it, divided by
`10 ^ k`; none if there is none. Of two at the same distance the even one is taken. The reals that
round to `m * 2 ^ q` reach half a step of `2 ^ q` up and down, or a quarter of a step down where the
steps below are half as wide (`narrowBelow`), and both ends belong to them if `m` is even. -/
def onGrid? (m : Nat) (q : Int) (narrowBelow : Bool) (k : Int) : Option Nat :=
  -- a quarter of a step, and `10 ^ k`, in a unit that makes both whole
  let quarter := Nat.pow 2 (q - 2).toNat * Nat.pow 10 (-k).toNat
  let grid := Nat.pow 10 k.toNat * Nat.pow 2 (2 - q).toNat
  let value := 4 * m * quarter
  let low := value - (if narrowBelow then quarter else 2 * quarter)
  let high := value + 2 * quarter
  let rounds x := if m % 2 = 0 then low ≤ x && x ≤ high else low < x && x < high
  let below := value / grid
  let above := below + 1
  match rounds (below * grid), rounds (above * grid) with
  | true, true =>
    let down := value - below * grid
    let up := above * grid - value
    if down < up || (down = up && below % 2 = 0) then some below else some above
  | true, false => some below
  | false, true => some above
  | false, false => none

/-- The first hit on the grids of `10 ^ k`, `10 ^ (k - 1)` and so on, `fuel` grids in all. -/
def firstGrid (m : Nat) (q : Int) (narrowBelow : Bool) : (fuel : Nat) → (k : Int) → Decimal
  | 0, _ => ⟨0, 0⟩
  | fuel + 1, k =>
    match onGrid? m q narrowBelow k with
    | some d => ⟨d, k⟩
    | none => firstGrid m q narrowBelow fuel (k - 1)

/-- The shortest decimal for the double precision number `m * 2 ^ q`, which is not zero. -/
def shortest (m : Nat) (q : Int) (narrowBelow : Bool) : Decimal := firstGrid m q narrowBelow 640 310

/-- The shortest decimal for the magnitude of a finite number. -/
def ofFloat (x : Float) : Decimal :=
  let bits := x.toBits.toNat
  let fraction : Nat := bits % Nat.pow 2 52
  let exponent : Nat := bits / Nat.pow 2 52 % Nat.pow 2 11
  if exponent = 0 then
    if fraction = 0 then ⟨0, 0⟩ else shortest fraction (-1074) false
  else
    shortest (Nat.pow 2 52 + fraction) ((exponent : Int) - 1075) (fraction = 0 && 1 < exponent)

/-- A decimal in digits: with a point and at least one digit on each side of it if its first digit
stands at most 16 places before the point or 5 behind it, else with a signed exponent. -/
def render (d : Decimal) : String :=
  let digits := Nat.toDigits 10 d.significand
  -- how many digits stand before the point
  let whole : Int := digits.length + d.exponent
  let zeros (n : Int) : List Char := List.replicate n.toNat '0'
  if 0 ≤ d.exponent && whole ≤ 16 then
    String.ofList (digits ++ zeros d.exponent) ++ ".0"
  else if 0 < whole && whole ≤ 16 then
    String.ofList (digits.take whole.toNat) ++ "." ++ String.ofList (digits.drop whole.toNat)
  else if -5 < whole && whole ≤ 0 then
    "0." ++ String.ofList (zeros (-whole) ++ digits)
  else
    let power := Nat.toDigits 10 (whole - 1).natAbs
    let mantissa :=
      match digits with
      | [digit] => String.ofList [digit]
      | _ => String.ofList (digits.take 1) ++ "." ++ String.ofList (digits.drop 1)
    mantissa ++ (if 1 ≤ whole then "e+" else "e-") ++ String.ofList power

end Decimal

/-- A finite number in its shortest digits, with its sign. -/
def signedDecimal (x : Float) : String :=
  (if x.toBits.toNat < Nat.pow 2 63 then "" else "-") ++ (Decimal.ofFloat x).render

end StructuredText
