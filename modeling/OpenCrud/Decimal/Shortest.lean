import OpenCrud.Decimal.Double

/-!
# Shortest decimals

A double is written with the fewest digits that read back as the same double, and of those the ones
nearest to it. The search goes through the decimal grids of one to seventeen digits: on each grid only
the two neighbours of the number can read back, if any can.
-/

namespace OpenCrud.Double

/-! ## The decimals that read back -/

/-- The reals that round to a double, scaled to natural numbers: the double is `value`, the reals go from
`low` to `high`, and one stands for `unit`. The ends belong to them if `closed`. -/
structure Rounding where
  value : Nat
  low : Nat
  high : Nat
  unit : Nat
  closed : Bool

/-- The reals that round to `mantissa * 2 ^ exponent`. Below a power of two the doubles lie twice as
dense, and an even mantissa takes the ends. -/
def rounding (mantissa : Nat) (exponent : Int) : Rounding :=
  let below := if mantissa = Nat.pow 2 52 ∧ -1074 < exponent then 1 else 2
  let scale := Nat.pow 2 (exponent - 2).toNat
  { value := 4 * mantissa * scale
    low := (4 * mantissa - below) * scale
    high := (4 * mantissa + 2) * scale
    unit := Nat.pow 2 (2 - exponent).toNat
    closed := mantissa % 2 = 0 }

namespace Rounding

/-- Whether `num / den` rounds to the double. -/
def contains (r : Rounding) (num den : Nat) : Bool :=
  if r.closed then r.low * den ≤ num * r.unit && num * r.unit ≤ r.high * den
  else r.low * den < num * r.unit && num * r.unit < r.high * den

/-- The `p` with `10 ^ (p - 1) ≤ value < 10 ^ p`. -/
def point (r : Rounding) : Int :=
  if r.unit ≤ r.value then (Nat.toDigits 10 (r.value / r.unit)).length
  else 1 - ((Nat.toDigits 10 (r.unit / r.value)).length : Int)

/-- The decimal on the grid of `count` digits that reads back and lies nearest, if one reads back. A tie
goes to the even one. -/
def onGrid? (r : Rounding) (count : Nat) : Option Nat :=
  let stepNum := Nat.pow 10 (r.point - count).toNat
  let stepDen := Nat.pow 10 (count - r.point).toNat
  let below := r.value * stepDen / (r.unit * stepNum)
  let above := below + 1
  let gapBelow := r.value * stepDen - below * stepNum * r.unit
  let gapAbove := above * stepNum * r.unit - r.value * stepDen
  let takeBelow := gapBelow < gapAbove || gapBelow = gapAbove && below % 2 = 0
  match r.contains (below * stepNum) stepDen, r.contains (above * stepNum) stepDen with
  | true, true => some (if takeBelow then below else above)
  | true, false => some below
  | false, true => some above
  | false, false => none

/-- The digits of the shortest decimal and the place of its point, counted from before the first digit.
The upper neighbour may be a power of ten, which has one digit more than its grid. -/
def shortest? (r : Rounding) : Option (List Char × Int) :=
  (List.range' 1 17).findSome? fun count =>
    (r.onGrid? count).map fun decimal =>
      let digits := Nat.toDigits 10 decimal
      ((digits.reverse.dropWhile (· = '0')).reverse, r.point + (digits.length - count))

end Rounding

/-! ## Text -/

/-- The texts of the doubles that no decimal stands for. -/
structure SpecialNames where
  infinity : String
  notANumber : String

/-- A decimal in positional notation when its exponent lies from -4 to 15, else with an exponent of at
least two digits. -/
def renderDigits (digits : List Char) (point : Int) : String :=
  let exponent := point - 1
  if exponent < -4 || 16 ≤ exponent then
    let fraction := match digits.tail with
      | [] => []
      | rest => '.' :: rest
    let size := Nat.toDigits 10 exponent.natAbs
    let sign := if exponent < 0 then '-' else '+'
    String.ofList (digits.take 1 ++ fraction ++
      'e' :: sign :: List.replicate (2 - size.length) '0' ++ size)
  else if point ≤ 0 then
    String.ofList ('0' :: '.' :: List.replicate (-point).toNat '0' ++ digits)
  else
    let whole := digits.take point.toNat
    let padding := List.replicate (point.toNat - digits.length) '0'
    let fraction := match digits.drop point.toNat with
      | [] => ['0']
      | rest => rest
    String.ofList (whole ++ padding ++ '.' :: fraction)

/-- The text of a double: the shortest decimal that reads back. -/
def render (special : SpecialNames) (d : Double) : String :=
  let sign (negative : Bool) := if negative then "-" else ""
  match d.parts with
  | .notANumber => special.notANumber
  | .infinite negative => sign negative ++ special.infinity
  | .finite negative 0 _ => sign negative ++ "0.0"
  | .finite negative mantissa exponent =>
    match (rounding mantissa exponent).shortest? with
    | some (digits, point) => sign negative ++ renderDigits digits point
    | none => sign negative ++ special.notANumber

end OpenCrud.Double
