/-!
# Double-precision numbers

A double is its 64 bits: a sign, eleven exponent bits and fifty-two fraction bits. `Double.parts` says
what the bits stand for, `Double.nearest` gives the double nearest to a decimal, a tie going to the even
neighbour. Both are exact arithmetic on natural numbers; powers are written `Nat.pow`, which no import gives
another meaning.
-/

namespace OpenCrud

/-- A double-precision number by its bits. -/
structure Double where
  bits : UInt64
  deriving DecidableEq, Repr

namespace Double

/-- What the bits of a double stand for. -/
inductive Parts where
  /-- The number `mantissa * 2 ^ exponent`, negated if `negative`. -/
  | finite (negative : Bool) (mantissa : Nat) (exponent : Int)
  | infinite (negative : Bool)
  | notANumber
  deriving DecidableEq, Repr

/-- Reads the fields of a double. -/
def parts (d : Double) : Parts :=
  let word := d.bits.toNat
  let negative := word / Nat.pow 2 63 = 1
  let exponent : Nat := word / Nat.pow 2 52 % Nat.pow 2 11
  let fraction := word % Nat.pow 2 52
  if exponent = 2047 then
    if fraction = 0 then .infinite negative else .notANumber
  else if exponent = 0 then .finite negative fraction (-1074)
  else .finite negative (Nat.pow 2 52 + fraction) ((exponent : Int) - 1075)

/-- The double that is no number. -/
def nan : Double := ⟨0x7ff8000000000000⟩

/-- Whether a double is no number. -/
def isNaN (d : Double) : Bool := d.parts = .notANumber

/-- Whether a double is a zero of either sign. -/
def isZero (d : Double) : Bool :=
  match d.parts with
  | .finite _ 0 _ => true
  | _ => false

/-- Whether two doubles stand for the same number; a zero has no sign here, and no double that is not a
number equals anything. -/
def same (a b : Double) : Bool :=
  match a.parts, b.parts with
  | .notANumber, _ | _, .notANumber => false
  | .finite _ 0 _, .finite _ 0 _ => true
  | x, y => x = y

/-- Whether a double stands for exactly this integer. -/
def isInt (d : Double) (n : Int) : Bool :=
  match d.parts with
  | .finite negative mantissa exponent =>
    let value : Int := if negative then -(mantissa : Int) else mantissa
    if 0 ≤ exponent then value * (Nat.pow 2 exponent.toNat : Nat) = n
    else value = n * (Nat.pow 2 (-exponent).toNat : Nat)
  | _ => false

/-! ## The nearest double -/

/-- The quotient of two numbers rounded to the nearest integer, a half to the even one. -/
def roundHalfEven (num den : Nat) : Nat :=
  let q := num / den
  let r := num % den
  if 2 * r < den then q
  else if den < 2 * r then q + 1
  else q + q % 2

/-- The largest `k` with `2 ^ k ≤ num / den`, for positive arguments. -/
def floorLog2 (num den : Nat) : Int :=
  let k : Int := (num.log2 : Int) - den.log2
  let reached := if 0 ≤ k then den * Nat.pow 2 k.toNat ≤ num else den ≤ num * Nat.pow 2 (-k).toNat
  if reached then k else k - 1

/-- The bits, without the sign, of the double nearest to `num / den`, for positive arguments. -/
def nearestBits (num den : Nat) : Nat :=
  let exponent := max (floorLog2 num den - 52) (-1074)
  let mantissa :=
    if 0 ≤ exponent then roundHalfEven num (den * Nat.pow 2 exponent.toNat)
    else roundHalfEven (num * Nat.pow 2 (-exponent).toNat) den
  let bits :=
    if mantissa < Nat.pow 2 52 then mantissa
    else (exponent + 1075).toNat * Nat.pow 2 52 + (mantissa - Nat.pow 2 52)
  min bits (2047 * Nat.pow 2 52)

/-- The bits, without the sign, of the double nearest to `digits * 10 ^ exponent`. Decimals far outside
the range of doubles are decided by their size alone. -/
def decimalBits (digits : Nat) (exponent : Int) : Nat :=
  if digits = 0 then 0
  else if 0 ≤ exponent then
    if 1024 < (digits.log2 : Int) + 3 * exponent then 2047 * Nat.pow 2 52
    else nearestBits (digits * Nat.pow 10 exponent.toNat) 1
  else
    if (digits.log2 : Int) + 1 + 3 * exponent < -1080 then 0
    else nearestBits digits (Nat.pow 10 (-exponent).toNat)

/-- The double nearest to `digits * 10 ^ exponent`, negated if `negative`; infinite when the decimal is
too large. -/
def nearest (negative : Bool) (digits : Nat) (exponent : Int) : Double :=
  ⟨UInt64.ofNat ((if negative then Nat.pow 2 63 else 0) + decimalBits digits exponent)⟩

end Double

end OpenCrud
