/-!
# Binary floating-point numbers

The numbers of the 64-bit binary format, each kept as its exact value: a
mantissa of at most 53 bits times a power of two.  Reading a decimal rounds to
the nearest such number, with ties to the even mantissa, and all arithmetic is on
natural numbers and integers, so that equality of numbers is decidable.
-/

namespace ContractAtlas

/-- A 64-bit binary floating-point number.  In `finite negative mantissa exponent`
the magnitude is `mantissa * 2 ^ exponent`, where `mantissa < 2 ^ 53`,
`-1074 ≤ exponent ≤ 971`, and `2 ^ 52 ≤ mantissa` unless the exponent is the
least one. -/
inductive Binary64 where
  | finite (negative : Bool) (mantissa : Nat) (exponent : Int)
  | infinite (negative : Bool)
  | nan
  deriving DecidableEq, Repr

namespace Binary64

def leastExponent : Int := -1074

def greatestExponent : Int := 971

/-- Two to the power of an exponent that is not negative, and one otherwise. -/
def twoTo (exponent : Int) : Nat :=
  Nat.pow 2 exponent.toNat

/-- Ten to the power of an exponent that is not negative, and one otherwise. -/
def tenTo (exponent : Int) : Nat :=
  Nat.pow 10 exponent.toNat

/-- The natural number nearest to `numerator / denominator`; of two equally near
ones the even one. -/
def roundQuotient (numerator denominator : Nat) : Nat :=
  let quotient := numerator / denominator
  let twice := 2 * (numerator % denominator)
  if twice < denominator then quotient
  else if twice = denominator then quotient + quotient % 2
  else quotient + 1

/-- The exponent of the greatest power of two that is at most
`numerator / denominator`, for positive arguments. -/
def quotientLog2 (numerator denominator : Nat) : Int :=
  let guess : Int := (numerator.log2 : Int) - denominator.log2
  if numerator * twoTo (-guess) < denominator * twoTo guess then guess - 1 else guess

/-- The number nearest to a positive quotient. -/
def ofQuotient (negative : Bool) (numerator denominator : Nat) : Binary64 :=
  let exponent := max leastExponent (quotientLog2 numerator denominator - 52)
  let mantissa :=
    roundQuotient (numerator * twoTo (-exponent)) (denominator * twoTo exponent)
  let (mantissa, exponent) :=
    if mantissa = twoTo 53 then (twoTo 52, exponent + 1) else (mantissa, exponent)
  if greatestExponent < exponent then .infinite negative
  else .finite negative mantissa exponent

/-- The number nearest to `digits * 10 ^ exponent`.  Magnitudes far outside the
range of the format are decided before any large power is formed. -/
def ofDecimal (negative : Bool) (digits : Nat) (exponent : Int) : Binary64 :=
  if digits = 0 then .finite negative 0 leastExponent
  else if 400 < exponent then .infinite negative
  else if exponent + digits.log2 < -400 then .finite negative 0 leastExponent
  else ofQuotient negative (digits * tenTo exponent) (tenTo (-exponent))

/-- The number nearest to an integer. -/
def ofInt (value : Int) : Binary64 :=
  ofDecimal (value < 0) value.natAbs 0

/-- Whether the number is an integer. -/
def isIntegral : Binary64 → Bool
  | .finite _ mantissa exponent =>
    0 ≤ exponent || mantissa % twoTo (-exponent) == 0
  | _ => false

/-- The integer part of a finite number, cut towards zero. -/
def truncate? : Binary64 → Option Int
  | .finite negative mantissa exponent =>
    let magnitude := mantissa * twoTo exponent / twoTo (-exponent)
    some (if negative then -(magnitude : Int) else magnitude)
  | _ => none

/-- Every number whose truth value could be asked for is false only at zero. -/
def isZero : Binary64 → Bool
  | .finite _ mantissa _ => mantissa == 0
  | _ => false

end Binary64

end ContractAtlas
