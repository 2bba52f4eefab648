import ContractAtlas.Numeral.Binary64

/-!
# Shortest decimal text

A floating-point number is written with the fewest decimal digits that read
back as the same number; among the decimals with that many digits the nearest
one is taken.  The decimals that read back form an interval around the number,
whose ends belong to it exactly when the mantissa is even.
-/

namespace ContractAtlas.Binary64

/-- The reals that round to one positive number, in units of a quarter of its last
binary place, which is `2 ^ exponent`. -/
structure Neighbourhood where
  least : Nat
  centre : Nat
  greatest : Nat
  closed : Bool
  exponent : Int

/-- The neighbour below a power of two lies only half as far away as the one
above it. -/
def neighbourhood (mantissa : Nat) (exponent : Int) : Neighbourhood :=
  let below := if mantissa = twoTo 52 ∧ leastExponent < exponent then 1 else 2
  ⟨4 * mantissa - below, 4 * mantissa, 4 * mantissa + 2, mantissa % 2 == 0, exponent - 2⟩

/-- The positive decimal `digits * 10 ^ place`. -/
structure Decimal where
  digits : Nat
  place : Int
  deriving DecidableEq, Repr

/-- The nearer of the two multiples of `10 ^ place` around the centre, as far as
they lie in the neighbourhood. -/
def Neighbourhood.decimalAt? (around : Neighbourhood) (place : Int) : Option Decimal :=
  let binary := twoTo around.exponent * tenTo (-place)
  let decimal := twoTo (-around.exponent) * tenTo place
  let floor := around.centre * binary / decimal
  let inside (digits : Nat) : Bool :=
    if around.closed then
      around.least * binary ≤ digits * decimal && digits * decimal ≤ around.greatest * binary
    else
      around.least * binary < digits * decimal && digits * decimal < around.greatest * binary
  let toFloor := around.centre * binary - floor * decimal
  let toNext := (floor + 1) * decimal - around.centre * binary
  let floorFirst := toFloor < toNext || (toFloor == toNext && floor % 2 == 0)
  let order := if floorFirst then [floor, floor + 1] else [floor + 1, floor]
  (order.find? inside).map (⟨·, place⟩)

/-- The exponent of the greatest power of ten that is at most
`mantissa * 2 ^ exponent`.  The guess from the binary logarithm is at most one
too small. -/
def log10 (mantissa : Nat) (exponent : Int) : Int :=
  let guess := Int.fdiv ((mantissa.log2 + exponent) * 30103) 100000
  let next := guess + 1
  if tenTo next * twoTo (-exponent) ≤ mantissa * twoTo exponent * tenTo (-next) then next
  else guess

/-- The shortest decimal that reads back as `mantissa * 2 ^ exponent`.  Seventeen
digits always suffice. -/
def shortest (mantissa : Nat) (exponent : Int) : Decimal :=
  let around := neighbourhood mantissa exponent
  let leading := log10 mantissa exponent
  ((List.range 17).findSome? fun (count : Nat) => around.decimalAt? (leading - count)).getD
    ⟨mantissa, exponent⟩

/-- The digits of a decimal without trailing zeros, and the position of its
decimal point counted from the first digit. -/
def Decimal.significand (decimal : Decimal) : List Char × Int :=
  let digits := Nat.toDigits 10 decimal.digits
  ((digits.reverse.dropWhile (· == '0')).reverse, digits.length + decimal.place)

/-- A number is written with a point if its first digit stands at most sixteen
places before the point or at most four behind it. -/
def isPositional (point : Int) : Bool :=
  -4 < point && point ≤ 16

/-- Write digits with a decimal point, which always has a digit on either side. -/
def positionalText (digits : List Char) (point : Int) : List Char :=
  if point ≤ 0 then
    ['0', '.'] ++ List.replicate (-point).toNat '0' ++ digits
  else
    let whole := digits.take point.toNat
    let fraction := digits.drop point.toNat
    whole ++ List.replicate (point.toNat - whole.length) '0' ++ ['.'] ++
      (if fraction.isEmpty then ['0'] else fraction)

/-- Write digits with one of them before the point and an exponent of at least two
digits. -/
def scientificText (digits : List Char) (point : Int) : List Char :=
  let exponent := point - 1
  let magnitude := Nat.toDigits 10 exponent.natAbs
  let fraction := digits.drop 1
  digits.take 1 ++ (if fraction.isEmpty then [] else '.' :: fraction) ++
    ['e', if exponent < 0 then '-' else '+'] ++
    List.replicate (2 - magnitude.length) '0' ++ magnitude

/-- How the values without digits are spelled. -/
structure Spelling where
  nan : String
  infinity : String

/-- The text of a floating-point number. -/
def text (spelling : Spelling) : Binary64 → List Char
  | .nan => spelling.nan.toList
  | .infinite negative =>
    (if negative then ['-'] else []) ++ spelling.infinity.toList
  | .finite negative mantissa exponent =>
    let sign := if negative then ['-'] else []
    if mantissa = 0 then sign ++ ['0', '.', '0']
    else
      let (digits, point) := (shortest mantissa exponent).significand
      sign ++ (if isPositional point then positionalText digits point
        else scientificText digits point)

end ContractAtlas.Binary64
