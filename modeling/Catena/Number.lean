/-!
# Numbers of double precision

A finite number of double precision is a mantissa of at most 53 bits times a
power of two whose exponent is at least -1074. Every decimal numeral denotes a
fraction of natural numbers, and the number it stands for is the nearest one; of
two equally near ones, the one with the even mantissa. All arithmetic here is
exact: no machine float is involved.

A number is written with the fewest decimal digits that read back as the same
number; of several such decimals, the nearest to it.
-/

set_option autoImplicit false

namespace Catena.Number

/-! ## The nearest number -/

/-- The number `mantissa · 2 ^ exponent`, which is not negative. -/
structure Binary where
  mantissa : Nat
  exponent : Int
  deriving DecidableEq, Repr

/-- A number of double precision. -/
inductive Double where
  | finite (negative : Bool) (magnitude : Binary)
  | infinite (negative : Bool)
  | undefined
  deriving DecidableEq, Repr

/-- One more than the greatest mantissa. -/
def mantissaBound : Nat := Nat.pow 2 53

/-- The least exponent. -/
def leastExponent : Int := -1074

/-- The greatest exponent of a number with a full mantissa. -/
def greatestExponent : Int := 971

/-- The natural number nearest to a fraction; a half goes to the even
neighbour. -/
def roundEven (numerator denominator : Nat) : Nat :=
  let quotient := numerator / denominator
  let rest := numerator % denominator
  if 2 * rest < denominator then quotient
  else if denominator < 2 * rest then quotient + 1
  else if quotient % 2 = 0 then quotient
  else quotient + 1

/-- A base to an exponent as a fraction: the power is the first part divided by
the second. -/
def powerFraction (base : Nat) (exponent : Int) : Nat × Nat :=
  if 0 ≤ exponent then (base.pow exponent.toNat, 1) else (1, base.pow exponent.natAbs)

/-- The exponent at which a positive fraction has a mantissa of 53 bits, or the
least exponent if that is greater. -/
def exponentFor (numerator denominator : Nat) : Int :=
  let guess := (numerator.log2 : Int) - (denominator.log2 : Int)
  let (up, down) := powerFraction 2 guess
  let exact := if denominator * up ≤ numerator * down then guess - 52 else guess - 53
  max exact leastExponent

/-- The finite number nearest to a positive fraction; `none` if it is too large
to have one. -/
def nearest? (numerator denominator : Nat) : Option Binary :=
  let exponent := exponentFor numerator denominator
  let (up, down) := powerFraction 2 exponent
  let mantissa := roundEven (numerator * down) (denominator * up)
  let rounded : Binary :=
    if mantissa = mantissaBound then ⟨mantissa / 2, exponent + 1⟩ else ⟨mantissa, exponent⟩
  if rounded.exponent ≤ greatestExponent then some rounded else none

/-- The number of decimal digits beyond which a numeral is certainly out of
range, in either direction. -/
def decimalRange : Int := 400

/-- The number that a decimal numeral stands for: its digits, read as one natural
number, times a power of ten. -/
def ofDecimal (negative : Bool) (digits : Nat) (exponent : Int) : Double :=
  let order := ((Nat.toDigits 10 digits).length : Int) + exponent
  if digits = 0 then .finite negative ⟨0, 0⟩
  else if decimalRange < order then .infinite negative
  else if order < -decimalRange then .finite negative ⟨0, 0⟩
  else
    let (up, down) := powerFraction 10 exponent
    match nearest? (digits * up) down with
    | none => .infinite negative
    | some magnitude => .finite negative magnitude

/-! ## The shortest decimal

The decimals that read back as a number form an interval around it. Its ends lie
halfway to the two neighbouring numbers, and they belong to it when the mantissa
is even. For each number of digits in turn, the two decimals next to the number
are tried; the first that lies in the interval wins.

The layout is fixed by `layout`: positional from one ten-thousandth up to sixteen
digits before the point, with an exponent of at least two digits outside. -/

/-- The number `digits · 10 ^ exponent`. -/
structure Decimal where
  digits : Nat
  exponent : Int
  deriving DecidableEq, Repr

/-! ### The interval of a number -/

/-- The ends of the interval and the number between them, counted in quarters of
the last place of the mantissa. Below a power of two numbers lie twice as dense,
so the lower end is nearer there. -/
def quarters (b : Binary) : Nat × Nat × Nat :=
  let low := if b.mantissa = mantissaBound / 2 && leastExponent < b.exponent then 1 else 2
  (4 * b.mantissa - low, 4 * b.mantissa, 4 * b.mantissa + 2)

/-- Whether `x ≤ y` holds, or `x < y` when the end is left out. -/
def reaches (included : Bool) (x y : Nat) : Bool :=
  if included then x ≤ y else x < y

/-- The decimal with the given last place that reads back as a number, if one
does. Of two, the nearer; of two equally near, the one with even digits. -/
def decimalAt? (b : Binary) (place : Int) : Option Decimal :=
  let (low, middle, high) := quarters b
  let (two, halves) := powerFraction 2 (b.exponent - 2)
  let (ten, tenths) := powerFraction 10 place
  let scale := two * tenths
  let unit := ten * halves
  let below := middle * scale / unit
  let rest := middle * scale % unit
  let included := b.mantissa % 2 = 0
  let belowFits := reaches included (low * scale) (below * unit)
  let aboveFits := reaches included ((below + 1) * unit) (high * scale)
  let preferBelow := 2 * rest < unit || (2 * rest = unit && below % 2 = 0)
  if belowFits && (preferBelow || !aboveFits) then some ⟨below, place⟩
  else if aboveFits then some ⟨below + 1, place⟩
  else none

/-! ### Counting digits -/

/-- The number of digits a positive number has before the point, negative for
zeros after it: the least `n` with the number below `10 ^ n`. -/
def order (b : Binary) : Int :=
  let (two, halves) := powerFraction 2 b.exponent
  let candidates := (List.range 700).map fun n => Int.ofNat n - 350
  (candidates.find? fun n =>
    let (ten, tenths) := powerFraction 10 n
    b.mantissa * two * tenths < ten * halves).getD 350

/-- The shortest decimal of a positive number. Seventeen digits always suffice. -/
def shortest (b : Binary) : Decimal :=
  let places := (List.range 17).map fun n => order b - Int.ofNat n - 1
  (places.findSome? (decimalAt? b)).getD ⟨0, 0⟩

/-! ### Layout -/

/-- The digits of a decimal without zeros at the end, and the position of the
point among them. -/
def spread (d : Decimal) : List Char × Int :=
  let digits := Nat.toDigits 10 d.digits
  let kept := (digits.reverse.dropWhile (· == '0')).reverse
  (kept, (digits.length : Int) + d.exponent)

/-- Digits of an exponent, at least two. -/
def exponentDigits (n : Nat) : List Char :=
  let digits := Nat.toDigits 10 n
  List.replicate (2 - digits.length) '0' ++ digits

/-- Lays digits out around the point that stands after the first `point` of
them. -/
def layout (digits : List Char) (point : Int) : List Char :=
  if -4 < point && point ≤ 16 then
    if point ≤ 0 then '0' :: '.' :: (List.replicate point.natAbs '0' ++ digits)
    else if (digits.length : Int) ≤ point then
      digits ++ List.replicate (point.toNat - digits.length) '0' ++ ['.', '0']
    else digits.take point.toNat ++ '.' :: digits.drop point.toNat
  else
    let mantissa :=
      match digits with
      | first :: rest@(_ :: _) => first :: '.' :: rest
      | single => single
    let exponent := point - 1
    let sign := if exponent < 0 then '-' else '+'
    mantissa ++ 'e' :: sign :: exponentDigits exponent.natAbs

/-- The text of a number that is not negative. -/
def magnitudeText (b : Binary) : String :=
  if b.mantissa = 0 then "0.0"
  else
    let (digits, point) := spread (shortest b)
    String.ofList (layout digits point)

/-- The text of a number. -/
def Double.text : Double → String
  | .finite negative magnitude => (if negative then "-" else "") ++ magnitudeText magnitude
  | .infinite negative => if negative then "-inf" else "inf"
  | .undefined => "nan"

end Catena.Number
