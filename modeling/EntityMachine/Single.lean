import EntityMachine.Text

/-! Single-precision numbers as their 32-bit patterns. A pattern is kept as it is when it is copied,
the payload of a NaN included. Arithmetic is exact on integers and rounds once: every finite single
is a whole number of units of 2^-149, the least positive single, so sums, products and quotients are
integers or fractions in that unit, and `nearest` is the only place that rounds. -/
namespace EntityMachine

structure Single where
  bits : UInt32
  deriving DecidableEq, Inhabited, Repr

/-- The nearest whole number to a quotient; a half goes to the even neighbour. -/
def roundHalfEven (numerator denominator : Nat) : Nat :=
  let quotient := numerator / denominator
  let rest := 2 * (numerator % denominator)
  if rest < denominator then quotient
  else if denominator < rest then quotient + 1
  else quotient + quotient % 2

namespace Single

def exponentField (x : Single) : Nat := x.bits.toNat / 0x800000 % 0x100

def fractionField (x : Single) : Nat := x.bits.toNat % 0x800000

def pattern (x : Single) : Nat := x.bits.toNat % 0x80000000

def infinitePattern : Nat := 0x7f800000

def isNegative (x : Single) : Bool := decide (0x80000000 ≤ x.bits.toNat)

def isNaN (x : Single) : Bool := decide (infinitePattern < x.pattern)

def isInfinite (x : Single) : Bool := x.pattern == infinitePattern

def isFinite (x : Single) : Bool := decide (x.pattern < infinitePattern)

def ofPattern (negative : Bool) (pattern : Nat) : Single :=
  ⟨UInt32.ofNat (pattern + if negative then 0x80000000 else 0)⟩

def zero : Single := ⟨0⟩

def one : Single := ⟨0x3f800000⟩

def half : Single := ⟨0x3f000000⟩

def minusOne : Single := ⟨0xbf800000⟩

def notANumber : Single := ⟨0x7fc00000⟩

def infinity (negative : Bool) : Single := ofPattern negative infinitePattern

/-- Units of 2^-149 in one. -/
def unitsPerOne : Nat := Nat.pow 2 149

def magnitude (x : Single) : Nat :=
  if x.exponentField = 0 then x.fractionField
  else (0x800000 + x.fractionField) * Nat.pow 2 (x.exponentField - 1)

def units (x : Single) : Int := if x.isNegative then -x.magnitude else x.magnitude

/-- The single nearest to a fraction of units; past the largest finite single it is infinite.
The patterns of one sign count singles in ascending order, so the binade and the rounded
significand add up to the pattern, also where rounding carries into the next binade. -/
def nearest (negative : Bool) (numerator denominator : Nat) : Single :=
  let shift := (numerator / denominator).log2 - 23
  let significand := roundHalfEven numerator (denominator * Nat.pow 2 shift)
  ofPattern negative (min (shift * 0x800000 + significand) infinitePattern)

def ofUnits (value : Int) : Single := nearest (decide (value < 0)) value.natAbs 1

def ofInt (value : Int) : Single := ofUnits (value * unitsPerOne)

/-! ## Arithmetic -/

def neg (x : Single) : Single := ofPattern (!x.isNegative) x.pattern

def abs (x : Single) : Single := ofPattern false x.pattern

/-- An exact zero sum is positive unless both terms are negative. -/
def add (x y : Single) : Single :=
  if x.isNaN || y.isNaN then notANumber
  else if x.isInfinite then
    if y.isInfinite && x.isNegative != y.isNegative then notANumber else x
  else if y.isInfinite then y
  else
    let sum := x.units + y.units
    if sum = 0 then ofPattern (x.isNegative && y.isNegative) 0 else ofUnits sum

def sub (x y : Single) : Single :=
  if x.isNaN || y.isNaN then notANumber else add x y.neg

def mul (x y : Single) : Single :=
  let negative := x.isNegative != y.isNegative
  if x.isNaN || y.isNaN then notANumber
  else if x.isInfinite then
    if y.pattern = 0 then notANumber else infinity negative
  else if y.isInfinite then
    if x.pattern = 0 then notANumber else infinity negative
  else nearest negative (x.magnitude * y.magnitude) unitsPerOne

def div (x y : Single) : Single :=
  let negative := x.isNegative != y.isNegative
  if x.isNaN || y.isNaN then notANumber
  else if x.isInfinite then
    if y.isInfinite then notANumber else infinity negative
  else if y.isInfinite then ofPattern negative 0
  else if y.pattern = 0 then
    if x.pattern = 0 then notANumber else infinity negative
  else nearest negative (x.magnitude * unitsPerOne) y.magnitude

instance : Add Single := ⟨add⟩
instance : Sub Single := ⟨sub⟩
instance : Mul Single := ⟨mul⟩

/-! ## Order -/

def rank (x : Single) : Int := if x.isNegative then -x.pattern else x.pattern

def lt (x y : Single) : Bool := !x.isNaN && !y.isNaN && decide (x.rank < y.rank)

def le (x y : Single) : Bool := !x.isNaN && !y.isNaN && decide (x.rank ≤ y.rank)

def eq (x y : Single) : Bool := !x.isNaN && !y.isNaN && decide (x.rank = y.rank)

/-- Place in the total order of all patterns: negative NaN, numbers with -0 before +0, NaN. -/
def totalRank (x : Single) : Int := if x.isNegative then -x.pattern - 1 else x.pattern

/-- The greater of two, the second of equals; the other one where one is a NaN. -/
def max (x y : Single) : Single :=
  if x.isNaN then y else if y.isNaN then x else if lt y x then x else y

/-! ## Whole numbers -/

/-- The whole part, kept within the signed 32-bit range; a NaN counts as zero. -/
def truncate (x : Single) : Int :=
  if x.isNaN then 0
  else Max.max (-0x80000000) (min 0x7fffffff (x.units.tdiv unitsPerOne))

/-- A whole number of the given sign, so that a zero keeps the sign of what was rounded. -/
def ofWhole (negative : Bool) (value : Int) : Single :=
  if value = 0 then ofPattern negative 0 else ofInt value

def floor (x : Single) : Single :=
  if x.isFinite then ofWhole x.isNegative (x.units.fdiv unitsPerOne) else x

def ceil (x : Single) : Single :=
  if x.isFinite then ofWhole x.isNegative (-((-x.units).fdiv unitsPerOne)) else x

def round (x : Single) : Single :=
  ofInt (truncate (if lt zero x then x + half else x - half))

/-! ## Double precision -/

/-- The single nearest to a double given by its 64-bit pattern. A NaN keeps its sign and the front of
its payload, and is quiet. -/
def ofDoubleBits (bits : UInt64) : Single :=
  let negative := decide (0x8000000000000000 ≤ bits.toNat)
  let exponent := bits.toNat / 0x10000000000000 % 0x800
  let fraction := bits.toNat % 0x10000000000000
  if exponent = 0x7ff then
    if fraction = 0 then infinity negative
    else ofPattern negative (notANumber.pattern + fraction / 0x20000000 % 0x400000)
  else
    let magnitude := if exponent = 0 then fraction
      else (0x10000000000000 + fraction) * Nat.pow 2 (exponent - 1)
    nearest negative magnitude (Nat.pow 2 925)

def toDouble (x : Single) : Float := (Float32.ofBits x.bits).toFloat

def ofDouble (x : Float) : Single := ofDoubleBits x.toBits

end Single

/-! ## Decimal text

`text` writes the fewest digits that read back to the same single, and
of those the nearest, always in positional notation. `oneDecimal` writes the exact value rounded to
tenths in a column of five. -/

structure Decimal where
  digits : Nat
  exponent : Int
  deriving DecidableEq, Repr

namespace Decimal

def positional (d : Decimal) : String :=
  let digits := toString d.digits
  let places := (-d.exponent).toNat
  if places = 0 then digits ++ Text.repeated d.exponent.toNat '0'
  else
    let padded := (Text.zeroPadded (places + 1) digits).toList
    let whole := padded.length - places
    String.ofList (padded.take whole) ++ "." ++ String.ofList (padded.drop whole)

end Decimal

namespace Single

def gap (x : Single) : Nat := Nat.pow 2 (x.exponentField - 1)

/-- Lower end of the reals that round to a positive finite single, in quarters of a unit. Below a
power of two the neighbour is half as far away as above it. -/
def lowEnd (x : Single) : Nat :=
  let narrow := x.fractionField = 0 ∧ 1 < x.exponentField
  4 * x.magnitude - if narrow then x.gap else 2 * x.gap

def highEnd (x : Single) : Nat := 4 * x.magnitude + 2 * x.gap

/-- A decimal, in the scale of `scaledQuarters` for the same exponent. -/
def scaledDecimal (d : Decimal) : Nat := d.digits * Nat.pow 10 d.exponent.toNat * (4 * unitsPerOne)

def scaledQuarters (quarters : Nat) (exponent : Int) : Nat := quarters * Nat.pow 10 (-exponent).toNat

/-- The decimal is among the reals that round to the single; the ends of that interval belong to
it exactly when the significand is even. -/
def readsBack (x : Single) (d : Decimal) : Bool :=
  let low := scaledQuarters x.lowEnd d.exponent
  let high := scaledQuarters x.highEnd d.exponent
  let value := scaledDecimal d
  if x.fractionField % 2 = 0 then decide (low ≤ value ∧ value ≤ high)
  else decide (low < value ∧ value < high)

/-- The better of the two grid points around the value that read back: the nearer, or the upper
one where they are equally near. -/
def onGrid? (x : Single) (exponent : Int) : Option Decimal :=
  let value := scaledQuarters (4 * x.magnitude) exponent
  let below : Decimal := ⟨value / scaledDecimal ⟨1, exponent⟩, exponent⟩
  let above : Decimal := ⟨below.digits + 1, exponent⟩
  if x.readsBack above && (!x.readsBack below ||
      decide (scaledDecimal below + scaledDecimal above ≤ 2 * value)) then some above
  else if x.readsBack below then some below
  else none

def searchGrids (x : Single) : Nat → Int → Decimal
  | 0, _ => ⟨x.magnitude * Nat.pow 5 149, -149⟩
  | grids + 1, exponent =>
    match x.onGrid? exponent with
    | some d => d
    | none => searchGrids x grids (exponent - 1)

/-- The fewest digits that read back to the magnitude. The first grid lies above the magnitude,
and nine digits always suffice. -/
def shortest (x : Single) : Decimal :=
  x.searchGrids 14 ((((x.magnitude.log2 : Int) - 149) * 30103).fdiv 100000 + 2)

def signed (x : Single) (text : String) : String := if x.isNegative then "-" ++ text else text

def text (x : Single) : String :=
  if x.isNaN then "NaN"
  else if x.isInfinite then x.signed "inf"
  else if x.pattern = 0 then x.signed "0"
  else x.signed x.shortest.positional

def oneDecimal (x : Single) : String :=
  let text :=
    if x.isNaN then "NaN"
    else if x.isInfinite then x.signed "inf"
    else x.signed (Decimal.positional ⟨roundHalfEven (x.magnitude * 10) unitsPerOne, -1⟩)
  Text.alignRight 5 text

end Single

end EntityMachine
