/-
# Doubles as dyadic fractions

A finite double is a whole number times a power of two. Everything that needs the exact value of
a number goes through that form: printing, remainders, and the integer part. The way back rounds
a fraction to the nearest double, a half to the even neighbour, so reading a numeral is one
rounding of its exact value.
-/
namespace RowExpr.Number

/-- A power of two. -/
def twoPow (n : Nat) : Nat := Nat.pow 2 n

/-- A power of ten. -/
def tenPow (n : Nat) : Nat := Nat.pow 10 n

/-- A finite number: `mantissa · 2 ^ exponent`, below zero if `negative`. -/
structure Dyadic where
  negative : Bool
  mantissa : Nat
  exponent : Int
deriving DecidableEq, Repr

/-- The exponent of the least positive double. -/
def leastExponent : Int := -1074

/-- The number of values of a mantissa that share one exponent. -/
def mantissaSpan : Nat := 0x10000000000000

/-- The bits of positive infinity, one above those of the largest finite double. -/
def infinityBits : Nat := 0x7ff0000000000000

/-- The bit that stands for the sign. -/
def signBit : Nat := 0x8000000000000000

/-- The exact value of `x`, if it is finite. -/
def Dyadic.ofFloat? (x : Float) : Option Dyadic :=
  let bits := x.toBits.toNat
  let negative := decide (signBit ≤ bits)
  let field := bits % signBit / mantissaSpan
  let fraction := bits % mantissaSpan
  if field = 2047 then none
  else if field = 0 then some ⟨negative, fraction, leastExponent⟩
  else some ⟨negative, mantissaSpan + fraction, (field : Int) - 1 + leastExponent⟩

/-- `num / den` to the nearest whole number, a half to the even one. -/
def divNearest (num den : Nat) : Nat :=
  let quotient := num / den
  let twice := 2 * (num % den)
  if twice < den then quotient
  else if den < twice then quotient + 1
  else quotient + quotient % 2

/-- The exponent of the double that `num / den` rounds to: the one that leaves a mantissa of 53
bits, but never below the least. -/
def exponentOf (num den : Nat) : Int :=
  let guess : Int := (num.log2 : Int) - den.log2 - 53
  let reaches53 : Bool :=
    if 0 ≤ guess then decide (0x20000000000000 * (den * twoPow guess.toNat) ≤ num)
    else decide (0x20000000000000 * den ≤ num * twoPow (-guess).toNat)
  max (if reaches53 then guess + 1 else guess) leastExponent

/-- The bits of the double nearest to `num / den`. The exponent and the mantissa are added rather
than joined, so a mantissa that rounds up to the next power of two carries into the exponent, and
whatever passes the largest double is infinity. -/
def nearestBits (num den : Nat) : Nat :=
  if num = 0 then 0
  else
    let exponent := exponentOf num den
    let mantissa :=
      if 0 ≤ exponent then divNearest num (den * twoPow exponent.toNat)
      else divNearest (num * twoPow (-exponent).toNat) den
    min ((exponent - leastExponent).toNat * mantissaSpan + mantissa) infinityBits

/-- The double nearest to `num / den`, with the given sign. -/
def ofRatio (negative : Bool) (num den : Nat) : Float :=
  Float.ofBits (UInt64.ofNat ((if negative then signBit else 0) + nearestBits num den))

/-- The double nearest to a whole number. -/
def ofInt (n : Int) : Float := ofRatio (decide (n < 0)) n.natAbs 1

/-- The double nearest to a dyadic fraction. -/
def Dyadic.toFloat (d : Dyadic) : Float :=
  if 0 ≤ d.exponent then ofRatio d.negative (d.mantissa * twoPow d.exponent.toNat) 1
  else ofRatio d.negative d.mantissa (twoPow (-d.exponent).toNat)

/-- Positive infinity. -/
def infinity : Float := Float.ofBits (UInt64.ofNat infinityBits)

/-- A number that is none. -/
def nan : Float := Float.ofBits 0x7ff8000000000000

/-- The whole number that the magnitude of `d` reaches, its fraction cut off. -/
def Dyadic.floorAbs (d : Dyadic) : Nat :=
  if 0 ≤ d.exponent then d.mantissa * twoPow d.exponent.toNat
  else d.mantissa / twoPow (-d.exponent).toNat

/-- `d` with its fraction cut off. -/
def Dyadic.truncate (d : Dyadic) : Int :=
  if d.negative then -(d.floorAbs : Int) else d.floorAbs

/-- Whether `d` is a whole number. -/
def Dyadic.isWhole (d : Dyadic) : Bool :=
  decide (0 ≤ d.exponent) || d.mantissa % twoPow (-d.exponent).toNat == 0

/-- The whole number that `x` is, if it is one. -/
def wholeOf? (x : Float) : Option Int := do
  let d ← Dyadic.ofFloat? x
  if d.isWhole then some d.truncate else none

end RowExpr.Number
