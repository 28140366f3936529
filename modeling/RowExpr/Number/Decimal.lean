/-
# Decimal fractions

A numeral and the digits of a printed number are both a whole number times a power of ten.
-/
import RowExpr.Number.Dyadic

namespace RowExpr.Number

/-- The number `digits · 10 ^ exponent`. -/
structure Decimal where
  digits : Nat
  exponent : Int
deriving DecidableEq, Repr

/-- The double nearest to a decimal. Exponents far outside the range of doubles are settled
without raising ten to them: beyond `10 ^ 400` every number but zero is infinite, and below
`10 ^ (-400)` it is zero. -/
def Decimal.toFloat (negative : Bool) (d : Decimal) : Float :=
  if d.digits = 0 then ofRatio negative 0 1
  else if 400 < d.exponent then if negative then -infinity else infinity
  else if d.exponent + d.digits.log2 + 1 < -400 then ofRatio negative 0 1
  else if 0 ≤ d.exponent then ofRatio negative (d.digits * tenPow d.exponent.toNat) 1
  else ofRatio negative d.digits (tenPow (-d.exponent).toNat)

/-- `n` without its trailing zeros, and how many there were, looking at `fuel` digits at most. -/
def stripZeros : (fuel : Nat) → Nat → Nat × Nat
  | 0, n => (n, 0)
  | fuel + 1, n =>
    if n % 10 = 0 then
      let (m, zeros) := stripZeros fuel (n / 10)
      (m, zeros + 1)
    else (n, 0)

/-- The same number with the fewest digits. A whole number has at most as many trailing zeros as
it has bits. -/
def Decimal.normalize (d : Decimal) : Decimal :=
  if d.digits = 0 then ⟨0, 0⟩
  else
    let (digits, zeros) := stripZeros d.digits.log2 d.digits
    ⟨digits, d.exponent + zeros⟩

end RowExpr.Number
