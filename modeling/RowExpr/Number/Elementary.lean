/-
# Exponentials and logarithms near one

`e ^ x - 1` and `ln (1 + x)` lose their digits when they are computed from the exponential and the
logarithm. Here they are summed as series of whole numbers at a scale so fine that rounding the sum
is rounding the value. Below `2 ^ (-54)` both functions round to their argument.
-/
import RowExpr.Number.Dyadic

namespace RowExpr.Number

/-- The number of bits behind the point in the series. -/
def seriesBits : Nat := 384

/-- One, at the scale of the series. -/
def seriesOne : Int := twoPow seriesBits

/-- A dyadic fraction at the scale of the series, cut off below it. -/
def Dyadic.scaled (d : Dyadic) : Int :=
  let shift := d.exponent + seriesBits
  let magnitude : Int :=
    if 0 ≤ shift then d.mantissa * twoPow shift.toNat else d.mantissa / twoPow (-shift).toNat
  if d.negative then -magnitude else magnitude

/-- The double nearest to a number at the scale of the series. -/
def ofScaled (n : Int) : Float := ofRatio (decide (n < 0)) n.natAbs (twoPow seriesBits)

/-! ## The exponential -/

/-- The sum of `x ^ n / n!` from the term `term`, which is the one for `n`, to `count` terms on. -/
def expSeries (x : Int) : (count n : Nat) → (term : Int) → Int
  | 0, _, _ => 0
  | count + 1, n, term => term + expSeries x count (n + 1) (term * x / seriesOne / (n + 1))

/-- From `e ^ x - 1` to `e ^ (2 ^ count · x) - 1`. -/
def expDouble : (count : Nat) → Int → Int
  | 0, y => y
  | count + 1, y => expDouble count (2 * y + y * y / seriesOne)

/-- `e ^ x - 1` at the scale of the series. The argument is halved until it is small. -/
def scaledExpMinusOne (x : Int) : Int :=
  let small := x / 0x1000000
  expDouble 24 (expSeries small 40 1 small)

/-- `e ^ x - 1` -/
def expMinusOne (x : Float) : Float :=
  if x.isNaN then x
  else if x.abs < Float.ofBits 0x3c90000000000000 then x
  else if 710 < x then infinity
  else if x < -50 then -1
  else
    match Dyadic.ofFloat? x with
    | none => x
    | some d => ofScaled (scaledExpMinusOne d.scaled)

/-! ## The logarithm -/

/-- The sum of `z ^ n / n` over odd `n`, from the power `power`, which is the one for `n`, to
`count` terms on. -/
def oddSeries (square : Int) : (count n : Nat) → (power : Int) → Int
  | 0, _, _ => 0
  | count + 1, n, power =>
    power / n + oddSeries square count (n + 2) (power * square / seriesOne)

/-- `ln (num / den)` at the scale of the series, for a fraction between one and two. -/
def scaledLogOfRatio (num den : Nat) : Int :=
  let z := ((num : Int) - den) * seriesOne / (num + den)
  2 * oddSeries (z * z / seriesOne) 130 1 z

/-- `ln (num / den)` at the scale of the series. -/
def scaledLog (num den : Nat) : Int :=
  let shift : Int := (num.log2 : Int) - den.log2
  let reduced :=
    if 0 ≤ shift then scaledLogOfRatio num (den * twoPow shift.toNat)
    else scaledLogOfRatio (num * twoPow (-shift).toNat) den
  reduced + shift * scaledLogOfRatio 2 1

/-- `ln (1 + x)` -/
def logOnePlus (x : Float) : Float :=
  if x.isNaN then x
  else if x.abs < Float.ofBits 0x3c90000000000000 then x
  else if x < -1 then nan
  else if x == -1 then -infinity
  else
    match Dyadic.ofFloat? x with
    | none => x
    | some d =>
      let den := twoPow (-d.exponent).toNat
      let part := d.mantissa * twoPow d.exponent.toNat
      ofScaled (scaledLog (if d.negative then den - part else den + part) den)

end RowExpr.Number
