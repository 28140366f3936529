/-
# The shortest decimal of a double

Among the decimals that read back as a given double, the one with the fewest digits, and among
those the nearest. The reals that round to `m · 2 ^ q` form an interval around it, half a step to
either side (a quarter step below, where the step halves); its ends belong to it when `m` is even.
For each number of digits only the two decimals next to the value can lie in that interval, so
they are tried for one digit, two digits, and so on. Two that are equally near are told apart by a
rule of the text that is written.
-/
import RowExpr.Number.Decimal

namespace RowExpr.Number

/-- Which of two equally near decimals is taken. -/
inductive Tie where
  /-- The one further from zero. -/
  | upper
  /-- The one whose last digit is even. -/
  | even
deriving DecidableEq, Repr

/-- The whole number nearest to `lower + rest / den`, where `rest` is less than `den`. -/
def Tie.nearest (tie : Tie) (lower rest den : Nat) : Nat :=
  if 2 * rest < den then lower
  else if den < 2 * rest then lower + 1
  else
    match tie with
    | upper => lower + 1
    | even => lower + lower % 2

/-- The positive fractions that round to one double, all over the same denominator. -/
structure Interval where
  low : Nat
  value : Nat
  high : Nat
  den : Nat
  /-- Whether the two ends round to the double as well. -/
  closed : Bool

/-- The interval of the reals that round to `mantissa · 2 ^ exponent`. -/
def Interval.of (mantissa : Nat) (exponent : Int) : Interval :=
  let below := if mantissa = mantissaSpan ∧ leastExponent < exponent then 1 else 2
  let shift := exponent - 2
  let scale := twoPow shift.toNat
  { low := (4 * mantissa - below) * scale
    value := 4 * mantissa * scale
    high := (4 * mantissa + 2) * scale
    den := twoPow (-shift).toNat
    closed := mantissa % 2 == 0 }

/-- Whether `num / den` lies in the interval. -/
def Interval.contains (i : Interval) (num den : Nat) : Bool :=
  if i.closed then decide (i.low * den ≤ num * i.den) && decide (num * i.den ≤ i.high * den)
  else decide (i.low * den < num * i.den) && decide (num * i.den < i.high * den)

/-- The least `k` with `num / den < 10 ^ k`, searched upwards from `k`. -/
def magnitudeFrom (num den : Nat) : (fuel : Nat) → Int → Int
  | 0, k => k
  | fuel + 1, k =>
    let below :=
      if 0 ≤ k then decide (num < den * tenPow k.toNat)
      else decide (num * tenPow (-k).toNat < den)
    if below then k else magnitudeFrom num den fuel (k + 1)

/-- The least `k` with `num / den < 10 ^ k`. The lengths in bits give a power of two below the
fraction, and the search goes up from the power of ten below that. -/
def magnitude (num den : Nat) : Int :=
  let bits : Int := (num.log2 : Int) - den.log2 - 1
  magnitudeFrom num den 8 (bits * 30103 / 100000)

/-- The decimal of at most `count` digits nearest to the value, if one lies in the interval. -/
def Interval.best? (i : Interval) (tie : Tie) (top : Int) (count : Nat) : Option Decimal :=
  let exponent := top - count
  let (num, den) :=
    if 0 ≤ exponent then (i.value, i.den * tenPow exponent.toNat)
    else (i.value * tenPow (-exponent).toNat, i.den)
  let lower := num / den
  let rest := num % den
  let fits (digits : Nat) : Bool :=
    if 0 ≤ exponent then i.contains (digits * tenPow exponent.toNat) 1
    else i.contains digits (tenPow (-exponent).toNat)
  match fits lower, fits (lower + 1) with
  | true, true => some ⟨tie.nearest lower rest den, exponent⟩
  | true, false => some ⟨lower, exponent⟩
  | false, true => some ⟨lower + 1, exponent⟩
  | false, false => none

/-- The shortest decimal of the positive number `mantissa · 2 ^ exponent`; seventeen digits are
always enough. -/
def shortest (tie : Tie) (mantissa : Nat) (exponent : Int) : Decimal :=
  let i := Interval.of mantissa exponent
  let top := magnitude i.value i.den
  match (List.range 17).findSome? fun n => i.best? tie top (n + 1) with
  | some d => d.normalize
  | none => ⟨mantissa, exponent⟩

end RowExpr.Number
