/-
# Arithmetic on doubles

The operations beyond the four of floating point: the remainder, rounding to whole numbers, powers,
and the cut to thirty-two bits. All but the power are exact, computed on dyadic fractions.
-/
import RowExpr.Number.Dyadic

namespace RowExpr.Number

/-! ## Whole numbers -/

/-- `x` with its fraction cut off. -/
def truncate (x : Float) : Float :=
  match Dyadic.ofFloat? x with
  | none => x
  | some d => Dyadic.toFloat ⟨d.negative, d.floorAbs, 0⟩

/-- The largest whole number up to `x`. -/
def floor (x : Float) : Float :=
  match Dyadic.ofFloat? x with
  | none => x
  | some d =>
    Dyadic.toFloat ⟨d.negative, d.floorAbs + (if d.negative && !d.isWhole then 1 else 0), 0⟩

/-- The least whole number from `x` on. -/
def ceil (x : Float) : Float :=
  match Dyadic.ofFloat? x with
  | none => x
  | some d =>
    Dyadic.toFloat ⟨d.negative, d.floorAbs + (if d.negative || d.isWhole then 0 else 1), 0⟩

/-- The nearest whole number, a half going up. -/
def round (x : Float) : Float := floor (x + 0.5)

/-- The sign of `x` as a number; zeros keep theirs. -/
def sign (x : Float) : Float :=
  if x.isNaN || x == 0 then x else if x < 0 then -1 else 1

/-! ## Remainder and power -/

/-- The remainder of two dyadic fractions, with the sign of the first. -/
def Dyadic.remainder (a b : Dyadic) : Dyadic :=
  let exponent := min a.exponent b.exponent
  let left := a.mantissa * twoPow (a.exponent - exponent).toNat
  let right := b.mantissa * twoPow (b.exponent - exponent).toNat
  ⟨a.negative, left % right, exponent⟩

/-- The remainder of a division whose quotient is cut to a whole number. -/
def remainder (a b : Float) : Float :=
  match Dyadic.ofFloat? a, Dyadic.ofFloat? b with
  | none, _ => nan
  | some _, none => if b.isNaN then nan else a
  | some x, some y => if y.mantissa = 0 then nan else (x.remainder y).toFloat

/-- A power. No number results from an exponent that is none, nor from an infinite power of one or
minus one. -/
def power (base exponent : Float) : Float :=
  if exponent.isNaN || base.abs == 1 && exponent.isInf then nan else Float.pow base exponent

/-! ## Thirty-two bits -/

/-- The whole part of `x` modulo `2 ^ 32`, as a signed number; zero if `x` is not finite. -/
def toInt32 (x : Float) : Int32 :=
  match Dyadic.ofFloat? x with
  | none => 0
  | some d => Int32.ofInt d.truncate

/-- A signed number of thirty-two bits as a double. -/
def ofInt32 (n : Int32) : Float := ofInt n.toInt

/-- Shift to the left, by the lowest five bits of `count`. -/
def shiftLeft (n count : Int32) : Int32 := n <<< (count &&& 31)

/-- Shift to the right that copies the sign, by the lowest five bits of `count`. -/
def shiftRight (n count : Int32) : Int32 := n >>> (count &&& 31)

/-- Shift to the right that fills with zeros, by the lowest five bits of `count`. -/
def unsignedShiftRight (n count : Int32) : UInt32 := n.toUInt32 >>> (count &&& 31).toUInt32

end RowExpr.Number
