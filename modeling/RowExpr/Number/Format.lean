/-
# The text of a number

The digits of a number are always its shortest decimal; what differs from one text to the next is
their layout. A `Layout` holds the decisions: which of two equally near decimals is the shortest,
which numbers are written with an exponent, how the exponent is signed, and whether a whole number
keeps a fraction digit.
-/
import RowExpr.Number.Shortest

namespace RowExpr.Number

/-- How the digits of a number are laid out. A zero is written without a sign. -/
structure Layout where
  /-- The text of positive infinity. -/
  infinityText : String
  /-- The text of a number that is none. -/
  nanText : String
  /-- Which of two equally near decimals is written. -/
  tie : Tie
  /-- Whether a number `d.ddd · 10 ^ e` is written without an exponent. -/
  plain : Int → Bool
  /-- Whether a whole number is written with a fraction digit. -/
  keepsFraction : Bool
  /-- Whether an exponent above zero is written with a sign. -/
  signsExponent : Bool

/-- The layout of a number inside an expression value: never an exponent, and whole numbers bare. -/
def valueLayout : Layout where
  infinityText := "Infinity"
  nanText := "NaN"
  tie := .upper
  plain := fun _ => true
  keepsFraction := false
  signsExponent := false

/-- The layout of a number inside a message about a token: always marked as a fraction, with an
exponent from `10 ^ 16` on and below `10 ^ (-4)`. -/
def messageLayout : Layout where
  infinityText := "inf"
  nanText := "NaN"
  tie := .upper
  plain := fun e => decide (-4 ≤ e ∧ e < 16)
  keepsFraction := true
  signsExponent := false

/-- The layout of a fraction in a JSON text: an exponent from `10 ^ 16` on and below `10 ^ (-5)`. -/
def jsonLayout : Layout where
  infinityText := "null"
  nanText := "null"
  tie := .even
  plain := fun e => decide (-5 ≤ e ∧ e < 16)
  keepsFraction := true
  signsExponent := true

/-- `count` zeros. -/
def zeros (count : Nat) : String := String.ofList (List.replicate count '0')

/-- The digits without an exponent; `point` is the place of the decimal point among them. -/
def plainText (layout : Layout) (digits : List Char) (point : Int) : String :=
  if point ≤ 0 then "0." ++ zeros (-point).toNat ++ String.ofList digits
  else if digits.length ≤ point.toNat then
    String.ofList digits ++ zeros (point.toNat - digits.length)
      ++ (if layout.keepsFraction then ".0" else "")
  else
    String.ofList (digits.take point.toNat) ++ "." ++ String.ofList (digits.drop point.toNat)

/-- The digits with an exponent. -/
def exponentText (layout : Layout) (digits : List Char) (exponent : Int) : String :=
  let fraction := digits.drop 1
  let mark := if layout.signsExponent && decide (0 ≤ exponent) then "e+" else "e"
  String.ofList (digits.take 1)
    ++ (if fraction.isEmpty then "" else "." ++ String.ofList fraction)
    ++ mark ++ toString exponent

/-- The text of a positive number. -/
def positiveText (layout : Layout) (mantissa : Nat) (exponent : Int) : String :=
  let d := shortest layout.tie mantissa exponent
  let digits := Nat.toDigits 10 d.digits
  let point := digits.length + d.exponent
  if layout.plain (point - 1) then plainText layout digits point
  else exponentText layout digits (point - 1)

/-- The text of a number in a layout. -/
def Layout.text (layout : Layout) (x : Float) : String :=
  match Dyadic.ofFloat? x with
  | none =>
    if x.isNaN then layout.nanText
    else if x < 0 then "-" ++ layout.infinityText
    else layout.infinityText
  | some d =>
    if d.mantissa = 0 then if layout.keepsFraction then "0.0" else "0"
    else (if d.negative then "-" else "") ++ positiveText layout d.mantissa d.exponent

/-- The text of a number as a value. -/
def format (x : Float) : String := valueLayout.text x

end RowExpr.Number
