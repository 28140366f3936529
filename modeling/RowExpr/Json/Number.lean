/-
# Reading JSON numbers

The digits of a number are kept as long as they fit into sixty-four bits. What follows them in the
whole part counts for the magnitude only, and what follows them in the fraction not at all. The
kept digits are then scaled by a power of ten, in doubles; a number that leaves their range is
refused.
-/
import RowExpr.Json
import RowExpr.Number.Numeral
import RowExpr.Text.Scanned

namespace RowExpr.Json

/-! ## The value of digits -/

/-- The digits that fit after `significand`, and the others. -/
def fitDigits (significand : Nat) : List Char → Nat × List Char
  | [] => (significand, [])
  | c :: rest =>
    let next := significand * 10 + (Number.digitValue c).getD 0
    if next < 0x10000000000000000 then fitDigits next rest else (significand, c :: rest)

/-- A power of ten as a double. -/
def powerOfTen (n : Nat) : Float := Number.ofRatio false (Number.tenPow n) 1

/-- `x · 10 ^ exponent`, by one multiplication or by divisions, unless it is too large. -/
def scale (x : Float) (exponent : Int) : Option Float :=
  if -308 ≤ exponent ∧ exponent < 0 then some (x / powerOfTen (-exponent).toNat)
  else if 0 ≤ exponent ∧ exponent ≤ 308 then
    let y := x * powerOfTen exponent.toNat
    if y.isInf then none else some y
  else if x == 0 then some x
  else if 0 ≤ exponent then none
  else scale (x / powerOfTen 308) (exponent + 308)
termination_by (-exponent).toNat

/-- The number with the given digits and exponent, unless it is too large. -/
def ofParts (negative : Bool) (whole fraction : List Char) (exponent : Int) : Option Float := do
  let (significand, beyond) := fitDigits 0 whole
  let (significand, dropped) := fitDigits significand fraction
  let places : Int := (fraction.length : Int) - dropped.length
  let x ← scale (Number.ofInt significand) (exponent + beyond.length - places)
  return if negative then -x else x

/-! ## The parts of a number -/

/-- The digits at the front. -/
def readDigits (cs : List Char) : Scanned cs (List Char) :=
  ⟨cs.takeWhile Number.isDigit, cs.dropWhile Number.isDigit, List.dropWhile_suffix _⟩

/-- A minus sign, if there is one. -/
def readMinus : (cs : List Char) → Scanned cs Bool
  | '-' :: _ => (Scanned.stay true).after '-'
  | _ => .stay false

/-- A sign, if there is one; `true` for a minus. -/
def readSign : (cs : List Char) → Scanned cs Bool
  | '-' :: _ => (Scanned.stay true).after '-'
  | '+' :: _ => (Scanned.stay false).after '+'
  | _ => .stay false

/-- The digits after a decimal point, if there is one. -/
def readFraction : (cs : List Char) → Option (Scanned cs (List Char))
  | '.' :: rest =>
    let digits := readDigits rest
    if digits.value.isEmpty then none else some (digits.after '.')
  | _ => some (.stay [])

/-- The exponent, if there is one. -/
def readExponent : (cs : List Char) → Option (Scanned cs Int)
  | [] => some (.stay 0)
  | c :: rest =>
    if c = 'e' ∨ c = 'E' then
      let sign := readSign rest
      let digits := readDigits sign.rest
      let exponent : Int := Number.ofDigits 10 digits.value
      if digits.value.isEmpty then none
      else
        let signed := if sign.value then -exponent else exponent
        some (((digits.map fun _ => signed).within sign.suffix).after c)
    else some (.stay 0)

/-- The number at the front: no plus sign, and no zero in front of other digits. -/
def readNumber (cs : List Char) : Option (Scanned cs Json) := do
  let ⟨negative, r, h⟩ := readMinus cs
  let ⟨whole, r₁, h₁⟩ := readDigits r
  if whole.isEmpty || whole.head? == some '0' && whole.length != 1 then none
  else
    let ⟨fraction, r₂, h₂⟩ ← readFraction r₁
    let exponent ← readExponent r₂
    let x ← ofParts negative whole fraction exponent.value
    return (((exponent.map fun _ => number x).within h₂).within h₁).within h

end RowExpr.Json
