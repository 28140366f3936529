/-
# Numerals

Reading numbers from text: digits in any radix up to thirty-six, and decimal numerals with a sign,
a fraction and an exponent. A decimal numeral is rounded once, from its exact value.
-/
import RowExpr.Number.Decimal

namespace RowExpr.Number

/-- The value of `c` as a digit, letters of either case counting from ten on. -/
def digitValue (c : Char) : Option Nat :=
  let n := c.toNat
  if '0'.toNat ≤ n ∧ n ≤ '9'.toNat then some (n - '0'.toNat)
  else if 'a'.toNat ≤ n ∧ n ≤ 'z'.toNat then some (n - 'a'.toNat + 10)
  else if 'A'.toNat ≤ n ∧ n ≤ 'Z'.toNat then some (n - 'A'.toNat + 10)
  else none

/-- Whether `c` is a digit of the given radix. -/
def isDigitOf (radix : Nat) (c : Char) : Bool :=
  match digitValue c with
  | some d => decide (d < radix)
  | none => false

/-- Whether `c` is a decimal digit. -/
def isDigit (c : Char) : Bool := isDigitOf 10 c

/-- A digit of any radix is a character of one byte. -/
theorem lt_of_isDigitOf {radix : Nat} {c : Char} (h : isDigitOf radix c) : c.toNat < 128 := by
  have hnine : '9'.toNat = 57 := rfl
  have hlower : 'z'.toNat = 122 := rfl
  have hupper : 'Z'.toNat = 90 := rfl
  unfold isDigitOf digitValue at h
  dsimp only at h
  split at h
  case h_1 hvalue =>
    split at hvalue
    · omega
    · split at hvalue
      · omega
      · split at hvalue
        · omega
        · cases hvalue
  case h_2 => cases h

/-- The whole number that a row of digits writes. -/
def ofDigits (radix : Nat) (cs : List Char) : Nat :=
  cs.foldl (fun n c => n * radix + (digitValue c).getD 0) 0

/-- A row of digits, at least one, as a whole number. -/
def readDigits? (radix : Nat) (cs : List Char) : Option Nat :=
  if !cs.isEmpty && cs.all (isDigitOf radix) then some (ofDigits radix cs) else none

/-- The parts of an unsigned decimal numeral. -/
structure Numeral where
  whole : List Char
  fraction : List Char := []
  negativeExponent : Bool := false
  exponent : List Char := []
deriving DecidableEq, Repr

/-- The exact value of a numeral. -/
def Numeral.decimal (n : Numeral) : Decimal :=
  let exponent : Int := ofDigits 10 n.exponent
  { digits := ofDigits 10 (n.whole ++ n.fraction)
    exponent := (if n.negativeExponent then -exponent else exponent) - n.fraction.length }

/-- The double nearest to a numeral. -/
def Numeral.toFloat (negative : Bool) (n : Numeral) : Float := n.decimal.toFloat negative

/-- A leading sign and what follows it; `true` for a minus. -/
def splitSign : List Char → Bool × List Char
  | '-' :: rest => (true, rest)
  | '+' :: rest => (false, rest)
  | cs => (false, cs)

/-- The fraction digits behind a decimal point, and what follows them. -/
def splitFraction : List Char → List Char × List Char
  | '.' :: rest => (rest.takeWhile isDigit, rest.dropWhile isDigit)
  | cs => ([], cs)

/-- The numeral with the exponent that `cs` writes, which is all of `cs`, if anything. -/
def Numeral.withExponent? (n : Numeral) (cs : List Char) : Option Numeral :=
  match cs with
  | [] => some n
  | e :: rest =>
    if e = 'e' ∨ e = 'E' then
      let (negative, digits) := splitSign rest
      if !digits.isEmpty && digits.all isDigit then
        some { n with negativeExponent := negative, exponent := digits }
      else none
    else none

/-- The unsigned decimal numeral that `cs` writes: digits before or after an optional point, at
least one, and an optional exponent. -/
def Numeral.read? (cs : List Char) : Option Numeral :=
  let whole := cs.takeWhile isDigit
  let (fraction, rest) := splitFraction (cs.dropWhile isDigit)
  if whole.isEmpty && fraction.isEmpty then none
  else Numeral.withExponent? { whole := whole, fraction := fraction } rest

/-- The number that a decimal numeral with an optional sign writes. -/
def readDecimal? (cs : List Char) : Option Float :=
  let (negative, rest) := splitSign cs
  (Numeral.read? rest).map (Numeral.toFloat negative)

/-- A whole number in the given radix with an optional sign. -/
def readInt? (radix : Nat) (cs : List Char) : Option Int :=
  let (negative, digits) := splitSign cs
  (readDigits? radix digits).map fun n => if negative then -(n : Int) else n

end RowExpr.Number
