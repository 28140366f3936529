/-
# Number literals

A number literal is a decimal numeral or a whole number in hexadecimal, octal or binary. Nothing
that could begin a name or continue a number may follow it directly.
-/
import RowExpr.Number.Numeral
import RowExpr.Text.Alphabetic
import RowExpr.Text.Numeric
import RowExpr.Text.Scanned
import RowExpr.Token.Fault

namespace RowExpr.Token

open RowExpr.Number (isDigit isDigitOf ofDigits readDigits? splitFraction splitSign Numeral)

/-- Whether `c` may begin a name. -/
def isNameStart (c : Char) : Bool := Text.isAlphabetic c || c == '_' || c == '$'

/-- Whether `c` may continue a name. -/
def isNamePart (c : Char) : Bool :=
  Text.isAlphabetic c || Text.isNumeric c || c == '_' || c == '$'

/-- The radix that a letter after a leading zero announces. -/
def radixOf? : Char → Option Nat
  | 'x' | 'X' => some 16
  | 'o' | 'O' => some 8
  | 'b' | 'B' => some 2
  | _ => none

theorem splitSign_suffix (cs : List Char) : (splitSign cs).2 <:+ cs := by
  unfold splitSign
  split
  · exact List.suffix_cons _ _
  · exact List.suffix_cons _ _
  · exact List.suffix_refl _

theorem splitFraction_suffix (cs : List Char) : (splitFraction cs).2 <:+ cs := by
  unfold splitFraction
  split
  · exact (List.dropWhile_suffix _).trans (List.suffix_cons _ _)
  · exact List.suffix_refl _

/-- Reads the exponent of a numeral, if one follows: its sign, `true` for a minus, and digits. -/
def scanExponent (cs : List Char) : Except ScanFault (Scanned cs (Bool × List Char)) :=
  match cs with
  | [] => .ok (.stay (false, []))
  | e :: r =>
    if e = 'e' ∨ e = 'E' then
      let digits := (splitSign r).2
      if digits.head?.any isDigit then
        .ok ⟨((splitSign r).1, digits.takeWhile isDigit), digits.dropWhile isDigit,
          ((List.dropWhile_suffix _).trans (splitSign_suffix r)).trans (List.suffix_cons e r)⟩
      else .error ⟨.missingExponent, r.length + 1⟩
    else .ok (.stay (false, []))

/-- Reads the exponent of a numeral and puts its parts together: the value. -/
def scanNumeral (whole fraction : List Char) (cs : List Char) :
    Except ScanFault (Scanned cs Float) := do
  let s ← scanExponent cs
  return s.map fun (negativeExponent, exponent) =>
    Numeral.toFloat false ⟨whole, fraction, negativeExponent, exponent⟩

/-- Reads the rest of a decimal numeral that starts with `c`. -/
def scanDecimal (c : Char) (r : List Char) : Except ScanFault (Scanned r Float) :=
  let digits := r.takeWhile isDigit
  let rest := r.dropWhile isDigit
  if c = '.' then do
    let s ← scanNumeral [] digits rest
    return s.within (List.dropWhile_suffix _)
  else do
    let s ← scanNumeral (c :: digits) (splitFraction rest).1 (splitFraction rest).2
    return s.within ((splitFraction_suffix rest).trans (List.dropWhile_suffix _))

/-- Reads the digits of a whole number in the given radix, which must fit in 64 bits; `start` is
what was read of the literal before them. -/
def scanRadix (start : List Char) (radix : Nat) (cs : List Char) :
    Except ScanFault (Scanned cs Float) :=
  let digits := cs.takeWhile (isDigitOf radix)
  let rest := cs.dropWhile (isDigitOf radix)
  match (readDigits? radix digits).filter (· < 0x10000000000000000) with
  | some n => .ok ⟨Number.ofInt n, rest, List.dropWhile_suffix _⟩
  | none => .error ⟨.badNumber (String.ofList (start ++ digits)), rest.length⟩

/-- Reads the rest of a number literal that starts with `c`: its value. -/
def scanValue (c : Char) (r : List Char) : Except ScanFault (Scanned r Float) :=
  match r with
  | [] => scanDecimal c []
  | x :: r' =>
    match radixOf? x with
    | some radix =>
      if c = '0' then do
        let s ← scanRadix [c, x] radix r'
        return s.after x
      else scanDecimal c (x :: r')
    | none => scanDecimal c (x :: r')

/-- Reads the rest of a number literal that starts with `c`. -/
def scanNumber (c : Char) (r : List Char) : Except ScanFault (Scanned r Token) := do
  let s ← scanValue c r
  if s.rest.head?.any fun c => isNameStart c || isDigit c then
    throw ⟨.nameAfterNumber, s.rest.length⟩
  return s.map fun value => .number value (String.ofList (c :: s.lexeme))

end RowExpr.Token
