/-
# Numbers at the front of a text

Readers that take the number a text starts with and leave what follows it alone. Blanks in front
are skipped. The end of a decimal numeral is found in two passes: a search goes over the bytes as
far as a numeral might, and then the fronts up to there are tried, the longest first. The search
only passes characters of one byte, so no front ends inside a character.
-/
import RowExpr.Number.Numeral
import RowExpr.Text.Blank
import RowExpr.Text.Bytes

namespace RowExpr.Number

/-- What the search for the end of a numeral remembers of the bytes that it has passed. -/
structure FrontScan where
  last : Option Char := none
  seenPoint : Bool := false
  seenExponent : Bool := false
deriving DecidableEq, Repr

namespace FrontScan

/-- The search behind one more byte, if a numeral may go on with it. A sign has to stand in front of
everything or directly behind the letter of the exponent, and a point before that letter. -/
def step? (scan : FrontScan) (c : Char) : Option FrontScan :=
  let next := { scan with last := some c }
  if isDigit c then some next
  else if c = '+' ∨ c = '-' then
    if scan.last = none ∨ scan.last = some 'e' ∨ scan.last = some 'E' then some next else none
  else if c = '.' then
    if scan.seenPoint ∨ scan.seenExponent then none else some { next with seenPoint := true }
  else if c = 'e' ∨ c = 'E' then
    if scan.seenExponent ∨ scan.last = none then none else some { next with seenExponent := true }
  else none

/-- The number of bytes that the search passes. -/
def reach (scan : FrontScan) : List UInt8 → Nat
  | [] => 0
  | b :: bs =>
    match scan.step? (Char.ofNat b.toNat) with
    | some next => next.reach bs + 1
    | none => 0

/-- The search passes nothing but characters of one byte. -/
theorem lt_of_step?_eq_some {scan next : FrontScan} {c : Char} (h : scan.step? c = some next) :
    c.toNat < 128 := by
  unfold step? at h
  split at h
  case isTrue hdigit => exact lt_of_isDigitOf hdigit
  case isFalse =>
    split at h
    case isTrue hsign => rcases hsign with rfl | rfl <;> decide
    case isFalse =>
      split at h
      case isTrue hpoint => subst hpoint; decide
      case isFalse =>
        split at h
        case isTrue hletter => rcases hletter with rfl | rfl <;> decide
        case isFalse => cases h

/-- On a text, the search goes from character to character. -/
theorem reach_bytes_cons (scan : FrontScan) (c : Char) (cs : List Char) :
    scan.reach (Text.bytes (c :: cs)) =
      match scan.step? c with
      | some next => next.reach (Text.bytes cs) + 1
      | none => 0 := by
  by_cases h : c.toNat < 128
  · have hchar : Char.ofNat (UInt8.ofNat c.toNat).toNat = c := by
      rw [UInt8.toNat_ofNat_of_lt' (Nat.lt_trans h (by decide)), Char.ofNat_toNat]
    rw [Text.bytes_cons_of_lt h, reach, hchar]
  · obtain ⟨b, rest, hbytes, hb⟩ := Text.exists_bytes_cons (Nat.le_of_not_lt h) cs
    have hfirst : scan.step? (Char.ofNat b.toNat) = none := by
      cases hstep : scan.step? (Char.ofNat b.toNat) with
      | none => rfl
      | some next =>
        have hlt := lt_of_step?_eq_some hstep
        rw [Char.ofNat, dif_pos (.inl (Nat.lt_trans b.toNat_lt (by decide)))] at hlt
        exact absurd hlt (Nat.not_lt_of_le hb)
    have hwhole : scan.step? c = none := by
      cases hstep : scan.step? c with
      | none => rfl
      | some next => exact absurd (lt_of_step?_eq_some hstep) h
    rw [hbytes, reach, hfirst, hwhole]

/-- Up to where the search comes, a text can be cut everywhere. -/
theorem takeBytes?_of_le_reach {scan : FrontScan} {cs : List Char} {n : Nat}
    (h : n ≤ scan.reach (Text.bytes cs)) : Text.takeBytes? cs n = some (cs.take n) := by
  induction cs generalizing scan n with
  | nil =>
    obtain rfl : n = 0 := Nat.le_zero.mp h
    rfl
  | cons c cs ih =>
    cases n with
    | zero => rfl
    | succ n =>
      rw [reach_bytes_cons] at h
      cases hstep : scan.step? c with
      | none =>
        rw [hstep] at h
        exact absurd h (Nat.not_succ_le_zero n)
      | some next =>
        rw [hstep] at h
        rw [Text.takeBytes?_cons_of_lt (lt_of_step?_eq_some hstep), ih (Nat.le_of_succ_le_succ h)]
        rfl

end FrontScan

/-- The number that the longest front with at most `n` bytes writes, if one of them writes a number,
and none at all if a front would end inside a character. -/
def decimalWithin? (cs : List Char) : Nat → Option (Option Float)
  | 0 => some none
  | n + 1 =>
    match Text.takeBytes? cs (n + 1) with
    | none => none
    | some front =>
      match readDecimal? front with
      | some x => some (some x)
      | none => decimalWithin? cs n

theorem decimalWithin?_succ {scan : FrontScan} {cs : List Char} {n : Nat}
    (h : n + 1 ≤ scan.reach (Text.bytes cs)) :
    decimalWithin? cs (n + 1) =
      match readDecimal? (cs.take (n + 1)) with
      | some x => some (some x)
      | none => decimalWithin? cs n := by
  rw [decimalWithin?, FrontScan.takeBytes?_of_le_reach h]

theorem isSome_decimalWithin? {scan : FrontScan} {cs : List Char} {n : Nat}
    (h : n ≤ scan.reach (Text.bytes cs)) : (decimalWithin? cs n).isSome := by
  induction n with
  | zero => rfl
  | succ n ih =>
    rw [decimalWithin?_succ h]
    split
    · rfl
    · exact ih (Nat.le_of_succ_le h)

/-- The number that a text starts with: a decimal numeral or an infinity. There is none if the text
would have to be cut inside a character. -/
def ofTextFront? (cs : List Char) : Option Float :=
  let cs := Text.trimStart cs
  (decimalWithin? cs (FrontScan.reach {} (Text.bytes cs))).map fun
    | some x => x
    | none =>
      if "Infinity".toList.isPrefixOf cs || "+Infinity".toList.isPrefixOf cs then infinity
      else if "-Infinity".toList.isPrefixOf cs then -infinity
      else nan

theorem isSome_ofTextFront? (cs : List Char) : (ofTextFront? cs).isSome := by
  rw [ofTextFront?, Option.isSome_map]
  exact isSome_decimalWithin? (Nat.le_refl _)

/-- The number that a text starts with. -/
def ofTextFront (cs : List Char) : Float := (ofTextFront? cs).get (isSome_ofTextFront? cs)

/-- The radix that digits are read in, and the digits: a hexadecimal mark is skipped where the
radix is sixteen or left open, and ten is the radix that is meant by none. -/
def splitRadix (radix : Nat) (cs : List Char) : Nat × List Char :=
  match cs with
  | '0' :: x :: rest =>
    if (radix = 16 ∨ radix = 0) ∧ (x = 'x' ∨ x = 'X') then (16, rest)
    else (if radix = 0 then 10 else radix, cs)
  | _ => (if radix = 0 then 10 else radix, cs)

/-- The whole number that a text starts with in a radix from two to thirty-six, where zero leaves
the radix to the text. The digits are summed as doubles, one after the other. -/
def ofTextFrontInRadix (radix : Nat) (cs : List Char) : Float :=
  let (negative, rest) := splitSign (Text.trimStart cs)
  let (radix, rest) := splitRadix radix rest
  let digits := rest.takeWhile (isDigitOf radix)
  if radix < 2 ∨ 36 < radix ∨ digits = [] then nan
  else
    let step (sum : Float) (c : Char) : Float :=
      sum * ofInt radix + ofInt ((digitValue c).getD 0 : Nat)
    let value := digits.foldl step 0
    if negative then -value else value

end RowExpr.Number
