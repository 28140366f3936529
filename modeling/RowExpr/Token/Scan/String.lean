/-
# String literals

A string literal runs from a quote to the next quote of the same kind. A backslash begins an
escape: a letter for a control character, a code point in hexadecimal, or any other character for
itself. An escaped line feed stands for nothing.
-/
import RowExpr.Number.Numeral
import RowExpr.Text.Scanned
import RowExpr.Token.Fault

namespace RowExpr.Token

open RowExpr.Number (isDigit isDigitOf ofDigits readDigits?)

/-- The character that a letter stands for after a backslash. -/
def controlEscape? : Char → Option Char
  | 'n' => some '\n'
  | 't' => some '\t'
  | 'r' => some '\r'
  | 'b' => some '\x08'
  | 'f' => some '\x0c'
  | 'v' => some '\x0b'
  | _ => none

/-- Reads `count` hexadecimal digits. -/
def scanHex (count : Nat) (cs : List Char) : Except ScanFault (Scanned cs Nat) :=
  let digits := (cs.take count).takeWhile (isDigitOf 16)
  if digits.length = count then .ok ⟨ofDigits 16 digits, cs.drop count, List.drop_suffix count cs⟩
  else .error ⟨.badHexEscape, cs.length - digits.length⟩

/-- The number written between the braces of a code point escape: hexadecimal digits, possibly
after a plus, that fit in 32 bits. -/
def braceCode? (digits : List Char) : Option Nat :=
  let unsigned := match digits with
    | '+' :: rest => rest
    | _ => digits
  (readDigits? 16 unsigned).filter (· < 0x100000000)

/-- Reads the code point after `\u`: any number of digits in braces, or else four of them. -/
def scanCode (cs : List Char) : Except ScanFault (Scanned cs Nat) :=
  match cs with
  | '\x7b' :: r =>
    let digits := r.takeWhile (· ≠ '\x7d')
    match h : r.dropWhile (· ≠ '\x7d') with
    | [] => .error ⟨.unclosedUnicodeEscape, 0⟩
    | c :: rest =>
      match braceCode? digits with
      | some code =>
        .ok ⟨code, rest, ((List.suffix_cons c rest).trans (h ▸ List.dropWhile_suffix _)).trans
          (List.suffix_cons _ r)⟩
      | none => .error ⟨.badUnicodeEscape (String.ofList digits), rest.length⟩
  | cs => scanHex 4 cs

/-- The character with a code point, if it is one of a character; `left` is where to report. -/
def characterOf (code left : Nat) : Except ScanFault Char :=
  if code < 0xd800 ∨ 0xdfff < code ∧ code < 0x110000 then .ok (Char.ofNat code)
  else .error ⟨.badCodePoint code, left⟩

/-- Reads what follows a backslash: the character it stands for, or none for an escaped line
feed. -/
def scanEscape (cs : List Char) : Except ScanFault (Scanned cs (Option Char)) :=
  match cs with
  | [] => .error ⟨.danglingBackslash, 0⟩
  | c :: r =>
    match controlEscape? c with
    | some value => .ok ⟨some value, r, List.suffix_cons c r⟩
    | none =>
      if c = '0' ∧ ¬r.head?.any isDigit then .ok ⟨some '\x00', r, List.suffix_cons c r⟩
      else if c = 'x' then do
        let s ← scanHex 2 r
        let value ← characterOf s.value s.rest.length
        return (s.map fun _ => some value).after c
      else if c = 'u' then do
        let s ← scanCode r
        let value ← characterOf s.value s.rest.length
        return (s.map fun _ => some value).after c
      else if c = '\n' then .ok ⟨none, r, List.suffix_cons c r⟩
      else if isDigit c then .error ⟨.octalEscape c, r.length⟩
      else .ok ⟨some c, r, List.suffix_cons c r⟩

/-- Reads the rest of a string literal after its opening quote: the text it stands for. -/
def scanString (quote : Char) (cs : List Char) : Except ScanFault (Scanned cs (List Char)) :=
  match cs with
  | [] => .error ⟨.unclosedString, 0⟩
  | c :: r =>
    if c = quote then .ok ⟨[], r, List.suffix_cons c r⟩
    else if c = '\n' then .error ⟨.lineBreakInString, r.length + 1⟩
    else if c = '\\' then do
      let e ← scanEscape r
      let s ← scanString quote e.rest
      return ((s.map (e.value.toList ++ ·)).within e.suffix).after c
    else do
      let s ← scanString quote r
      return (s.map (c :: ·)).after c
termination_by cs.length
decreasing_by
  · have := e.length_le
    simp only [List.length_cons]; omega
  · simp

end RowExpr.Token
