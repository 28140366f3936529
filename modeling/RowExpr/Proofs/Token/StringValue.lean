/-
# The value of a string literal

Generated code repeats a string literal as it was written, and the host reads it by the rules of
ECMAScript, while a check decides on the text that the scanner made of it. This file writes down
the rules of ECMAScript for string literals and their values, rows of sixteen-bit units, and
compares the two readings: they differ in escaped line breaks only, of which the scanner drops the
line feed and keeps the others (`scans_string_units`).
-/
import RowExpr.Proofs.Token.Literal
import RowExpr.Text.Units
import Mathlib

namespace RowExpr.Ecma

open RowExpr.Number (isDigit isDigitOf ofDigits)

/-! ## String literals of ECMAScript -/

/-- The characters that end a line. -/
def isTerminator (c : Char) : Bool :=
  c == '\n' || c == '\r' || c == '\u2028' || c == '\u2029'

/-- The character that a single character stands for after a backslash. -/
def singleEscape? : Char → Option Char
  | '\'' => some '\''
  | '"' => some '"'
  | '\\' => some '\\'
  | 'b' => some '\x08'
  | 'f' => some '\x0c'
  | 'n' => some '\n'
  | 'r' => some '\r'
  | 't' => some '\t'
  | 'v' => some '\x0b'
  | _ => none

/-- The units of a code point. -/
def unitsOfCode (code : Nat) : List Nat :=
  if code < 0x10000 then [code]
  else [0xd800 + (code - 0x10000) / 0x400, 0xdc00 + (code - 0x10000) % 0x400]

/-- The octal escapes of older programs: as many octal digits as make a number below 256. -/
inductive LegacyOctal (next : Option Char) : List Char → Prop
  | zero (hnext : next = some '8' ∨ next = some '9') : LegacyOctal next ['0']
  | one {d : Char} (hd : isDigitOf 8 d) (hzero : d ≠ '0') (hnext : ¬ next.any (isDigitOf 8)) :
      LegacyOctal next [d]
  | two {d e : Char} (hd : isDigitOf 4 d) (he : isDigitOf 8 e) (hnext : ¬ next.any (isDigitOf 8)) :
      LegacyOctal next [d, e]
  | twoHigh {d e : Char} (hd : isDigitOf 8 d) (hhigh : ¬ isDigitOf 4 d) (he : isDigitOf 8 e) :
      LegacyOctal next [d, e]
  | three {d e f : Char} (hd : isDigitOf 4 d) (he : isDigitOf 8 e) (hf : isDigitOf 8 f) :
      LegacyOctal next [d, e, f]

/-- The line ends that a backslash may hide, given the character after them. -/
inductive LineBreak (next : Option Char) : List Char → Prop
  | lineFeed : LineBreak next ['\n']
  | carriageReturn (hnext : next ≠ some '\n') : LineBreak next ['\r']
  | returnFeed : LineBreak next ['\r', '\n']
  | lineSeparator : LineBreak next ['\u2028']
  | paragraphSeparator : LineBreak next ['\u2029']

/-- What may stand behind a backslash, given the character `next` after it, and the units it
stands for. -/
inductive Escape (next : Option Char) : List Char → List Nat → Prop
  | single {c value : Char} (h : singleEscape? c = some value) :
      Escape next [c] (Text.unitsOfChar value)
  | plain {c : Char} (hsingle : singleEscape? c = none) (hdigit : ¬ isDigit c) (hx : c ≠ 'x')
      (hu : c ≠ 'u') (hline : ¬ isTerminator c) : Escape next [c] (Text.unitsOfChar c)
  | null (hnext : ¬ next.any isDigit) : Escape next ['0'] [0]
  | octal {digits : List Char} (h : LegacyOctal next digits) :
      Escape next digits [ofDigits 8 digits]
  | decimal {c : Char} (h : c = '8' ∨ c = '9') : Escape next [c] (Text.unitsOfChar c)
  | hex {digits : List Char} (hlength : digits.length = 2)
      (hdigits : ∀ d ∈ digits, isDigitOf 16 d) : Escape next ('x' :: digits) [ofDigits 16 digits]
  | unicode {digits : List Char} (hlength : digits.length = 4)
      (hdigits : ∀ d ∈ digits, isDigitOf 16 d) : Escape next ('u' :: digits) [ofDigits 16 digits]
  | codePoint {digits : List Char} (hne : digits ≠ []) (hdigits : ∀ d ∈ digits, isDigitOf 16 d)
      (hcode : ofDigits 16 digits ≤ 0x10ffff) :
      Escape next ('u' :: '\x7b' :: digits ++ ['\x7d']) (unitsOfCode (ofDigits 16 digits))
  | lineBreak {text : List Char} (h : LineBreak next text) : Escape next text []

/-- What may stand between two quotes of the given kind, and the units it stands for. -/
inductive StringBody (quote : Char) : List Char → List Nat → Prop
  | nil : StringBody quote [] []
  | plain {c : Char} {body : List Char} {units : List Nat} (hquote : c ≠ quote) (hslash : c ≠ '\\')
      (hline : c ≠ '\n') (hreturn : c ≠ '\r') (hbody : StringBody quote body units) :
      StringBody quote (c :: body) (Text.unitsOfChar c ++ units)
  | escape {text body : List Char} {first units : List Nat}
      (htext : Escape (body ++ [quote]).head? text first) (hbody : StringBody quote body units) :
      StringBody quote ('\\' :: (text ++ body)) (first ++ units)

/-- The text is a string literal, and its value is `units`. -/
def StringLiteral (text : String) (units : List Nat) : Prop :=
  ∃ quote body, (quote = '"' ∨ quote = '\'') ∧ text.toList = quote :: (body ++ [quote]) ∧
    StringBody quote body units

/-- The number of escaped line breaks other than a line feed. -/
def escapedBreaks : List Char → Nat
  | '\\' :: c :: r =>
    (if c = '\r' ∨ c = '\u2028' ∨ c = '\u2029' then 1 else 0) + escapedBreaks r
  | _ :: r => escapedBreaks r
  | [] => 0

end RowExpr.Ecma

namespace RowExpr.Token

open RowExpr.Number (isDigit isDigitOf ofDigits readDigits?)
open RowExpr.Ecma (singleEscape? unitsOfCode escapedBreaks)

/-! ## The two readings of an escape -/

lemma unitsOfChar_ofNat {code : Nat} (h : IsCode code) :
    Text.unitsOfChar (Char.ofNat code) = unitsOfCode code := by
  have hvalid : code.isValidChar := by
    rcases h with h | ⟨h, h'⟩
    · exact .inl h
    · exact .inr ⟨by omega, h'⟩
  have htoNat : (Char.ofNat code).toNat = code := by
    rw [Char.ofNat, dif_pos hvalid]
    rfl
  unfold Text.unitsOfChar unitsOfCode
  rw [htoNat]

lemma foldl_digits_lt {radix : Nat} {digits : List Char} (h : ∀ d ∈ digits, isDigitOf radix d)
    (n : Nat) :
    digits.foldl (fun n c => n * radix + (Number.digitValue c).getD 0) n <
      (n + 1) * radix ^ digits.length := by
  induction digits generalizing n with
  | nil => simp
  | cons d ds ih =>
    have hd : (Number.digitValue d).getD 0 < radix := by
      have := h d (by simp)
      unfold isDigitOf at this
      split at this
      case h_1 v hv => simpa [hv] using this
      case h_2 => simp at this
    rw [List.foldl_cons, List.length_cons, Nat.pow_succ']
    have hstep := ih (fun e he => h e (by simp [he])) (n * radix + (Number.digitValue d).getD 0)
    have hle : n * radix + (Number.digitValue d).getD 0 + 1 ≤ (n + 1) * radix := by
      rw [Nat.add_mul, Nat.one_mul]
      omega
    calc _ < _ := hstep
      _ ≤ (n + 1) * radix * radix ^ ds.length := Nat.mul_le_mul_right _ hle
      _ = _ := by rw [Nat.mul_assoc]

lemma ofDigits_lt {radix : Nat} {digits : List Char} (h : ∀ d ∈ digits, isDigitOf radix d) :
    ofDigits radix digits < radix ^ digits.length := by
  simpa [ofDigits] using foldl_digits_lt h 0

lemma escapedBreaks_cons {c : Char} (h : c ≠ '\\') (r : List Char) :
    escapedBreaks (c :: r) = escapedBreaks r := by
  rw [escapedBreaks]
  rintro d r' rfl
  exact absurd rfl h

lemma escapedBreaks_append {digits : List Char} (h : ∀ d ∈ digits, d ≠ '\\') (r : List Char) :
    escapedBreaks (digits ++ r) = escapedBreaks r := by
  induction digits with
  | nil => rfl
  | cons d ds ih =>
    rw [List.cons_append, escapedBreaks_cons (h d (by simp)), ih fun e he => h e (by simp [he])]

lemma ne_slash_of_isDigitOf {d : Char} {radix : Nat} (h : isDigitOf radix d) : d ≠ '\\' := by
  rintro rfl
  revert h
  simp [isDigitOf, Number.digitValue]

/-- An escape that starts with no line break and has no backslash in it adds no line break. -/
lemma escapedBreaks_escape {c : Char} (hc : ¬ (c = '\r' ∨ c = '\u2028' ∨ c = '\u2029'))
    {tail : List Char} (htail : ∀ d ∈ tail, d ≠ '\\') (rest : List Char) :
    escapedBreaks ('\\' :: (c :: tail ++ rest)) = escapedBreaks rest := by
  rw [List.cons_append, escapedBreaks, if_neg hc, escapedBreaks_append htail, Nat.zero_add]

/-- `value`, read by the scanner, against `units`: it has those and one more for each of the
`extra` characters that ECMAScript drops. -/
def Extends (value : List Char) (units : List Nat) (extra : Nat) : Prop :=
  units.Sublist (Text.units value) ∧ (Text.units value).length = units.length + extra

lemma extends_of_eq {value : List Char} {units : List Nat} (h : Text.units value = units) :
    Extends value units 0 := by
  subst h
  exact ⟨List.Sublist.refl _, rfl⟩

lemma Extends.append {value value' : List Char} {units units' : List Nat} {extra extra' : Nat}
    (h : Extends value units extra) (h' : Extends value' units' extra') :
    Extends (value ++ value') (units ++ units') (extra + extra') := by
  unfold Extends at *
  rw [Text.units, List.flatMap_append]
  refine ⟨h.1.append h'.1, ?_⟩
  have := h.2
  have := h'.2
  simp only [Text.units] at *
  simp only [List.length_append]
  omega

lemma Extends.units_eq_iff {value : List Char} {units : List Nat} {extra : Nat}
    (h : Extends value units extra) : Text.units value = units ↔ extra = 0 := by
  constructor
  · intro heq
    have := h.2
    rw [heq] at this
    omega
  · rintro rfl
    exact (h.1.eq_of_length h.2.symm).symm

lemma controlEscape?_digit {c : Char} (h : isDigit c) : controlEscape? c = none := by
  unfold controlEscape?
  split <;> first | rfl | (revert h; decide)

/-- A digit behind a backslash is refused, but for a zero on its own. -/
lemma not_scans_escape_digit {c : Char} {r left : List Char} {value : Option Char}
    (hc : isDigit c) (hzero : c = '0' → r.head?.any isDigit) :
    ¬ Scans (scanEscape (c :: r)) value left := by
  have hletters : c ≠ 'x' ∧ c ≠ 'u' ∧ c ≠ '\n' := by
    refine ⟨?_, ?_, ?_⟩ <;> rintro rfl <;> revert hc <;> decide
  have hnull : ¬ (c = '0' ∧ ¬ r.head?.any isDigit) := fun h => h.2 (hzero h.1)
  simp only [scanEscape, controlEscape?_digit hc]
  rw [if_neg hnull, if_neg hletters.1, if_neg hletters.2.1, if_neg hletters.2.2, if_pos hc]
  exact not_scans_error

lemma isDigit_of_isDigitOf {radix : Nat} (hradix : radix ≤ 10) {c : Char}
    (h : isDigitOf radix c) : isDigit c := by
  unfold isDigit isDigitOf at *
  cases hd : Number.digitValue c with
  | none => simp [hd] at h
  | some d => simp [hd] at h ⊢; omega

lemma not_scans_legacyOctal {digits rest left : List Char} {value : Option Char}
    (h : Ecma.LegacyOctal rest.head? digits) :
    ¬ Scans (scanEscape (digits ++ rest)) value left := by
  have hoctal : ∀ {d : Char}, isDigitOf 8 d → isDigit d := isDigit_of_isDigitOf (by omega)
  have hquarter : ∀ {d : Char}, isDigitOf 4 d → isDigit d := isDigit_of_isDigitOf (by omega)
  cases h with
  | zero hnext =>
    apply not_scans_escape_digit (by decide)
    rintro -
    change rest.head?.any isDigit
    rcases hnext with hnext | hnext <;> rw [hnext] <;> decide
  | one hd hzero _ => exact not_scans_escape_digit (hoctal hd) fun h => absurd h hzero
  | two hd he _ => exact not_scans_escape_digit (hquarter hd) fun _ => by simp [hoctal he]
  | twoHigh hd _ he => exact not_scans_escape_digit (hoctal hd) fun _ => by simp [hoctal he]
  | three hd he hf => exact not_scans_escape_digit (hquarter hd) fun _ => by simp [hoctal he]

/-- Behind `\u` a code point is read, which has to be one of a character. -/
lemma scans_escape_code {r left : List Char} {value : Option Char}
    (h : Scans (scanEscape ('u' :: r)) value left) :
    ∃ code, Scans (scanCode r) code left ∧ IsCode code ∧ value = some (Char.ofNat code) := by
  obtain ⟨code, left', _, hcode, h⟩ := scans_bind_ok.1 h
  obtain ⟨v, hv, h⟩ := scans_bind.1 h
  obtain ⟨hvalid, rfl⟩ := characterOf_eq_ok.1 hv
  obtain ⟨rfl, rfl⟩ := scans_ok.1 h
  exact ⟨code, hcode, hvalid, rfl⟩

lemma braceCode?_digits {digits : List Char} (hne : digits ≠ [])
    (hdigits : ∀ d ∈ digits, isDigitOf 16 d) (hcode : ofDigits 16 digits ≤ 0x10ffff) :
    braceCode? digits = some (ofDigits 16 digits) := by
  have hsign : ∀ rest, digits ≠ '+' :: rest := by
    rintro rest rfl
    have := hdigits '+' (by simp)
    revert this
    decide
  have hread : readDigits? 16 digits = some (ofDigits 16 digits) := by
    unfold readDigits?
    rw [if_pos]
    simpa [hne] using hdigits
  unfold braceCode?
  split
  case h_1 rest => exact absurd rfl (hsign rest)
  case h_2 =>
    have hfits : decide (ofDigits 16 digits < 0x100000000) := by simp; omega
    dsimp only
    rw [hread, Option.filter_some, if_pos hfits]

/-- A single character behind a backslash that the scanner reads as an escape of its own. -/
lemma scans_escape_char {c : Char} {rest left : List Char} {value value' : Option Char}
    (h : Scans (scanEscape (c :: rest)) value left) (hc : Escape rest.head? [c] value') :
    value = value' ∧ left = rest := by
  have h' : Scans (scanEscape (c :: rest)) value' rest := scans_escape.2 ⟨[c], rfl, hc⟩
  exact h.unique h'

lemma escape_single {next : Option Char} {c value : Char} (h : singleEscape? c = some value) :
    Escape next [c] (some value) := by
  revert h
  unfold singleEscape?
  split
  all_goals first
    | (intro h; cases h; exact .control rfl)
    | (intro h; cases h; exact .plain rfl (by decide) (by decide) (by decide) (by decide))
    | simp

lemma controlEscape?_of_singleEscape? {c : Char} (h : singleEscape? c = none) :
    controlEscape? c = none := by
  revert h
  unfold controlEscape?
  split
  all_goals first | (intro h; cases h) | (intro _; rfl)

/-- Of an escape that ECMAScript gives `units`, the scanner makes these units, or one more if it
is an escaped line break other than a line feed. -/
lemma scans_escape_units {text rest left : List Char} {units : List Nat} {value : Option Char}
    (h : Ecma.Escape rest.head? text units) (hreturn : text ≠ ['\r', '\n'])
    (hscan : Scans (scanEscape (text ++ rest)) value left) :
    left = rest ∧ ∃ extra, Extends value.toList units extra ∧
      ∀ r, escapedBreaks ('\\' :: (text ++ r)) = extra + escapedBreaks r := by
  have hsame : ∀ {value : Char}, Text.unitsOfChar value = units →
      (∃ c tail, text = c :: tail ∧ ¬ (c = '\r' ∨ c = '\u2028' ∨ c = '\u2029') ∧
        ∀ d ∈ tail, d ≠ '\\') →
      ∃ extra, Extends (some value).toList units extra ∧
        ∀ r, escapedBreaks ('\\' :: (text ++ r)) = extra + escapedBreaks r := by
    rintro value hvalue ⟨c, tail, rfl, hc, htail⟩
    refine ⟨0, extends_of_eq (by simpa [Text.units] using hvalue), ?_⟩
    intro r
    rw [escapedBreaks_escape hc htail, Nat.zero_add]
  have hslash : ∀ {digits : List Char}, (∀ d ∈ digits, isDigitOf 16 d) → ∀ d ∈ digits, d ≠ '\\' :=
    fun hdigits d hd => ne_slash_of_isDigitOf (hdigits d hd)
  cases h with
  | @single c v hc =>
    obtain ⟨rfl, rfl⟩ := scans_escape_char hscan (escape_single hc)
    refine ⟨rfl, hsame rfl ⟨c, [], rfl, ?_, by simp⟩⟩
    rintro (rfl | rfl | rfl) <;> simp [singleEscape?] at hc
  | @plain c hsingle hdigit hx hu hline =>
    have hterm : c ≠ '\n' ∧ ¬ (c = '\r' ∨ c = '\u2028' ∨ c = '\u2029') := by
      simpa [Ecma.isTerminator, not_or, and_assoc] using hline
    obtain ⟨rfl, rfl⟩ := scans_escape_char hscan
      (.plain (controlEscape?_of_singleEscape? hsingle) hx hu hterm.1 hdigit)
    exact ⟨rfl, hsame rfl ⟨c, [], rfl, hterm.2, by simp⟩⟩
  | null hnext =>
    obtain ⟨rfl, rfl⟩ := scans_escape_char hscan (.null hnext)
    exact ⟨rfl, hsame rfl ⟨'0', [], rfl, by decide, by simp⟩⟩
  | octal hoctal => exact absurd hscan (not_scans_legacyOctal hoctal)
  | @decimal c hc =>
    refine absurd hscan (not_scans_escape_digit ?_ ?_)
    · rcases hc with rfl | rfl <;> decide
    · rintro rfl
      simp at hc
  | @hex digits hlength hdigits =>
    have hlt : ofDigits 16 digits < 16 ^ 2 := hlength ▸ ofDigits_lt hdigits
    have hcode : IsCode (ofDigits 16 digits) := .inl (by omega)
    have hread : Scans (scanEscape ('x' :: digits ++ rest)) _ rest :=
      scans_escape.2 ⟨_, rfl, .hex hlength hdigits hcode⟩
    obtain ⟨rfl, rfl⟩ := hscan.unique hread
    refine ⟨rfl, hsame ?_ ⟨'x', digits, rfl, by decide, hslash hdigits⟩⟩
    rw [unitsOfChar_ofNat hcode, unitsOfCode, if_pos (by omega)]
  | @unicode digits hlength hdigits =>
    have hlt : ofDigits 16 digits < 16 ^ 4 := hlength ▸ ofDigits_lt hdigits
    obtain ⟨code, hread, hcode, rfl⟩ := scans_escape_code hscan
    obtain ⟨rfl, rfl⟩ := hread.unique (scans_code_digits hlength hdigits rest)
    refine ⟨rfl, hsame ?_ ⟨'u', digits, rfl, by decide, hslash hdigits⟩⟩
    rw [unitsOfChar_ofNat hcode, unitsOfCode, if_pos (by omega)]
  | @codePoint digits hne hdigits hle =>
    obtain ⟨code, hread, hcode, rfl⟩ := scans_escape_code hscan
    have hbrace : ∀ d ∈ digits, d ≠ '\x7d' := by
      rintro d hd rfl
      have := hdigits _ hd
      revert this
      decide
    have hread' : Scans (scanCode ('\x7b' :: digits ++ ['\x7d'] ++ rest)) _ rest :=
      scans_code.2 (.inl ⟨digits, by simp, hbrace, braceCode?_digits hne hdigits hle⟩)
    obtain ⟨rfl, rfl⟩ := hread.unique hread'
    refine ⟨rfl, hsame (unitsOfChar_ofNat hcode) ⟨'u', '\x7b' :: digits ++ ['\x7d'], rfl,
      by decide, ?_⟩⟩
    intro d hd
    simp only [List.cons_append, List.mem_cons, List.mem_append, List.not_mem_nil, or_false] at hd
    rcases hd with rfl | hd | rfl
    · decide
    · exact hslash hdigits d hd
    · decide
  | lineBreak hbreak =>
    have hkept : ∀ c : Char, text = [c] → (c = '\r' ∨ c = '\u2028' ∨ c = '\u2029') →
        left = rest ∧ ∃ extra, Extends value.toList [] extra ∧
          ∀ r, escapedBreaks ('\\' :: (text ++ r)) = extra + escapedBreaks r := by
      rintro c rfl hc
      have hplain : Escape rest.head? [c] (some c) := by
        rcases hc with rfl | rfl | rfl <;>
          exact .plain rfl (by decide) (by decide) (by decide) (by decide)
      obtain ⟨rfl, rfl⟩ := scans_escape_char hscan hplain
      refine ⟨rfl, 1, ⟨List.nil_sublist _, ?_⟩, by simp [escapedBreaks, hc]⟩
      rcases hc with rfl | rfl | rfl <;> rfl
    cases hbreak with
    | lineFeed =>
      obtain ⟨rfl, rfl⟩ := scans_escape_char hscan .lineFeed
      exact ⟨rfl, 0, extends_of_eq rfl, by simp [escapedBreaks]⟩
    | carriageReturn _ => exact hkept '\r' rfl (by decide)
    | returnFeed => exact absurd rfl hreturn
    | lineSeparator => exact hkept '\u2028' rfl (by decide)
    | paragraphSeparator => exact hkept '\u2029' rfl (by decide)

/-! ## The two readings of a literal -/

/-- Up to the closing quote of a literal of ECMAScript the scanner makes of it the units of its
value and one for each escaped line break other than a line feed. -/
theorem scans_string_units {quote : Char} (hquote : quote = '"' ∨ quote = '\'')
    {body rest left value : List Char} {units : List Nat} (h : Ecma.StringBody quote body units)
    (hscan : Scans (scanString quote (body ++ quote :: rest)) value left) :
    left = rest ∧ ∃ extra, Extends value units extra ∧
      ∀ r, escapedBreaks (body ++ r) = extra + escapedBreaks r := by
  have hslash : '\\' ≠ quote := by rcases hquote with rfl | rfl <;> decide
  have hfeed : '\n' ≠ quote := by rcases hquote with rfl | rfl <;> decide
  induction h generalizing value left with
  | nil =>
    simp only [List.nil_append, scanString, if_true, scans_ok] at hscan
    obtain ⟨rfl, rfl⟩ := hscan
    exact ⟨rfl, 0, extends_of_eq rfl, by simp⟩
  | @plain c body units hc hback hline _ _ ih =>
    rw [List.cons_append, scanString, if_neg hc, if_neg hline, if_neg hback] at hscan
    obtain ⟨v, left', _, hv, hscan⟩ := scans_bind_ok.1 hscan
    obtain ⟨rfl, rfl⟩ := scans_ok.1 hscan
    obtain ⟨rfl, extra, hext, hbreaks⟩ := ih hv
    have hchar : Extends [c] (Text.unitsOfChar c) 0 := extends_of_eq (by simp [Text.units])
    refine ⟨rfl, 0 + extra, hchar.append hext, fun r => ?_⟩
    rw [List.cons_append, escapedBreaks_cons hback, hbreaks, Nat.zero_add]
  | @escape text body first units htext _ ih =>
    have hhead : (body ++ [quote]).head? = (body ++ quote :: rest).head? := by
      cases body <;> rfl
    rw [List.cons_append, List.append_assoc, scanString, if_neg hslash, if_neg (by decide),
      if_pos rfl] at hscan
    obtain ⟨c, left', _, hc, hscan⟩ := scans_bind_ok.1 hscan
    obtain ⟨v, left'', _, hv, hscan⟩ := scans_bind_ok.1 hscan
    obtain ⟨rfl, rfl⟩ := scans_ok.1 hscan
    by_cases hreturn : text = ['\r', '\n']
    · -- The scanner keeps the carriage return and stumbles over the line feed.
      subst hreturn
      obtain ⟨rfl, rfl⟩ := scans_escape_char hc
        (.plain rfl (by decide) (by decide) (by decide) (by decide))
      simp [scanString, hfeed] at hv
    · obtain ⟨rfl, extra, hfirst, hbreak⟩ := scans_escape_units (hhead ▸ htext) hreturn hc
      obtain ⟨rfl, extra', hext, hbreaks⟩ := ih hv
      refine ⟨rfl, extra + extra', hfirst.append hext, fun r => ?_⟩
      rw [List.cons_append, List.append_assoc, hbreak, hbreaks, Nat.add_assoc]

/-- A text that is a string literal of ECMAScript and is read as one string token has the whole
text for its spelling, and its value has the units that ECMAScript gives the literal and one more
for each escaped line break other than a line feed. So the two values are the same if and only if
no such line break is escaped. -/
theorem units_eq_iff_no_escapedBreaks {offset position stop : Nat} {text value raw : String}
    {units : List Nat}
    (hscan : TokenRun.ofText offset text = ⟨[⟨position, .string value raw⟩], .eof stop⟩)
    (hliteral : Ecma.StringLiteral text units) :
    raw = text ∧ units.Sublist (Text.units value.toList) ∧
      (Text.units value.toList).length = units.length + escapedBreaks text.toList ∧
      (Text.units value.toList = units ↔ escapedBreaks text.toList = 0) := by
  obtain ⟨quote, body, hquote, htext, hbody⟩ := hliteral
  have hstart : StartsToken quote (body ++ [quote]) := by
    rcases hquote with rfl | rfl
    · exact ⟨by decide, by simp⟩
    · exact ⟨by decide, by simp⟩
  have hslash : quote ≠ '\\' := by rcases hquote with rfl | rfl <;> decide
  rw [TokenRun.ofText, htext] at hscan
  cases hs : scanToken (offset + (quote :: (body ++ [quote])).length) quote (body ++ [quote]) with
  | error f =>
    rw [TokenRun.scan_of_fault hstart hs] at hscan
    simp [TokenRun.faulty] at hscan
  | ok s =>
    have hs : Scans _ s.value s.rest := ⟨s.suffix, hs⟩
    rw [TokenRun.scan_of_scans hstart hs] at hscan
    obtain ⟨body', v, hbody', hv, htoken⟩ := (scans_token_string hquote).1 hs
    -- The token ends where the literal ends, since the two readings take the same steps.
    obtain ⟨hrest, extra, hext, hbreaks⟩ := scans_string_units hquote hbody
      ((scans_string hslash).2 ⟨body', hbody', hv⟩)
    have hraw : body' = body := by
      rw [hrest] at hbody'
      exact (List.append_cancel_right hbody').symm
    have hvalue : value = String.ofList v ∧ raw = text := by
      have htokens := congrArg TokenRun.tokens hscan
      simp only [TokenRun.cons, htoken, List.cons.injEq, Lexeme.mk.injEq,
        Token.string.injEq] at htokens
      refine ⟨htokens.1.2.1.symm, ?_⟩
      rw [← htokens.1.2.2, hraw, ← htext, String.ofList_toList]
    have hcount : escapedBreaks text.toList = extra := by
      rw [htext, escapedBreaks_cons hslash, hbreaks, escapedBreaks_cons hslash]
      rfl
    rw [hvalue.1, String.toList_ofList, hcount]
    exact ⟨hvalue.2, hext.1, hext.2, hext.units_eq_iff⟩

/-- Behind a hexadecimal escape, an escaped line feed is dropped and a line separator is kept. -/
theorem units_eq_iff_no_escapedBreaks_separator :
    TokenRun.ofText 0 "'\\x41\\\n\\\u2028'" =
        ⟨[⟨0, .string "A\u2028" "'\\x41\\\n\\\u2028'"⟩], .eof 10⟩ ∧
      Ecma.StringLiteral "'\\x41\\\n\\\u2028'" [0x41] ∧
      (Text.units "A\u2028".toList).length = 1 + escapedBreaks "'\\x41\\\n\\\u2028'".toList ∧
      (Text.units "A\u2028".toList = [0x41] ↔
        escapedBreaks "'\\x41\\\n\\\u2028'".toList = 0) := by
  have hscan : TokenRun.ofText 0 "'\\x41\\\n\\\u2028'" =
      ⟨[⟨0, .string "A\u2028" "'\\x41\\\n\\\u2028'"⟩], .eof 10⟩ := by
    cbv
  have hhex : ∀ next, Ecma.Escape next ['x', '4', '1'] [0x41] := fun _ =>
    .hex rfl (forall_mem_of_all (by decide))
  have hbody : Ecma.StringBody '\'' "\\x41\\\n\\\u2028".toList [0x41] :=
    .escape (hhex _) (.escape (.lineBreak .lineFeed) (.escape (.lineBreak .lineSeparator) .nil))
  have hliteral : Ecma.StringLiteral "'\\x41\\\n\\\u2028'" [0x41] :=
    ⟨'\'', _, .inr rfl, rfl, hbody⟩
  exact ⟨hscan, hliteral, (units_eq_iff_no_escapedBreaks hscan hliteral).2.2⟩

/-- An escaped carriage return contributes nothing to the value of a literal, but is kept. -/
theorem units_ne_escapedReturn :
    TokenRun.ofText 0 "'a\\\rb'" = ⟨[⟨0, .string "a\rb" "'a\\\rb'"⟩], .eof 6⟩ ∧
      Ecma.StringLiteral "'a\\\rb'" (Text.units "ab".toList) ∧
      Text.units "a\rb".toList ≠ Text.units "ab".toList := by
  have hb : Ecma.StringBody '\'' ['b'] [0x62] :=
    .plain (by decide) (by decide) (by decide) (by decide) .nil
  have hreturn : Ecma.StringBody '\'' ['\\', '\r', 'b'] [0x62] :=
    .escape (.lineBreak (.carriageReturn (by decide))) hb
  have hbody : Ecma.StringBody '\'' ['a', '\\', '\r', 'b'] [0x61, 0x62] :=
    .plain (by decide) (by decide) (by decide) (by decide) hreturn
  exact ⟨by cbv, ⟨'\'', _, .inr rfl, rfl, hbody⟩, by decide⟩

end RowExpr.Token
